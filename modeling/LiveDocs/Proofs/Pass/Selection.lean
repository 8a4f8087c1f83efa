import LiveDocs.Proofs.Pass.Branches
import LiveDocs.Proofs.Pass.Planning

/-!
# The values of a selection

On a store that was not told to fail, what a reading pass comes to is a function of the store.
So the fields of a selection have values one by one: a leaf has what is read off the parent, and
exports to the fields behind it; a branch has what it resolves to with the exports before it, and
exports nothing. Main statements: `yields_of_resolveSelection`, a selection is put together from the
values of its fields; `Yields.unique`, the exports determine the values;
`result_resolveField_entities`, every item of a collection is resolved for itself.
-/

namespace LiveDocs

namespace Pass

variable {α β : Type} {s : Store}

/-- What a pass comes to on a store. -/
def result (p : Pass α) (s : Store) : Except EngineError α := (p.run ⟨.ofStore s [], []⟩).1

/-- A pass that reads, on a client where no call is to fail, comes to what it does on the store. -/
theorem run_eq_result {p : Pass α} (hp : Makes Requests.reads p) {state : PassState}
    (hquiet : state.client.Quiet) : (p.run state).1 = p.result state.client.store := by
  have hquiet' : (⟨.ofStore state.client.store [], []⟩ : PassState).client.Quiet :=
    ⟨rfl, hquiet.2⟩
  exact run_of_readsAlike hp hquiet' hquiet rfl fun _ _ target _ => .of_collections rfl target

theorem result_bind {p : Pass α} (hp : Makes Requests.reads p) (hs : s.failures = [])
    {f : α → Pass β} (hf : ∀ a, p.result s = .ok a → Makes Requests.reads (f a)) :
    (p >>= f).result s = p.result s >>= fun a => (f a).result s := by
  have hquiet : (⟨.ofStore s [], []⟩ : PassState).client.Quiet := ⟨rfl, hs⟩
  rcases hrun : p.run ⟨.ofStore s [], []⟩ with ⟨e | a, state⟩
  · have hresult : p.result s = .error e := by rw [result, hrun]
    rw [result, run_bind_error hrun, hresult]
    rfl
  · have hresult : p.result s = .ok a := by rw [result, hrun]
    have hclient := client_run_of_reads hp hquiet
    rw [hrun] at hclient
    have hquiet' : state.client.Quiet := by
      rw [hclient]
      exact hquiet
    rw [result, run_bind_ok hrun, hresult, run_eq_result (hf a hresult) hquiet', hclient]
    rfl

theorem result_mapM (hs : s.failures = []) {f : α → Pass β}
    (hf : ∀ a, Makes Requests.reads (f a)) (items : List α) :
    (items.mapM f).result s = items.mapM fun a => (f a).result s := by
  induction items with
  | nil => rfl
  | cons item rest ih =>
    rw [List.mapM_cons, List.mapM_cons, result_bind (hf item) hs fun _ _ =>
      (Makes.mapM hf rest).bind fun _ => Makes.pure _]
    refine congrArg _ (funext fun a => ?_)
    rw [result_bind (Makes.mapM hf rest) hs fun _ _ => Makes.pure _, ih]
    rfl

end Pass

namespace Executor

variable {vars : Variables} {s : Store} {parent : Option Entity} {exports exports' : Exports}
  {f : Field} {rest fields : List Field} {plan : Plan} {slots : List Slot} {values : List Json}

/-- None of the fields, and none below them, is planned as a mutation. -/
def ReadOnly (vars : Variables) (fields : List Field) : Prop :=
  WritesAllowed Requests.reads vars (Field.walkAll fields)

theorem readOnly_cons :
    ReadOnly vars (f :: rest) ↔ ReadOnly vars [f] ∧ ReadOnly vars rest := by
  rw [ReadOnly, ReadOnly, ReadOnly, Field.walkAll_eq_flatMap, List.flatMap_cons,
    ← Field.walkAll_eq_flatMap, writesAllowed_append, Field.walkAll, Field.walkAll,
    List.append_nil]

theorem ReadOnly.of_mem (h : ReadOnly vars fields) (hf : f ∈ fields) : ReadOnly vars [f] := by
  intro g hg
  refine h g ?_
  rw [Field.walkAll, Field.walkAll, List.append_nil] at hg
  rw [Field.walkAll_eq_flatMap]
  exact List.mem_flatMap.2 ⟨f, hf, hg⟩

theorem ReadOnly.ne_mutation (h : ReadOnly vars [f]) (hplan : Plan.ofField vars f = .ok plan)
    (m : MutationPlan) : plan ≠ .mutation m := by
  rintro rfl
  have hf : f ∈ Field.walkAll [f] := by
    cases f
    rw [Field.walkAll, Field.walk]
    exact List.mem_append_left _ List.mem_cons_self
  exact h f hf m hplan Unit (.delete (.ofText "")) trivial

theorem ReadOnly.makes_resolveField (h : ReadOnly vars [f]) {slot : Slot}
    (hslot : Fits vars f slot) : Pass.Makes Requests.reads (resolveField vars parent f slot) := by
  refine (makes_resolveField_and_resolveFields (fun _ _ hr => hr) vars).1 parent f slot ?_ hslot
  rwa [ReadOnly, Field.walkAll, Field.walkAll, List.append_nil] at h

theorem ReadOnly.makes_resolveFields (h : ReadOnly vars fields)
    (hslots : List.Forall₂ (Fits vars) fields slots) :
    Pass.Makes Requests.reads (resolveFields vars parent fields slots) :=
  (makes_resolveField_and_resolveFields (fun _ _ hr => hr) vars).2 parent fields slots h hslots

theorem ReadOnly.makes_resolveSelection (h : ReadOnly vars fields) :
    Pass.Makes Requests.reads (resolveSelection vars parent exports fields) :=
  Executor.makes_resolveSelection (fun _ _ hr => hr) vars parent exports h

/-- The fields, resolved in order and with these exports, have these values, and leave those
exports. -/
inductive Yields (vars : Variables) (s : Store) (parent : Option Entity) :
    Exports → List Field → List Json → Exports → Prop where
  | nil (exports : Exports) : Yields vars s parent exports [] [] exports
  | leaf {f : Field} {plan : Plan} {entity : Entity} {exports exports' : Exports}
      {rest : List Field} {values : List Json} (hplan : Plan.ofField vars f = .ok plan)
      (hleaf : (!f.isLeaf || plan.isFetching) = false) (hparent : parent = some entity)
      (hrest : Yields vars s parent (exportsAfter f plan entity exports) rest values exports') :
      Yields vars s parent exports (f :: rest) (leafRead f plan entity :: values) exports'
  | branch {f : Field} {plan : Plan} {exports exports' : Exports} {rest : List Field}
      {value : Json} {values : List Json} (hplan : Plan.ofField vars f = .ok plan)
      (hbranch : (!f.isLeaf || plan.isFetching) = true)
      (hvalue : (resolveField vars parent f (.branch plan exports)).result s = .ok value)
      (hrest : Yields vars s parent exports rest values exports') :
      Yields vars s parent exports (f :: rest) (value :: values) exports'

theorem yields_of_resolveFields (hs : s.failures = []) (hfree : ReadOnly vars fields)
    (hslots : planFields vars parent exports fields = .ok slots)
    (h : (resolveFields vars parent fields slots).result s = .ok values) :
    ∃ exports', Yields vars s parent exports fields values exports' := by
  induction fields generalizing exports slots values with
  | nil =>
    obtain rfl : [] = slots := Except.ok.inj hslots
    simp only [resolveFields] at h
    obtain rfl : [] = values := Except.ok.inj h
    exact ⟨exports, .nil exports⟩
  | cons f rest ih =>
    obtain ⟨hf, hfreeRest⟩ := readOnly_cons.1 hfree
    obtain ⟨slot, slots', hslot, hslotsRest, rfl⟩ :=
      List.forall₂_cons_left_iff.1 (fits_of_planFields hslots)
    -- the first field has a value, and so do the others
    have hmakes : Pass.Makes Requests.reads (resolveFields vars parent rest slots') :=
      hfreeRest.makes_resolveFields hslotsRest
    rw [resolveFields, Pass.result_bind (hf.makes_resolveField hslot) hs fun _ _ =>
      hmakes.bind fun _ => Pass.Makes.pure _] at h
    obtain ⟨value, hvalue, h⟩ := exists_of_bind_ok h
    rw [Pass.result_bind hmakes hs fun _ _ => Pass.Makes.pure _] at h
    obtain ⟨values', hvalues, h⟩ := exists_of_bind_ok h
    obtain rfl : value :: values' = values := Except.ok.inj h
    obtain ⟨plan, hplan, ⟨hbranch, _, hcons, hrest⟩ | ⟨hleaf, entity, _, hparent, hcons, hrest⟩⟩ :=
      exists_of_planFields_cons hslots
    · obtain ⟨rfl, rfl⟩ := List.cons.inj hcons
      obtain ⟨exports', hyields⟩ := ih hfreeRest hrest hvalues
      exact ⟨exports', .branch hplan hbranch hvalue hyields⟩
    · obtain ⟨rfl, rfl⟩ := List.cons.inj hcons
      rw [resolveField] at hvalue
      obtain rfl : leafRead f plan entity = value := Except.ok.inj hvalue
      obtain ⟨exports', hyields⟩ := ih hfreeRest hrest hvalues
      exact ⟨exports', .leaf hplan hleaf hparent hyields⟩

/-- A selection is put together from the values of its fields. -/
theorem yields_of_resolveSelection (hs : s.failures = []) (hfree : ReadOnly vars fields) {r : Json}
    (h : (resolveSelection vars parent exports fields).result s = .ok r) :
    ∃ values exports', Yields vars s parent exports fields values exports' ∧
      r = assemble fields values := by
  rw [resolveSelection] at h
  cases hslots : planFields vars parent exports fields with
  | error e =>
    rw [hslots] at h
    cases h
  | ok slots =>
    have hmakes : Pass.Makes Requests.reads (resolveFields vars parent fields slots) :=
      hfree.makes_resolveFields (fits_of_planFields hslots)
    rw [hslots, Pass.ofExcept_ok_bind, Pass.result_bind hmakes hs fun _ _ => Pass.Makes.pure _] at h
    obtain ⟨values, hvalues, h⟩ := exists_of_bind_ok h
    obtain ⟨exports', hyields⟩ := yields_of_resolveFields hs hfree hslots hvalues
    exact ⟨values, exports', hyields, (Except.ok.inj h).symm⟩

theorem Yields.exists_plan (h : Yields vars s parent exports fields values exports')
    (hf : f ∈ fields) : ∃ plan, Plan.ofField vars f = .ok plan := by
  induction h with
  | nil exports => cases hf
  | leaf hplan _ _ _ ih | branch hplan _ _ _ ih =>
    rcases List.mem_cons.1 hf with rfl | hf
    · exact ⟨_, hplan⟩
    · exact ih hf

theorem Yields.length_eq (h : Yields vars s parent exports fields values exports') :
    values.length = fields.length := by
  induction h with
  | nil exports => rfl
  | leaf _ _ _ _ ih => rw [List.length_cons, List.length_cons, ih]
  | branch _ _ _ _ ih => rw [List.length_cons, List.length_cons, ih]

/-- The exports determine the values of the fields, and the exports behind them. -/
theorem Yields.unique {values' : List Json} {exports'' : Exports}
    (h : Yields vars s parent exports fields values exports')
    (h' : Yields vars s parent exports fields values' exports'') :
    values = values' ∧ exports' = exports'' := by
  induction h generalizing values' exports'' with
  | nil exports =>
    cases h'
    exact ⟨rfl, rfl⟩
  | leaf hplan hleaf hparent _ ih =>
    cases h' with
    | leaf hplan' _ hparent' hrest' =>
      obtain rfl := Except.ok.inj (hplan.symm.trans hplan')
      obtain rfl := Option.some.inj (hparent.symm.trans hparent')
      obtain ⟨rfl, rfl⟩ := ih hrest'
      exact ⟨rfl, rfl⟩
    | branch hplan' hbranch' =>
      obtain rfl := Except.ok.inj (hplan.symm.trans hplan')
      rw [hleaf] at hbranch'
      cases hbranch'
  | branch hplan hbranch hvalue _ ih =>
    cases h' with
    | leaf hplan' hleaf' =>
      obtain rfl := Except.ok.inj (hplan.symm.trans hplan')
      rw [hbranch] at hleaf'
      cases hleaf'
    | branch hplan' _ hvalue' hrest' =>
      obtain rfl := Except.ok.inj (hplan.symm.trans hplan')
      obtain rfl := Except.ok.inj (hvalue.symm.trans hvalue')
      obtain ⟨rfl, rfl⟩ := ih hrest'
      exact ⟨rfl, rfl⟩

/-- Fields in two parts: the second part starts from what the first one exports. -/
theorem Yields.split {front : List Field}
    (h : Yields vars s parent exports (front ++ rest) values exports') :
    ∃ values₁ values₂ between, values = values₁ ++ values₂ ∧
      Yields vars s parent exports front values₁ between ∧
      Yields vars s parent between rest values₂ exports' := by
  induction front generalizing exports values with
  | nil => exact ⟨[], values, exports, rfl, .nil exports, h⟩
  | cons f front ih =>
    cases h with
    | leaf hplan hleaf hparent hrest =>
      obtain ⟨values₁, values₂, between, rfl, hfront, hback⟩ := ih hrest
      exact ⟨_ :: values₁, values₂, between, rfl, .leaf hplan hleaf hparent hfront, hback⟩
    | branch hplan hbranch hvalue hrest =>
      obtain ⟨values₁, values₂, between, rfl, hfront, hback⟩ := ih hrest
      exact ⟨_ :: values₁, values₂, between, rfl, .branch hplan hbranch hvalue hfront, hback⟩

/-- A branch exports nothing to the fields behind it. -/
theorem Yields.of_branch (h : Yields vars s parent exports (f :: rest) values exports')
    (hbranch : f.Branches vars) :
    ∃ plan value values', values = value :: values' ∧ Plan.ofField vars f = .ok plan ∧
      (resolveField vars parent f (.branch plan exports)).result s = .ok value ∧
      Yields vars s parent exports rest values' exports' := by
  obtain ⟨plan, hplan, hfetches⟩ := hbranch
  cases h with
  | leaf hplan' hleaf =>
    obtain rfl := Except.ok.inj (hplan.symm.trans hplan')
    rw [hfetches] at hleaf
    cases hleaf
  | branch hplan' _ hvalue hrest => exact ⟨_, _, _, rfl, hplan', hvalue, hrest⟩

/-! ### Branches -/

section Branch

variable {name : String} {label : Option String} {arguments : Bindings Argument}
  {directives : List Directive} {selection : List Field}

/-- What a branch is resolved to does not depend on what is selected below it. -/
theorem resolveBranch_selection (selection selection' : List Field) :
    resolveBranch vars parent (.mk name label arguments directives selection) exports plan =
      resolveBranch vars parent (.mk name label arguments directives selection') exports plan := by
  cases plan <;> rfl

theorem ReadOnly.below
    (h : ReadOnly vars [.mk name label arguments directives selection]) :
    ReadOnly vars selection := by
  intro f hf
  refine h f ?_
  rw [Field.walkAll, Field.walk]
  exact List.mem_append_left _ (List.mem_cons_of_mem _ hf)

theorem ReadOnly.makes_resolveBranch {f : Field} (h : ReadOnly vars [f])
    (hplan : Plan.ofField vars f = .ok plan) :
    Pass.Makes Requests.reads (resolveBranch vars parent f exports plan) :=
  Executor.makes_resolveBranch (fun _ _ hr => hr) vars parent f exports fun m hm =>
    (h.ne_mutation hplan m hm).elim

/-- The document, or the documents, that a branch is resolved to; only a mutation is resolved to a
deleted one. -/
def Found (resolved : Resolved) : Prop :=
  (∃ entity, resolved = .entity entity) ∨ ∃ entities, resolved = .entities entities

theorem found_of_resolveBranch {f : Field} {resolved : Resolved} {state : PassState}
    (hplan : ∀ m, plan ≠ .mutation m)
    (h : ((resolveBranch vars parent f exports plan).run state).1 = .ok resolved) :
    Found resolved := by
  cases finds_of_resolveBranch (Prod.ext h rfl) with
  | document => exact .inl ⟨_, rfl⟩
  | collection | followed => exact .inr ⟨_, rfl⟩
  | written | deleted => exact (hplan _ rfl).elim

theorem exists_of_resolveField
    (hfree : ReadOnly vars [.mk name label arguments directives selection])
    (hplan : Plan.ofField vars (.mk name label arguments directives selection) = .ok plan)
    {value : Json}
    (h : (resolveField vars parent (.mk name label arguments directives selection)
      (.branch plan exports)).result s = .ok value) :
    ∃ resolved, (resolveBranch vars parent (.mk name label arguments directives selection) exports
      plan).result s = .ok resolved ∧ Found resolved := by
  rw [resolveField] at h
  obtain ⟨resolved, state, hrun, -⟩ := Pass.exists_of_run_bind (Prod.ext h rfl)
  have hresult := congrArg Prod.fst hrun
  exact ⟨resolved, hresult, found_of_resolveBranch (hfree.ne_mutation hplan) hresult⟩

theorem result_resolveField_entity (hs : s.failures = []) (hne : selection ≠ [])
    (hfree : ReadOnly vars [.mk name label arguments directives selection])
    (hplan : Plan.ofField vars (.mk name label arguments directives selection) = .ok plan)
    {entity : Entity}
    (h : (resolveBranch vars parent (.mk name label arguments directives selection) exports
      plan).result s = .ok (.entity entity)) :
    (resolveField vars parent (.mk name label arguments directives selection)
        (.branch plan exports)).result s =
      (resolveSelection vars (some entity) exports selection).result s := by
  rw [resolveField, Pass.result_bind (hfree.makes_resolveBranch hplan) hs, h]
  · change (ite _ _ _ : Pass Json).result s = _
    rw [if_neg (by simpa using hne)]
    rfl
  · intro resolved hresolved
    obtain rfl := Except.ok.inj (h.symm.trans hresolved)
    rw [if_neg (by simpa using hne)]
    exact hfree.below.makes_resolveSelection

/-- Every item of a collection is resolved for itself: it depends on its document and on the exports
before the branch. -/
theorem result_resolveField_entities (hs : s.failures = []) (hne : selection ≠ [])
    (hfree : ReadOnly vars [.mk name label arguments directives selection])
    (hplan : Plan.ofField vars (.mk name label arguments directives selection) = .ok plan)
    {entities : List Entity}
    (h : (resolveBranch vars parent (.mk name label arguments directives selection) exports
      plan).result s = .ok (.entities entities)) :
    (resolveField vars parent (.mk name label arguments directives selection)
        (.branch plan exports)).result s =
      .array <$> entities.mapM fun entity =>
        (resolveSelection vars (some entity) exports selection).result s := by
  have hitems : ∀ entity, Pass.Makes Requests.reads
      (resolveSelection vars (some entity) exports selection) :=
    fun _ => hfree.below.makes_resolveSelection
  rw [resolveField, Pass.result_bind (hfree.makes_resolveBranch hplan) hs, h]
  · change (ite _ _ _ : Pass Json).result s = _
    rw [if_neg (by simpa using hne)]
    change (entities.mapM (fun entity => resolveSelection vars (some entity) exports selection) >>=
      fun items => pure (Json.array items)).result s = _
    rw [Pass.result_bind (Pass.Makes.mapM hitems entities) hs fun _ _ => Pass.Makes.pure _,
      Pass.result_mapM hs hitems]
    cases entities.mapM fun entity =>
      (resolveSelection vars (some entity) exports selection).result s <;> rfl
  · intro resolved hresolved
    obtain rfl := Except.ok.inj (h.symm.trans hresolved)
    rw [if_neg (by simpa using hne)]
    exact (Pass.Makes.mapM hitems entities).bind fun _ => Pass.Makes.pure _

end Branch

end Executor

end LiveDocs
