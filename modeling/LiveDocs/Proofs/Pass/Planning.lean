import LiveDocs.Executor
import LiveDocs.Proofs.Except

/-!
# Planned fields

Which fields become branches when a selection is planned. A field branches if it selects something
or one of its directives fetches; at the root, where there is no document to read a leaf off, all
fields have to. Adding `__typename` to what is selected below a field changes neither its plan nor
whether it branches. Main statements: `not_branches_iff`, why a field is no branch;
`exists_of_planFields_cons`, what planning makes of a selection; `planFields_congr`, what of its
fields it depends on; `planFields_none_iff`, what it makes of root fields; `resolveField_branch`,
how a branch is resolved.
-/

namespace LiveDocs

/-! ### Fetching plans -/

namespace Plan

variable {d : Directive} {vars : Variables} {plan : Plan}

theorem exists_of_ofQuery (h : ofQuery d vars = .ok plan) :
    ∃ rootKind fetch, plan = .query rootKind fetch ∧
      d.flag vars "subscribe" = .ok fetch.subscribe := by
  obtain ⟨path, -, h⟩ := exists_of_bind_ok h
  obtain ⟨rootKind, -, h⟩ := exists_of_bind_ok h
  obtain ⟨type, -, h⟩ := exists_of_bind_ok h
  obtain ⟨subscribe, hflag, h⟩ := exists_of_bind_ok h
  obtain ⟨source, -, h⟩ := exists_of_bind_ok h
  obtain rfl := Except.ok.inj h
  exact ⟨_, _, rfl, hflag⟩

theorem exists_of_ofMutation (h : ofMutation d vars = .ok plan) : ∃ m, plan = .mutation m := by
  obtain ⟨type, -, h⟩ := exists_of_bind_ok h
  obtain ⟨path, -, h⟩ := exists_of_bind_ok h
  obtain ⟨rootKind, -, h⟩ := exists_of_bind_ok h
  obtain ⟨typename, -, h⟩ := exists_of_bind_ok h
  obtain ⟨payloadName, -, h⟩ := exists_of_bind_ok h
  obtain ⟨merge, -, h⟩ := exists_of_bind_ok h
  obtain ⟨mergeFields, -, h⟩ := exists_of_bind_ok h
  obtain rfl := Except.ok.inj h
  exact ⟨_, rfl⟩

theorem exists_of_ofRef (h : ofRef d vars = .ok plan) :
    ∃ fetch, plan = .ref fetch ∧ d.flag vars "subscribe" = .ok fetch.subscribe := by
  obtain ⟨path, -, h⟩ := exists_of_bind_ok h
  obtain ⟨type, -, h⟩ := exists_of_bind_ok h
  obtain ⟨subscribe, hflag, h⟩ := exists_of_bind_ok h
  obtain ⟨source, -, h⟩ := exists_of_bind_ok h
  obtain rfl := Except.ok.inj h
  exact ⟨_, rfl, hflag⟩

theorem exists_of_ofLeaf (h : ofLeaf d vars = .ok plan) : ∃ leaf, plan = .leaf leaf := by
  obtain ⟨exportKey, -, h⟩ := exists_of_bind_ok h
  obtain ⟨mode, -, h⟩ := exists_of_bind_ok h
  obtain rfl := Except.ok.inj h
  exact ⟨_, rfl⟩

/-- Of several directives the first of `@query`, `@mutation`, `@ref` and `@field` makes the plan,
and it is a plan of its kind. -/
theorem ofField_cases {f : Field} (h : ofField vars f = .ok plan) :
    (∃ d rootKind fetch, f.directive? "query" = some d ∧ plan = .query rootKind fetch ∧
      d.flag vars "subscribe" = .ok fetch.subscribe) ∨
    f.directive? "query" = Option.none ∧
      ((∃ d m, f.directive? "mutation" = some d ∧ plan = .mutation m) ∨
      f.directive? "mutation" = Option.none ∧
        ((∃ d fetch, f.directive? "ref" = some d ∧ plan = .ref fetch ∧
          d.flag vars "subscribe" = .ok fetch.subscribe) ∨
        f.directive? "ref" = Option.none ∧ ((∃ leaf, plan = .leaf leaf) ∨ plan = .none))) := by
  rw [ofField] at h
  cases hquery : f.directive? "query" with
  | some d =>
    rw [hquery] at h
    obtain ⟨rootKind, fetch, hplan, hflag⟩ := exists_of_ofQuery h
    exact .inl ⟨d, rootKind, fetch, rfl, hplan, hflag⟩
  | none =>
    refine .inr ⟨rfl, ?_⟩
    cases hmutation : f.directive? "mutation" with
    | some d =>
      rw [hquery, hmutation] at h
      obtain ⟨m, hplan⟩ := exists_of_ofMutation h
      exact .inl ⟨d, m, rfl, hplan⟩
    | none =>
      refine .inr ⟨rfl, ?_⟩
      cases href : f.directive? "ref" with
      | some d =>
        rw [hquery, hmutation, href] at h
        obtain ⟨fetch, hplan, hflag⟩ := exists_of_ofRef h
        exact .inl ⟨d, fetch, rfl, hplan, hflag⟩
      | none =>
        refine .inr ⟨rfl, ?_⟩
        rw [hquery, hmutation, href] at h
        cases hleaf : f.directive? "field" with
        | some d =>
          rw [hleaf] at h
          exact .inl (exists_of_ofLeaf h)
        | none =>
          rw [hleaf] at h
          exact .inr (Except.ok.inj h).symm

/-- A plan fetches exactly if one of the three directives that fetch is there. -/
theorem isFetching_eq_false_iff {f : Field} (h : ofField vars f = .ok plan) :
    plan.isFetching = false ↔
      f.directive? "query" = Option.none ∧ f.directive? "mutation" = Option.none ∧
        f.directive? "ref" = Option.none := by
  rcases ofField_cases h with ⟨d, rootKind, fetch, hd, rfl, -⟩ | ⟨hquery, ⟨d, m, hd, rfl⟩ |
    ⟨hmutation, ⟨d, fetch, hd, rfl, -⟩ | ⟨href, ⟨leaf, rfl⟩ | rfl⟩⟩⟩
  · simp [isFetching, hd]
  · simp [isFetching, hd]
  · simp [isFetching, hd]
  · simp [isFetching, hquery, hmutation, href]
  · simp [isFetching, hquery, hmutation, href]

end Plan

/-! ### Branches -/

namespace Field

variable {vars : Variables} {f : Field}

/-- What holds of a field if it holds of the fields below it holds of every field. -/
theorem selection_induction {P : Field → Prop} (h : ∀ f : Field, (∀ g ∈ f.selection, P g) → P f)
    (f : Field) : P f :=
  @Field.rec P (fun fields => ∀ g ∈ fields, P g) (fun _ _ _ _ _ ih => h _ ih)
    (fun _ hg => by cases hg) (fun _ _ hhead htail => List.forall_mem_cons.2 ⟨hhead, htail⟩) f

/-- A field is planned as a branch: it selects something, or it is resolved by itself. -/
def Branches (vars : Variables) (f : Field) : Prop :=
  ∃ plan, Plan.ofField vars f = .ok plan ∧ (!f.isLeaf || plan.isFetching) = true

theorem branches_of_selection {plan : Plan}
    (hplan : Plan.ofField vars f = .ok plan) (h : f.selection ≠ []) : f.Branches vars := by
  refine ⟨plan, hplan, ?_⟩
  rw [isLeaf, List.isEmpty_eq_false_iff.2 h]
  rfl

/-- The directives of a field do not parse, or it is a leaf that none of them fetches. -/
def Unresolvable (vars : Variables) (f : Field) : Prop :=
  (∃ e, Plan.ofField vars f = .error e) ∨
    f.isLeaf = true ∧ f.directive? "query" = none ∧ f.directive? "mutation" = none ∧
      f.directive? "ref" = none

theorem not_branches_iff : ¬ f.Branches vars ↔ f.Unresolvable vars := by
  rw [Branches, Unresolvable]
  cases hplan : Plan.ofField vars f with
  | error e => simp
  | ok plan =>
    rw [← Plan.isFetching_eq_false_iff hplan]
    simp

@[simp] theorem responseKey_withTypename (f : Field) :
    f.withTypename.responseKey = f.responseKey := by
  cases f
  rfl

@[simp] theorem name_withTypename (f : Field) : f.withTypename.name = f.name := by
  cases f
  rfl

@[simp] theorem directives_withTypename (f : Field) :
    f.withTypename.directives = f.directives := by
  cases f
  rfl

/-- What is added to a selection: a field for the typename, unless there is one. -/
theorem completeSelection_withTypenames (selection : List Field) :
    completeSelection (withTypenames selection) =
      selection.map withTypename ++
        if selection.any (·.name == "__typename") then [] else [.leaf "__typename"] := by
  have hany : (selection.map withTypename).any (·.name == "__typename") =
      selection.any (·.name == "__typename") := by
    rw [List.any_map]
    exact congrArg (selection.any ·) (funext fun f => by
      rw [Function.comp_apply, name_withTypename])
  rw [completeSelection, withTypenames_eq_map, hany]
  cases selection.any (·.name == "__typename") <;> simp

@[simp] theorem isLeaf_withTypename (f : Field) : f.withTypename.isLeaf = f.isLeaf := by
  obtain ⟨name, label, arguments, directives, selection⟩ := f
  cases selection with
  | nil => rfl
  | cons g rest =>
    rw [withTypename, if_neg (by simp), isLeaf, isLeaf, selection, selection, completeSelection,
      withTypenames]
    split <;> rfl

@[simp] theorem ofField_withTypename (vars : Variables) (f : Field) :
    Plan.ofField vars f.withTypename = Plan.ofField vars f := by
  cases f
  rfl

theorem walk_eq_cons (f : Field) : walk f = f :: walkAll f.selection := by
  cases f
  rw [walk, Field.selection]

theorem mem_walkAll {fields : List Field} : f ∈ walkAll fields ↔ ∃ g ∈ fields, f ∈ walk g := by
  rw [walkAll_eq_flatMap, List.mem_flatMap]

theorem selection_withTypename (h : f.isLeaf = false) :
    f.withTypename.selection = completeSelection (withTypenames f.selection) := by
  obtain ⟨name, label, arguments, directives, selection⟩ := f
  rw [Field.withTypename]
  exact if_neg (Bool.eq_false_iff.1 h)

/-- With typenames added there are the fields as before, with typenames added below, and the fields
that ask for the typename. -/
theorem exists_of_mem_walk_withTypename {g : Field} (h : g ∈ walk f.withTypename) :
    g = leaf "__typename" ∨ ∃ g' ∈ walk f, g = g'.withTypename := by
  induction f using selection_induction with
  | h f ih =>
    rw [walk_eq_cons] at h
    rcases List.mem_cons.1 h with rfl | h
    · exact .inr ⟨f, by rw [walk_eq_cons]; exact List.mem_cons_self, rfl⟩
    cases hleaf : f.isLeaf with
    | true =>
      have hnil : f.withTypename.selection = [] := by
        rw [withTypename_of_isLeaf hleaf]
        exact List.isEmpty_iff.1 hleaf
      rw [hnil] at h
      cases h
    | false =>
      rw [selection_withTypename hleaf, completeSelection_withTypenames] at h
      obtain ⟨below, hbelow, h⟩ := mem_walkAll.1 h
      rcases List.mem_append.1 hbelow with hbelow | hbelow
      · obtain ⟨below, hselected, rfl⟩ := List.mem_map.1 hbelow
        refine (ih below hselected h).imp_right fun ⟨g', hg', hgg'⟩ => ⟨g', ?_, hgg'⟩
        rw [walk_eq_cons]
        exact List.mem_cons_of_mem _ (mem_walkAll.2 ⟨below, hselected, hg'⟩)
      · split at hbelow
        · cases hbelow
        · obtain rfl := List.mem_singleton.1 hbelow
          exact .inl (List.mem_singleton.1 h)

end Field

namespace Executor

/-- A field as it is executed. -/
def prepareField (config : Config) (f : Field) : Field :=
  if config.addTypename then f.withTypename else f

theorem selection_prepare (config : Config) (o : Operation) :
    (prepare config o).selection = o.selection.map (prepareField config) := by
  rw [prepare]
  split
  · rename_i h
    rw [Operation.withTypenames, Field.withTypenames_eq_map]
    exact List.map_congr_left fun f _ => by rw [prepareField, if_pos h]
  · rename_i h
    refine (List.map_id'' (fun f => ?_) o.selection).symm
    rw [prepareField, if_neg h]

/-- The fields of an operation as it is executed: its own fields, and those that ask for the
typename. -/
theorem exists_of_mem_walk_prepare {config : Config} {o : Operation} {f : Field}
    (h : f ∈ Field.walkAll (prepare config o).selection) :
    f = .leaf "__typename" ∨ ∃ g ∈ o.walk, f = prepareField config g := by
  rw [selection_prepare] at h
  obtain ⟨root, hroot, h⟩ := Field.mem_walkAll.1 h
  obtain ⟨root, hselected, rfl⟩ := List.mem_map.1 hroot
  rw [prepareField] at h
  split at h
  · rename_i hadd
    refine (Field.exists_of_mem_walk_withTypename h).imp_right fun ⟨g, hg, hfg⟩ => ⟨g, ?_, ?_⟩
    · exact Field.mem_walkAll.2 ⟨root, hselected, hg⟩
    · rw [hfg, prepareField, if_pos hadd]
  · rename_i hadd
    exact .inr ⟨f, Field.mem_walkAll.2 ⟨root, hselected, h⟩, by rw [prepareField, if_neg hadd]⟩

theorem vars_prepare (config : Config) (o : Operation) : (prepare config o).vars = o.vars := by
  rw [prepare]
  split <;> rfl

@[simp] theorem responseKey_prepareField (config : Config) (f : Field) :
    (prepareField config f).responseKey = f.responseKey := by
  rw [prepareField]
  split
  · exact f.responseKey_withTypename
  · rfl

theorem map_responseKey_prepareField (config : Config) (fields : List Field) :
    (fields.map (prepareField config)).map Field.responseKey = fields.map Field.responseKey := by
  rw [List.map_map]
  exact List.map_congr_left fun f _ => responseKey_prepareField config f

theorem ofField_prepareField (config : Config) (vars : Variables) (f : Field) :
    Plan.ofField vars (prepareField config f) = Plan.ofField vars f := by
  rw [prepareField]
  split
  · exact f.ofField_withTypename vars
  · rfl

@[simp] theorem branches_prepareField {config : Config} {vars : Variables} {f : Field} :
    (prepareField config f).Branches vars ↔ f.Branches vars := by
  rw [prepareField]
  split
  · simp only [Field.Branches, Field.ofField_withTypename, Field.isLeaf_withTypename]
  · rfl

/-! ### Planning -/

variable {vars : Variables} {parent : Option Entity} {exports : Exports} {f : Field}
  {rest : List Field} {plan : Plan} {slots : List Slot}

theorem planFields_of_branch (hplan : Plan.ofField vars f = .ok plan)
    (hbranch : (!f.isLeaf || plan.isFetching) = true) :
    planFields vars parent exports (f :: rest) =
      (.branch plan exports :: ·) <$> planFields vars parent exports rest := by
  rw [planFields, hplan]
  change (if (!f.isLeaf || plan.isFetching) = true then _ else _) = _
  rw [if_pos hbranch]
  rfl

/-- The value that is read for a leaf. -/
def leafRead (f : Field) (plan : Plan) (entity : Entity) : Json :=
  leafValue f (leafPlan plan).mode entity

/-- What the rest of a selection gets to see after a leaf. -/
def exportsAfter (f : Field) (plan : Plan) (entity : Entity) (exports : Exports) : Exports :=
  exportLeaf f (leafPlan plan) (leafRead f plan entity) exports

theorem planFields_of_leaf {entity : Entity} (hplan : Plan.ofField vars f = .ok plan)
    (hleaf : (!f.isLeaf || plan.isFetching) = false) :
    planFields vars (some entity) exports (f :: rest) =
      (.value (leafRead f plan entity) :: ·) <$>
        planFields vars (some entity) (exportsAfter f plan entity exports) rest := by
  rw [planFields, hplan]
  change (if (!f.isLeaf || plan.isFetching) = true then _ else _) = _
  rw [if_neg (by simp [hleaf])]
  rfl

theorem planFields_of_wrong {cause : ConfigError} (hplan : Plan.ofField vars f = .error cause) :
    planFields vars parent exports (f :: rest) = .error (.config cause) := by
  rw [planFields, hplan]
  rfl

theorem planFields_of_rootLeaf (hplan : Plan.ofField vars f = .ok plan)
    (hleaf : (!f.isLeaf || plan.isFetching) = false) :
    planFields vars none exports (f :: rest) = .error (.noContext f.name) := by
  rw [planFields, hplan]
  change (if (!f.isLeaf || plan.isFetching) = true then _ else _) = _
  rw [if_neg (by simp [hleaf])]
  rfl

/-- What planning makes of a selection: its first field is a branch and sees the exports as they
are, or it is a leaf, is read off the parent, and the rest sees what it exports. -/
theorem exists_of_planFields_cons (h : planFields vars parent exports (f :: rest) = .ok slots) :
    ∃ plan, Plan.ofField vars f = .ok plan ∧
      (((!f.isLeaf || plan.isFetching) = true ∧ ∃ slots', slots = .branch plan exports :: slots' ∧
          planFields vars parent exports rest = .ok slots') ∨
        ((!f.isLeaf || plan.isFetching) = false ∧ ∃ entity slots', parent = some entity ∧
          slots = .value (leafRead f plan entity) :: slots' ∧
          planFields vars parent (exportsAfter f plan entity exports) rest = .ok slots')) := by
  rw [planFields] at h
  obtain ⟨plan, hplan, h⟩ := exists_of_bind_ok h
  cases hof : Plan.ofField vars f with
  | error e =>
    rw [hof] at hplan
    cases hplan
  | ok plan' =>
    rw [hof] at hplan
    obtain rfl : plan' = plan := Except.ok.inj hplan
    refine ⟨plan', rfl, ?_⟩
    cases hbranch : (!f.isLeaf || plan'.isFetching) with
    | true =>
      rw [if_pos hbranch] at h
      obtain ⟨slots', hrest, hslots⟩ := exists_of_bind_ok h
      exact .inl ⟨rfl, slots', (Except.ok.inj hslots).symm, hrest⟩
    | false =>
      rw [if_neg (by simp [hbranch])] at h
      cases parent with
      | none => cases h
      | some entity =>
        obtain ⟨slots', hrest, hslots⟩ := exists_of_bind_ok h
        exact .inr ⟨rfl, entity, slots', rfl, (Except.ok.inj hslots).symm, hrest⟩

/-- Planning does not tell the fields apart: they have the same name and the same directives, and
both or neither of them select something. -/
structure PlansLike (f' f : Field) : Prop where
  name_eq : f'.name = f.name
  directives_eq : f'.directives = f.directives
  isLeaf_eq : f'.isLeaf = f.isLeaf

theorem PlansLike.ofField {f' : Field} (h : PlansLike f' f) :
    Plan.ofField vars f' = Plan.ofField vars f := by
  simp only [Plan.ofField, Field.directive?, h.directives_eq]

theorem PlansLike.exportLeaf {f' : Field} (h : PlansLike f' f) (leaf : LeafPlan) (value : Json)
    (exports : Exports) : exportLeaf f' leaf value exports = exportLeaf f leaf value exports := by
  rw [Executor.exportLeaf, Executor.exportLeaf, h.name_eq]

theorem PlansLike.leafValue {f' : Field} (h : PlansLike f' f) (mode : PendingMode)
    (entity : Entity) : leafValue f' mode entity = leafValue f mode entity := by
  rw [Executor.leafValue, Executor.leafValue, h.name_eq]

/-- Selections that planning does not tell apart have the same slots. -/
theorem planFields_congr {fields fields' : List Field} (h : List.Forall₂ PlansLike fields' fields) :
    planFields vars parent exports fields' = planFields vars parent exports fields := by
  induction h generalizing exports with
  | nil => rfl
  | cons hf _ ih =>
    rw [planFields, planFields]
    simp only [hf.ofField, hf.isLeaf_eq, hf.name_eq, hf.leafValue, hf.exportLeaf, ih]

/-- The slot of a field that branches, with the exports before it. -/
def BranchSlot (vars : Variables) (exports : Exports) (f : Field) (slot : Slot) : Prop :=
  ∃ plan, Plan.ofField vars f = .ok plan ∧ (!f.isLeaf || plan.isFetching) = true ∧
    slot = .branch plan exports

/-- At the root, every field becomes a branch, and none exports to another. -/
theorem planFields_none_iff {fields : List Field} :
    planFields vars none exports fields = .ok slots ↔
      List.Forall₂ (BranchSlot vars exports) fields slots := by
  induction fields generalizing slots with
  | nil => rw [planFields, List.forall₂_nil_left_iff, Except.ok.injEq, eq_comm]
  | cons f rest ih =>
    rw [List.forall₂_cons_left_iff]
    constructor
    · intro h
      obtain ⟨plan, hplan, ⟨hbranch, slots', rfl, hrest⟩ | ⟨-, entity, -, hnone, -⟩⟩ :=
        exists_of_planFields_cons h
      · exact ⟨_, slots', ⟨plan, hplan, hbranch, rfl⟩, ih.1 hrest, rfl⟩
      · cases hnone
    · rintro ⟨slot, slots', ⟨plan, hplan, hbranch, rfl⟩, hrest, rfl⟩
      rw [planFields_of_branch hplan hbranch, ih.2 hrest]
      rfl

/-- Fields can be planned at the root exactly if all of them branch. -/
theorem exists_planFields_none_iff {fields : List Field} :
    (∃ slots, planFields vars none exports fields = .ok slots) ↔
      ∀ f ∈ fields, f.Branches vars := by
  simp only [planFields_none_iff]
  induction fields with
  | nil => simp
  | cons f rest ih =>
    rw [List.forall_mem_cons, ← ih]
    constructor
    · rintro ⟨_, h⟩
      obtain ⟨slot, slots, ⟨plan, hplan, hbranch, -⟩, hrest, rfl⟩ := List.forall₂_cons_left_iff.1 h
      exact ⟨⟨plan, hplan, hbranch⟩, slots, hrest⟩
    · rintro ⟨⟨plan, hplan, hbranch⟩, slots, hrest⟩
      exact ⟨_, .cons ⟨plan, hplan, hbranch, rfl⟩ hrest⟩

/-! ### Branches that were resolved -/

/-- Resolves what is selected below a branch, for whatever the branch was resolved to. -/
def complete (vars : Variables) (exports : Exports) (selection : List Field) :
    Resolved → Pass Json
  | .entity entity => resolveSelection vars (some entity) exports selection
  | .entities entities => do
    return .array (← entities.mapM fun entity =>
      resolveSelection vars (some entity) exports selection)
  | .deleted typename id => return assemble selection (selection.map (deletedValue typename id))

/-- Fields in two parts are resolved one part after the other. -/
theorem resolveFields_append {front rest : List Field} {slots₁ slots₂ : List Slot}
    (h : slots₁.length = front.length) :
    resolveFields vars parent (front ++ rest) (slots₁ ++ slots₂) = do
      let values₁ ← resolveFields vars parent front slots₁
      let values₂ ← resolveFields vars parent rest slots₂
      return values₁ ++ values₂ := by
  induction front generalizing slots₁ with
  | nil =>
    obtain rfl := List.length_eq_zero_iff.1 h
    simp [resolveFields]
  | cons f front ih =>
    obtain ⟨slot, slots₁, rfl⟩ := List.exists_cons_of_length_eq_add_one h
    rw [List.cons_append, List.cons_append, resolveFields, resolveFields, ih (Nat.succ.inj h)]
    simp

/-- A branch is resolved by its plan, and then completed if it selects something. -/
theorem resolveField_branch :
    resolveField vars parent f (.branch plan exports) =
      resolveBranch vars parent f exports plan >>= fun resolved =>
        if f.isLeaf then pure (.object []) else complete vars exports f.selection resolved := by
  obtain ⟨name, label, arguments, directives, selection⟩ := f
  rw [resolveField]
  refine congrArg _ (funext fun resolved => ?_)
  cases resolved <;> rfl

end Executor

end LiveDocs
