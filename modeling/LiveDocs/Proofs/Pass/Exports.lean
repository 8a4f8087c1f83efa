import LiveDocs.Proofs.Pass.Selection

/-!
# Exports flow down only

Two operations that differ in one place, executed on the same store, agree everywhere else. The
place is a branch that is replaced by another one with the same response key, or all that follows
a position; it may lie in any selection, at the root or below. So what a branch exports stays in
it, and what a leaf exports is seen by the fields behind it, and below them, only.
Main statement: `exports_flow_down`.
-/

namespace LiveDocs

namespace Executor

/-! ### Changes of a selection -/

/-- A change in one place of a selection: a branch is replaced, or all that follows a position is,
or the change lies below a field that stays. -/
inductive Change where
  | branch (front : List Field) (f f' : Field) (rest : List Field)
  | tail (front rest rest' : List Field)
  | inside (front : List Field) (name : String) (label : Option String)
      (arguments : Bindings Argument) (directives : List Directive) (inner : Change)
      (rest : List Field)

namespace Change

/-- The selection before the change. -/
def left : Change → List Field
  | branch front f _ rest => front ++ f :: rest
  | tail front rest _ => front ++ rest
  | inside front name label arguments directives inner rest =>
    front ++ .mk name label arguments directives inner.left :: rest

/-- The selection after the change. -/
def right : Change → List Field
  | branch front _ f' rest => front ++ f' :: rest
  | tail front _ rest' => front ++ rest'
  | inside front name label arguments directives inner rest =>
    front ++ .mk name label arguments directives inner.right :: rest

/-- A branch is replaced by a branch with the same key, and a field that stays selects something
before and after. One that comes to select nothing may turn into a leaf, and export: this is a
change of the field itself, or of the tail that it heads. -/
def Valid (vars : Variables) : Change → Prop
  | branch _ f f' _ =>
    f.Branches vars ∧ f'.Branches vars ∧ f'.responseKey = f.responseKey
  | tail _ _ _ => True
  | inside _ _ _ _ _ inner _ => inner.left ≠ [] ∧ inner.right ≠ [] ∧ inner.Valid vars

end Change

/-- The `__typename` that is added to a selection below a field when it is executed. -/
def typenameAdded (config : Config) (fields : List Field) : List Field :=
  if config.addTypename && !fields.any (·.name == "__typename") then [.leaf "__typename"] else []

/-- A selection as it is executed, with the fields that are added to it. -/
def executed (config : Config) (add : List Field → List Field) (fields : List Field) :
    List Field :=
  fields.map (prepareField config) ++ add fields

/-- Two objects have the same entries, except perhaps those of some fields. -/
def SameExcept (fields : List Field) (r r' : Json) : Prop :=
  ∃ members members', r = .object members ∧ r' = .object members' ∧
    ∀ key ∉ fields.map Field.responseKey, Bindings.get? key members = Bindings.get? key members'

/-- A relation between objects, for a document or for each document of a collection. -/
inductive Itemwise (R : Json → Json → Prop) : Json → Json → Prop where
  | one {r r' : Json} (h : R r r') : Itemwise R r r'
  | many {items items' : List Json} (h : List.Forall₂ R items items') :
      Itemwise R (.array items) (.array items')

/-- Two responses agree outside the place of a change. Where the change lies below a field, the
values of this field agree outside that place in turn, item by item if it is a collection.
Exempt are entries that a field which may differ, or an added `__typename`, has overwritten. -/
def Change.Agree (config : Config) :
    Change → (add : List Field → List Field) → Json → Json → Prop
  | branch front f f' rest, add, r, r' =>
    SameExcept (f :: (add (front ++ f :: rest) ++ add (front ++ f' :: rest))) r r'
  | tail front rest rest', add, r, r' =>
    SameExcept (rest ++ rest' ++ (add (front ++ rest) ++ add (front ++ rest'))) r r'
  | inside front name label arguments directives inner rest, add, r, r' =>
    let f := Field.mk name label arguments directives inner.left
    let f' := Field.mk name label arguments directives inner.right
    let added := add (front ++ f :: rest) ++ add (front ++ f' :: rest)
    SameExcept (f :: added) r r' ∧
      (f.responseKey ∉ (rest ++ added).map Field.responseKey →
        ∃ value value', r.get? f.responseKey = some value ∧ r'.get? f.responseKey = some value' ∧
          Itemwise (inner.Agree config (typenameAdded config)) value value')

/-! ### Executed selections -/

section

variable {config : Config} {vars : Variables} {name : String} {label : Option String}
  {arguments : Bindings Argument} {directives : List Directive} {selection : List Field}

/-- A field that selects something is executed with its selection. -/
theorem prepareField_mk (h : selection ≠ []) :
    prepareField config (.mk name label arguments directives selection) =
      .mk name label arguments directives (executed config (typenameAdded config) selection) := by
  have hempty : ¬ selection.isEmpty = true := by simpa using h
  cases hadd : config.addTypename with
  | false =>
    have hprepare : prepareField config = id :=
      funext fun f => by rw [prepareField, if_neg (by simp [hadd]), id]
    rw [executed, typenameAdded, hprepare, hadd, List.map_id]
    simp
  | true =>
    have hprepare : prepareField config = Field.withTypename :=
      funext fun f => by rw [prepareField, if_pos hadd]
    rw [executed, typenameAdded, hprepare, hadd, Field.withTypename, if_neg hempty,
      Field.completeSelection_withTypenames]
    cases selection.any (·.name == "__typename") <;> simp

end

/-! ### Entries of a selection -/

/-- The entries that fields make in a response, in order. -/
def entries (fields : List Field) (values : List Json) : List (String × Json) :=
  (fields.map Field.responseKey).zip values

theorem entries_append {fields fields' : List Field} {values values' : List Json}
    (h : values.length = fields.length) :
    entries (fields ++ fields') (values ++ values') =
      entries fields values ++ entries fields' values' := by
  rw [entries, List.map_append, List.zip_append (by rw [List.length_map, h])]
  rfl

theorem get?_reverse_entries {fields : List Field} {key : String}
    (h : key ∉ fields.map Field.responseKey) (values : List Json) :
    Bindings.get? key (entries fields values).reverse = none := by
  refine Bindings.get?_eq_none_iff.2 fun hmem => h ?_
  rw [Bindings.keys, List.map_reverse, List.mem_reverse] at hmem
  obtain ⟨⟨k, value⟩, hentry, rfl⟩ := List.mem_map.1 hmem
  exact (List.of_mem_zip hentry).1

/-- The last entry of a key is the one that counts. -/
theorem get?_ofPairs_of_last {key : String} {front rest : List (String × Json)} (value : Json)
    (h : Bindings.get? key rest.reverse = none) :
    Bindings.get? key (Bindings.ofPairs (front ++ (key, value) :: rest)) = some value := by
  rw [Bindings.get?_ofPairs, List.reverse_append, List.reverse_cons, Bindings.get?_append,
    Bindings.get?_append, h]
  simp [Bindings.get?]

/-- Entries of other keys do not matter to a key. -/
theorem get?_ofPairs_append {key : String} {front rest : List (String × Json)}
    (h : Bindings.get? key rest.reverse = none) :
    Bindings.get? key (Bindings.ofPairs (front ++ rest)) =
      Bindings.get? key (Bindings.ofPairs front) := by
  rw [Bindings.get?_ofPairs, Bindings.get?_ofPairs, List.reverse_append, Bindings.get?_append, h,
    Option.none_or]

theorem get?_ofPairs_append_cons {key other : String} {front rest : List (String × Json)}
    (value : Json) (h : key ≠ other) :
    Bindings.get? key (Bindings.ofPairs (front ++ (other, value) :: rest)) =
      Bindings.get? key (Bindings.ofPairs (front ++ rest)) := by
  rw [Bindings.get?_ofPairs, Bindings.get?_ofPairs, List.reverse_append, List.reverse_append,
    List.reverse_cons, Bindings.get?_append, Bindings.get?_append, Bindings.get?_append]
  simp [Bindings.get?, Ne.symm h]

section Selection

variable {vars : Variables} {s : Store} {parent : Option Entity}
  {exports exports' exports'' : Exports} {front rest added added' : List Field}
  {values values' : List Json}

/-- Selections that agree up to a position agree in the entries before it. -/
theorem sameExcept_of_tail
    (h : Yields vars s parent exports (front ++ added) values exports')
    (h' : Yields vars s parent exports (front ++ added') values' exports'') :
    SameExcept (added ++ added') (assemble (front ++ added) values)
      (assemble (front ++ added') values') := by
  obtain ⟨front₁, last, between, rfl, hfront, -⟩ := h.split
  obtain ⟨front₁', last', between', rfl, hfront', -⟩ := h'.split
  obtain ⟨rfl, -⟩ := hfront.unique hfront'
  refine ⟨_, _, rfl, rfl, fun key hkey => ?_⟩
  rw [List.map_append, List.mem_append, not_or] at hkey
  change Bindings.get? key (Bindings.ofPairs (entries _ _)) =
    Bindings.get? key (Bindings.ofPairs (entries _ _))
  rw [entries_append hfront.length_eq, entries_append hfront.length_eq,
    get?_ofPairs_append (get?_reverse_entries hkey.1 last),
    get?_ofPairs_append (get?_reverse_entries hkey.2 last')]

theorem assemble_append_cons {f : Field} {value : Json} {front₁ rest₁ : List Json}
    (hfront : front₁.length = front.length) :
    assemble (front ++ f :: rest) (front₁ ++ value :: rest₁) =
      .object (Bindings.ofPairs (entries front front₁ ++
        (f.responseKey, value) :: entries rest rest₁)) :=
  congrArg (fun pairs => Json.object (Bindings.ofPairs pairs)) (entries_append hfront)

/-- Selections that differ in one branch agree in all entries but that of the branch, which is
resolved with the same exports in both. -/
theorem sameExcept_of_branch {f f' : Field} (hkey : f'.responseKey = f.responseKey)
    (hf : f.Branches vars) (hf' : f'.Branches vars)
    (h : Yields vars s parent exports (front ++ f :: (rest ++ added)) values exports')
    (h' : Yields vars s parent exports (front ++ f' :: (rest ++ added')) values' exports'') :
    SameExcept (f :: (added ++ added')) (assemble (front ++ f :: (rest ++ added)) values)
        (assemble (front ++ f' :: (rest ++ added')) values') ∧
      ∃ between plan plan' value value', Plan.ofField vars f = .ok plan ∧
        Plan.ofField vars f' = .ok plan' ∧
        (resolveField vars parent f (.branch plan between)).result s = .ok value ∧
        (resolveField vars parent f' (.branch plan' between)).result s = .ok value' ∧
        (f.responseKey ∉ (rest ++ (added ++ added')).map Field.responseKey →
          (assemble (front ++ f :: (rest ++ added)) values).get? f.responseKey = some value ∧
          (assemble (front ++ f' :: (rest ++ added')) values').get? f.responseKey =
            some value') := by
  obtain ⟨front₁, back, between, rfl, hfront, hback⟩ := h.split
  obtain ⟨front₁', back', between', rfl, hfront', hback'⟩ := h'.split
  obtain ⟨rfl, rfl⟩ := hfront.unique hfront'
  obtain ⟨plan, value, more, rfl, hplan, hvalue, hmore⟩ := hback.of_branch hf
  obtain ⟨plan', value', more', rfl, hplan', hvalue', hmore'⟩ := hback'.of_branch hf'
  obtain ⟨rest₁, last, between₂, rfl, hrest, hlast⟩ := hmore.split
  obtain ⟨rest₁', last', between₂', rfl, hrest', hlast'⟩ := hmore'.split
  obtain ⟨rfl, rfl⟩ := hrest.unique hrest'
  rw [assemble_append_cons hfront.length_eq, assemble_append_cons hfront.length_eq, hkey,
    entries_append hrest.length_eq, entries_append hrest.length_eq]
  refine ⟨⟨_, _, rfl, rfl, fun key hnot => ?_⟩, between, plan, plan', value, value', hplan, hplan',
    hvalue, hvalue', fun hnot => ?_⟩
  · rw [List.map_cons, List.mem_cons, not_or, List.map_append, List.mem_append, not_or] at hnot
    obtain ⟨hne, hadded, hadded'⟩ := hnot
    rw [get?_ofPairs_append_cons value hne, get?_ofPairs_append_cons value' hne,
      ← List.append_assoc, ← List.append_assoc,
      get?_ofPairs_append (get?_reverse_entries hadded last),
      get?_ofPairs_append (get?_reverse_entries hadded' last')]
  · rw [List.map_append, List.mem_append, not_or, List.map_append, List.mem_append, not_or] at hnot
    obtain ⟨hother, hadded, hadded'⟩ := hnot
    refine ⟨get?_ofPairs_of_last value ?_, get?_ofPairs_of_last value' ?_⟩
    · rw [List.reverse_append, Bindings.get?_append, get?_reverse_entries hadded,
        get?_reverse_entries hother, Option.none_or]
    · rw [List.reverse_append, Bindings.get?_append, get?_reverse_entries hadded',
        get?_reverse_entries hother, Option.none_or]

end Selection

/-! ### Agreement -/

section Agreement

variable {config : Config} {vars : Variables} {s : Store} {parent : Option Entity}
  {exports : Exports} {r r' : Json}

theorem SameExcept.mono {fields fields' : List Field} (h : SameExcept fields r r')
    (hkeys : fields.map Field.responseKey ⊆ fields'.map Field.responseKey) :
    SameExcept fields' r r' := by
  obtain ⟨members, members', hr, hr', hsame⟩ := h
  exact ⟨members, members', hr, hr', fun key hkey => hsame key fun hmem => hkey (hkeys hmem)⟩

theorem executed_ne_nil {add : List Field → List Field} {fields : List Field} (h : fields ≠ []) :
    executed config add fields ≠ [] := by
  rw [executed]
  exact List.append_ne_nil_of_left_ne_nil (by simpa using h) _

theorem executed_append_cons (add : List Field → List Field) (front rest : List Field) (f : Field) :
    executed config add (front ++ f :: rest) =
      front.map (prepareField config) ++ prepareField config f ::
        (rest.map (prepareField config) ++ add (front ++ f :: rest)) := by
  rw [executed, List.map_append, List.map_cons, List.append_assoc, List.cons_append]

/-- If what is selected below a field resolves to related objects below every document, the field
itself has related values, item by item. -/
theorem itemwise_of_resolveField (hs : s.failures = []) {R : Json → Json → Prop} {name : String}
    {label : Option String} {arguments : Bindings Argument} {directives : List Directive}
    {selection selection' : List Field} (hne : selection ≠ []) (hne' : selection' ≠ [])
    (hfree : ReadOnly vars [.mk name label arguments directives selection])
    (hfree' : ReadOnly vars [.mk name label arguments directives selection']) {plan : Plan}
    (hplan : Plan.ofField vars (.mk name label arguments directives selection) = .ok plan)
    (hR : ∀ entity r r',
      (resolveSelection vars (some entity) exports selection).result s = .ok r →
      (resolveSelection vars (some entity) exports selection').result s = .ok r' → R r r')
    {value value' : Json}
    (h : (resolveField vars parent (.mk name label arguments directives selection)
      (.branch plan exports)).result s = .ok value)
    (h' : (resolveField vars parent (.mk name label arguments directives selection')
      (.branch plan exports)).result s = .ok value') : Itemwise R value value' := by
  have hplan' : Plan.ofField vars (.mk name label arguments directives selection') = .ok plan :=
    hplan
  obtain ⟨resolved, hresolved, hfound⟩ := exists_of_resolveField hfree hplan h
  have hresolved' := hresolved
  rw [resolveBranch_selection selection selection'] at hresolved'
  rcases hfound with ⟨entity, rfl⟩ | ⟨entities, rfl⟩
  · rw [result_resolveField_entity hs hne hfree hplan hresolved] at h
    rw [result_resolveField_entity hs hne' hfree' hplan' hresolved'] at h'
    exact .one (hR entity value value' h h')
  · rw [result_resolveField_entities hs hne hfree hplan hresolved] at h
    rw [result_resolveField_entities hs hne' hfree' hplan' hresolved'] at h'
    obtain ⟨items, hitems, rfl⟩ := exists_of_map_ok h
    obtain ⟨items', hitems', rfl⟩ := exists_of_map_ok h'
    exact .many (forall₂_of_mapM hR hitems hitems')

/-- Selections that differ by a change are resolved, below one document, to responses that agree
outside its place. -/
theorem Change.agree_of_resolveSelection (hs : s.failures = []) {change : Change}
    (hvalid : change.Valid vars) {add : List Field → List Field}
    (hfree : ReadOnly vars (executed config add change.left))
    (hfree' : ReadOnly vars (executed config add change.right))
    (h : (resolveSelection vars parent exports (executed config add change.left)).result s = .ok r)
    (h' : (resolveSelection vars parent exports (executed config add change.right)).result s =
      .ok r') : change.Agree config add r r' := by
  induction change generalizing parent exports add r r' with
  | branch front f f' rest =>
    obtain ⟨hf, hf', hkey⟩ := hvalid
    obtain ⟨values, exports₁, hyields, rfl⟩ := yields_of_resolveSelection hs hfree h
    obtain ⟨values', exports₁', hyields', rfl⟩ := yields_of_resolveSelection hs hfree' h'
    simp only [left, right, executed_append_cons] at hyields hyields' ⊢
    have hkey' : (prepareField config f').responseKey = (prepareField config f).responseKey := by
      rw [responseKey_prepareField, responseKey_prepareField, hkey]
    refine (sameExcept_of_branch hkey' (branches_prepareField.2 hf) (branches_prepareField.2 hf')
      hyields hyields').1.mono ?_
    rw [List.map_cons, List.map_cons, responseKey_prepareField]
    exact List.Subset.refl _
  | tail front rest rest' =>
    obtain ⟨values, exports₁, hyields, rfl⟩ := yields_of_resolveSelection hs hfree h
    obtain ⟨values', exports₁', hyields', rfl⟩ := yields_of_resolveSelection hs hfree' h'
    simp only [left, right, executed, List.map_append, List.append_assoc] at hyields hyields' ⊢
    refine (sameExcept_of_tail hyields hyields').mono fun key hkey => ?_
    simp only [List.map_append, map_responseKey_prepareField, List.mem_append] at hkey ⊢
    tauto
  | inside front name label arguments directives inner rest ih =>
    obtain ⟨hne, hne', hinner⟩ := hvalid
    simp only [left, right, executed_append_cons, prepareField_mk hne, prepareField_mk hne']
      at hfree hfree' h h'
    obtain ⟨values, exports₁, hyields, rfl⟩ := yields_of_resolveSelection hs hfree h
    obtain ⟨values', exports₁', hyields', rfl⟩ := yields_of_resolveSelection hs hfree' h'
    have hshell := hfree.of_mem (List.mem_append_right _ List.mem_cons_self)
    have hshell' := hfree'.of_mem (List.mem_append_right _ List.mem_cons_self)
    -- the field itself is the same before and after, so it has one plan
    obtain ⟨plan, hplan⟩ := hyields.exists_plan (List.mem_append_right _ List.mem_cons_self)
    have hbranches : ∀ selection : List Field, selection ≠ [] →
        (Field.mk name label arguments directives selection).Branches vars :=
      fun selection hselection => Field.branches_of_selection hplan hselection
    have hkey : ∀ selection selection' : List Field,
        (Field.mk name label arguments directives selection').responseKey =
          (Field.mk name label arguments directives selection).responseKey := fun _ _ => rfl
    obtain ⟨hsame, between, plan₁, plan₂, value, value', hplan₁, hplan₂, hvalue, hvalue', hget⟩ :=
      sameExcept_of_branch (hkey _ _) (hbranches _ (executed_ne_nil hne))
        (hbranches _ (executed_ne_nil hne')) hyields hyields'
    obtain rfl : plan₁ = plan₂ := Except.ok.inj (hplan₁.symm.trans hplan₂)
    refine ⟨hsame.mono (List.Subset.refl _), fun hnot => ?_⟩
    obtain ⟨hleft, hright⟩ := hget (by
      rwa [List.map_append, map_responseKey_prepareField, ← List.map_append])
    refine ⟨value, value', hleft, hright, ?_⟩
    exact itemwise_of_resolveField hs (executed_ne_nil hne) (executed_ne_nil hne') hshell hshell'
      hplan₁ (fun entity r r' hr hr' => ih hinner hshell.below hshell'.below hr hr') hvalue hvalue'

end Agreement

/-! ### Operations -/

section Operation

variable {config : Config} {o o' : Operation} {c : Client} {change : Change}

/-- Two operations with the same variables and without mutations differ by a change. -/
structure Change.Separates (change : Change) (o o' : Operation) : Prop where
  vars : o'.vars = o.vars
  valid : change.Valid o.vars
  left : o.selection = change.left
  right : o'.selection = change.right
  mutationFree : o.MutationFree
  mutationFree' : o'.MutationFree

theorem readOnly_executed (ho : o.MutationFree) :
    ReadOnly o.vars (executed config (fun _ => []) o.selection) := by
  rw [executed, List.append_nil, ← selection_prepare]
  exact writesAllowed_prepare config fun f hf m hm => absurd hm (ho f hf m)

theorem response_execute (ho : o.MutationFree) (hc : c.Quiet) :
    (execute config o c).response =
      (resolveSelection o.vars none [] (executed config (fun _ => []) o.selection)).result
        c.store := by
  have hpass : pass config o =
      resolveSelection o.vars none [] (executed config (fun _ => []) o.selection) := by
    rw [pass, vars_prepare, selection_prepare, executed, List.append_nil]
  rw [← hpass]
  exact Pass.run_eq_result (makes_reads config ho) hc

theorem agree_of_execute (hc : c.Quiet) (hchange : change.Separates o o') {r r' : Json}
    (h : (execute config o c).response = .ok r) (h' : (execute config o' c).response = .ok r') :
    change.Agree config (fun _ => []) r r' := by
  have hfree : ReadOnly o.vars (executed config (fun _ => []) o.selection) :=
    readOnly_executed hchange.mutationFree
  have hfree' : ReadOnly o'.vars (executed config (fun _ => []) o'.selection) :=
    readOnly_executed hchange.mutationFree'
  rw [response_execute hchange.mutationFree hc] at h
  rw [response_execute hchange.mutationFree' hc] at h'
  rw [hchange.left] at h hfree
  rw [hchange.vars, hchange.right] at h' hfree'
  exact Change.agree_of_resolveSelection hc.2 hchange.valid hfree hfree' h h'

/-- Exports flow down only. On a store without failing calls, two operations that differ by a change
have responses that agree outside its place, if both succeed. And a branch that is resolved to the
documents of a collection resolves what is selected below it for every one of them by itself. -/
theorem exports_flow_down (config : Config) (hc : c.Quiet) :
    (∀ (o o' : Operation) (change : Change) (r r' : Json), change.Separates o o' →
      (execute config o c).response = .ok r → (execute config o' c).response = .ok r' →
      change.Agree config (fun _ => []) r r') ∧
    (∀ (vars : Variables) (parent : Option Entity) (exports : Exports) (f : Field) (plan : Plan)
      (entities : List Entity), f.selection ≠ [] → ReadOnly vars [f] →
      Plan.ofField vars f = .ok plan →
      (resolveBranch vars parent f exports plan).result c.store = .ok (.entities entities) →
      (resolveField vars parent f (.branch plan exports)).result c.store =
        .array <$> entities.mapM fun entity =>
          (resolveSelection vars (some entity) exports f.selection).result c.store) := by
  constructor
  · intro o o' change r r' hchange h h'
    exact agree_of_execute hc hchange h h'
  · intro vars parent exports f plan entities hne hfree hplan h
    obtain ⟨name, label, arguments, directives, selection⟩ := f
    exact result_resolveField_entities hc.2 hne hfree hplan h

end Operation

/-- The query for all users. -/
def usersQuery : Directive :=
  ((Directive.named "query").withArgument "path" (.literal (.string "users"))).withArgument
    "rootType" (.literal (.string "collection"))

/-- What is selected of each user changes: at first the name is exported. -/
def usersChange : Change :=
  .inside [] "users" none [] [usersQuery]
    (.tail [.leaf "id"]
      [(Field.leaf "name").withDirective
        ((Directive.named "field").withArgument "key" (.literal (.string "who")))] [.leaf "age"]) []

/-- The operation that selects these fields. -/
def usersOperation (selection : List Field) : Operation :=
  { Operation.empty .query with selection }

/-- The query for the names of all users. -/
def userNames : Operation :=
  usersOperation [.mk "users" none [] [usersQuery] [.leaf "id", .leaf "name"]]

/-- A client of a store with one user. -/
def userClient : Client :=
  .ofStore (Store.empty.putDocument (.ofText "users/u1") [("name", .string "Ada")]) []

theorem exports_flow_down_users :
    userClient.Quiet ∧ ∃ r r',
      (execute {} (usersOperation usersChange.left) userClient).response = .ok r ∧
      (execute {} (usersOperation usersChange.right) userClient).response = .ok r' ∧
      usersChange.Agree {} (fun _ => []) r r' := by
  have hquiet : userClient.Quiet := ⟨rfl, rfl⟩
  have hchange : usersChange.Separates (usersOperation usersChange.left)
      (usersOperation usersChange.right) :=
    ⟨rfl, ⟨List.cons_ne_nil _ _, List.cons_ne_nil _ _, trivial⟩, rfl, rfl,
      by decide +kernel, by decide +kernel⟩
  have hok : (execute {} (usersOperation usersChange.left) userClient).response.isOk = true := by
    decide +kernel
  have hok' : (execute {} (usersOperation usersChange.right) userClient).response.isOk = true := by
    decide +kernel
  rcases hr : (execute {} (usersOperation usersChange.left) userClient).response with e | r
  · rw [hr] at hok
    cases hok
  · rcases hr' : (execute {} (usersOperation usersChange.right) userClient).response with e | r'
    · rw [hr'] at hok'
      cases hok'
    · exact ⟨hquiet, r, r', rfl, rfl, (exports_flow_down {} hquiet).1 _ _ _ r r' hchange hr hr'⟩

end Executor

end LiveDocs
