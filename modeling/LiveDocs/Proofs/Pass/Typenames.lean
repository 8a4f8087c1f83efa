import LiveDocs.Proofs.Pass.Alike
import LiveDocs.Proofs.Pass.Shape

/-!
# Automatic typenames

Adding `__typename` to the selections of an operation changes its response in one way only: every
object below a root field gets a last entry with its typename, unless its selection asks for one.
`annotate` makes this change, going by the selection and not by the data. Main statement:
`execute_addTypename`, an operation executed with typenames makes the same calls, ends in the same
client and fails with the same error as without, and its response is the annotated one.
-/

namespace LiveDocs

/-! ### Typenames in a response -/

/-- The typename under which a field with this name reports what its plan finds. -/
def Plan.typename (name : String) : Plan → String
  | query _ fetch => Text.typename fetch.type name
  | mutation plan => Text.typename plan.typename name
  | ref fetch => Text.typename fetch.type name
  | leaf _ => Text.typename Option.none name
  | none => Text.typename Option.none name

/-- The typename under which a field reports what it finds. -/
def Field.typename (vars : Variables) (f : Field) : String :=
  match Plan.ofField vars f with
  | .ok plan => plan.typename f.name
  | .error _ => ""

/-- Changes the entries of an object, and adds the typename unless a field asks for it. -/
def annotateObject (typename : String) (selection : List Field) (change : String → Json → Json) :
    Json → Json
  | .object members => .object (members.map (fun entry => (entry.1, change entry.1 entry.2)) ++
      if selection.any (·.name == "__typename") then [] else [("__typename", .string typename)])
  | other => other

mutual

/-- The value of a field with the typenames added: to its object, or to each object of its array,
and to the objects below. The value of a field that selects nothing stays as it is. -/
def annotate (vars : Variables) : Field → Json → Json
  | .mk name label arguments directives selection, value =>
    if selection.isEmpty then value
    else
      let typename := Field.typename vars (.mk name label arguments directives selection)
      match value with
      | .array items => .array (items.map fun item =>
          annotateObject typename selection (fun key v => annotateEntry vars selection key v) item)
      | other =>
          annotateObject typename selection (fun key v => annotateEntry vars selection key v) other

/-- The value under a key with the typenames added; it is the value of the last field with the
key. -/
def annotateEntry (vars : Variables) : List Field → String → Json → Json
  | [], _, value => value
  | f :: rest, key, value =>
    if rest.any (·.responseKey == key) then annotateEntry vars rest key value
    else if f.responseKey = key then annotate vars f value
    else value

end

/-- A response with the typenames added below its root fields. -/
def annotateResponse (vars : Variables) (selection : List Field) : Json → Json
  | .object members =>
    .object (members.map fun entry => (entry.1, annotateEntry vars selection entry.1 entry.2))
  | other => other

/-! ### Entries -/

namespace Executor

variable {vars : Variables} {fields : List Field} {values : List Json}

theorem any_responseKey_iff {key : String} :
    fields.any (·.responseKey == key) = true ↔ key ∈ fields.map Field.responseKey := by
  rw [List.any_eq_true, List.mem_map]
  exact exists_congr fun f => and_congr_right fun _ => beq_iff_eq

/-- A field with the key has left an entry. -/
theorem exists_get?_reverse_entries {key : String} (hlength : values.length = fields.length)
    (h : key ∈ fields.map Field.responseKey) :
    ∃ value, Bindings.get? key (entries fields values).reverse = some value := by
  refine Option.ne_none_iff_exists'.1 fun hnone => Bindings.get?_eq_none_iff.1 hnone ?_
  rw [Bindings.keys, List.map_reverse, List.mem_reverse, entries,
    List.map_fst_zip (by simp [hlength])]
  exact h

/-- The last entry with a key is the one that is changed. -/
theorem get?_reverse_entries_annotate (key : String) (hlength : values.length = fields.length) :
    Bindings.get? key (entries fields (List.zipWith (annotate vars) fields values)).reverse =
      (Bindings.get? key (entries fields values).reverse).map (annotateEntry vars fields key) := by
  induction fields generalizing values with
  | nil => rfl
  | cons f rest ih =>
    cases values with
    | nil => cases hlength
    | cons value values =>
      have hrest : values.length = rest.length := Nat.succ.inj hlength
      change Bindings.get? key ((f.responseKey, annotate vars f value) ::
          entries rest (List.zipWith (annotate vars) rest values)).reverse =
        (Bindings.get? key ((f.responseKey, value) :: entries rest values).reverse).map
          (annotateEntry vars (f :: rest) key)
      rw [List.reverse_cons, List.reverse_cons, Bindings.get?_append, Bindings.get?_append,
        ih hrest]
      by_cases hlater : rest.any (·.responseKey == key) = true
      · -- a field behind has the key
        obtain ⟨last, hlast⟩ := exists_get?_reverse_entries hrest (any_responseKey_iff.1 hlater)
        simp [hlast, annotateEntry, hlater]
      · have hnone := get?_reverse_entries (mt any_responseKey_iff.2 hlater) values
        rw [hnone]
        by_cases hkey : f.responseKey = key
        · simp [Bindings.get?, annotateEntry, hlater, hkey]
        · simp [Bindings.get?, hkey]

/-- An object of changed values is the object of the values, with its entries changed. -/
theorem assemble_annotate (hlength : values.length = fields.length) :
    assemble fields (List.zipWith (annotate vars) fields values) =
      annotateResponse vars fields (assemble fields values) := by
  have hlength' : (List.zipWith (annotate vars) fields values).length = fields.length := by
    simp [hlength]
  refine congrArg Json.object (Bindings.eq_of_get? ?_ (Bindings.distinct_ofPairs _) fun key => ?_)
  · rw [Bindings.keys_map, Bindings.keys_ofPairs, Bindings.keys_ofPairs,
      List.map_fst_zip (by simp [hlength]), List.map_fst_zip (by simp [hlength])]
  · rw [Bindings.get?_map, Bindings.get?_ofPairs, Bindings.get?_ofPairs]
    exact get?_reverse_entries_annotate key hlength

theorem entries_map_withTypename (fields : List Field) (values : List Json) :
    entries (fields.map Field.withTypename) values = entries fields values := by
  have hkeys : (fields.map Field.withTypename).map Field.responseKey =
      fields.map Field.responseKey := by
    rw [List.map_map]
    exact List.map_congr_left fun f _ => f.responseKey_withTypename
  rw [entries, entries, hkeys]

/-- A field with a key of its own adds an entry at the end. -/
theorem assemble_concat {f : Field} (hlength : values.length = fields.length)
    (hfresh : f.responseKey ∉ fields.map Field.responseKey) (value : Json) :
    assemble (fields ++ [f]) (values ++ [value]) =
      .object (Bindings.ofPairs (entries fields values) ++ [(f.responseKey, value)]) := by
  have hkeys : f.responseKey ∉ Bindings.keys (Bindings.ofPairs (entries fields values)) := by
    rw [Bindings.keys_ofPairs, List.mem_eraseDups, entries, List.map_fst_zip (by simp [hlength])]
    exact hfresh
  change Json.object (Bindings.ofPairs (entries (fields ++ [f]) (values ++ [value]))) = _
  rw [entries_append hlength, Bindings.ofPairs, Bindings.insertAll, List.foldl_append]
  exact congrArg Json.object (Bindings.insert_of_not_mem hkeys value)

/-- The typename that is added to the values of a selection. -/
def typenameValue (typename : String) (fields : List Field) : List Json :=
  if fields.any (·.name == "__typename") then [] else [.string typename]

/-- The key of the typename is left to fields of that name. -/
def TypenameReserved (fields : List Field) : Prop :=
  ∀ f ∈ fields, f.responseKey = "__typename" → f.name = "__typename"

/-- The object of a completed selection is the annotated one: the typename comes last. -/
theorem assemble_completeSelection (hlength : values.length = fields.length)
    (hreserved : TypenameReserved fields) (typename : String) :
    assemble (Field.completeSelection (Field.withTypenames fields))
        (List.zipWith (annotate vars) fields values ++ typenameValue typename fields) =
      annotateObject typename fields (annotateEntry vars fields) (assemble fields values) := by
  have hannotate : Bindings.ofPairs (entries fields (List.zipWith (annotate vars) fields values)) =
      (Bindings.ofPairs (entries fields values)).map
        fun entry => (entry.1, annotateEntry vars fields entry.1 entry.2) :=
    Json.object.inj (assemble_annotate hlength)
  rw [Field.completeSelection_withTypenames]
  change _ = annotateObject typename fields (annotateEntry vars fields)
    (.object (Bindings.ofPairs (entries fields values)))
  rw [annotateObject, ← hannotate, typenameValue]
  cases hany : fields.any (·.name == "__typename") with
  | true =>
    rw [if_pos rfl, if_pos rfl, if_pos rfl, List.append_nil, List.append_nil, List.append_nil,
      ← entries_map_withTypename]
    rfl
  | false =>
    have hfresh : (Field.leaf "__typename").responseKey ∉
        (fields.map Field.withTypename).map Field.responseKey := by
      rw [List.map_map]
      intro hmem
      obtain ⟨f, hf, hkey⟩ := List.mem_map.1 hmem
      rw [Function.comp_apply, Field.responseKey_withTypename] at hkey
      have hnamed : fields.any (·.name == "__typename") = true :=
        List.any_eq_true.2 ⟨f, hf, beq_iff_eq.2 (hreserved f hf hkey)⟩
      rw [hany] at hnamed
      cases hnamed
    rw [if_neg (by decide), if_neg (by decide), if_neg (by decide),
      assemble_concat (by simp [hlength]) hfresh, entries_map_withTypename]
    rfl

/-! ### Planning -/

section Planning

variable {parent : Option Entity} {exports : Exports} {slots : List Slot}

theorem planFields_map_withTypename :
    planFields vars parent exports (fields.map Field.withTypename) =
      planFields vars parent exports fields := by
  refine planFields_congr (List.forall₂_map_left_iff.2 (List.forall₂_same.2 fun f _ => ?_))
  exact ⟨f.name_withTypename, f.directives_withTypename, f.isLeaf_withTypename⟩

/-- The field for the typename is a leaf, and exports nothing. -/
theorem planFields_concat_typename (entity : Entity) :
    planFields vars (some entity) exports (fields ++ [.leaf "__typename"]) =
      (· ++ [.value (.string entity.typename)]) <$>
        planFields vars (some entity) exports fields := by
  induction fields generalizing exports with
  | nil => rfl
  | cons f rest ih =>
    rw [List.cons_append, planFields, planFields]
    cases Plan.ofField vars f with
    | error e => rfl
    | ok plan =>
      simp only [Except.mapError, bind, Except.bind, ih]
      split <;> cases planFields vars (some entity) _ rest <;> rfl

theorem resolveFields_concat {f : Field} (hlength : slots.length = fields.length) (value : Json) :
    resolveFields vars parent (fields ++ [f]) (slots ++ [.value value]) =
      (· ++ [value]) <$> resolveFields vars parent fields slots := by
  rw [resolveFields_append hlength]
  simp [resolveFields, resolveField]

/-- Planning a completed selection adds a slot with the typename. -/
theorem planFields_completeSelection (entity : Entity) :
    planFields vars (some entity) exports
        (Field.completeSelection (Field.withTypenames fields)) =
      (· ++ (typenameValue entity.typename fields).map .value) <$>
        planFields vars (some entity) exports fields := by
  rw [Field.completeSelection_withTypenames, typenameValue]
  cases fields.any (·.name == "__typename") with
  | true =>
    rw [if_pos rfl, if_pos rfl, List.append_nil, planFields_map_withTypename]
    simp
  | false =>
    rw [if_neg (by decide), if_neg (by decide), planFields_concat_typename,
      planFields_map_withTypename]
    rfl

/-- And resolving it adds that value. -/
theorem resolveFields_completeSelection (hlength : slots.length = fields.length)
    (typename : String) :
    resolveFields vars parent (Field.completeSelection (Field.withTypenames fields))
        (slots ++ (typenameValue typename fields).map .value) =
      (· ++ typenameValue typename fields) <$>
        resolveFields vars parent (fields.map Field.withTypename) slots := by
  rw [Field.completeSelection_withTypenames, typenameValue]
  cases fields.any (·.name == "__typename") with
  | true =>
    rw [if_pos rfl, if_pos rfl, List.append_nil, List.map_nil, List.append_nil]
    simp
  | false =>
    rw [if_neg (by decide), if_neg (by decide)]
    exact resolveFields_concat (by simp [hlength]) _

theorem length_of_planFields (h : planFields vars parent exports fields = .ok slots) :
    slots.length = fields.length :=
  (fits_of_planFields h).length_eq.symm

end Planning

end Executor

/-! ### Typenames of what is found -/

/-- Every document of what a branch found, or the deleted one, is reported under this typename. -/
def Resolved.Reported (typename : String) : Resolved → Prop
  | .entity found => found.typename = typename
  | .entities documents => ∀ found ∈ documents, found.typename = typename
  | .deleted name _ => name = typename

namespace Executor

variable {vars : Variables} {parent : Option Entity} {exports : Exports} {f : Field}
  {fields : List Field} {slots : List Slot} {plan : Plan} {resolved : Resolved}

theorem Finds.reported {c c' : Client} (h : Finds vars parent f exports plan c resolved c') :
    resolved.Reported (plan.typename f.name) := by
  have hmap : ∀ (typename : String) (snapshots : List Snapshot),
      (Resolved.entities (snapshots.map (⟨typename, ·⟩))).Reported typename := by
    intro typename snapshots entity hentity
    obtain ⟨snapshot, -, rfl⟩ := List.mem_map.1 hentity
    rfl
  cases h with
  | document => rfl
  | collection => exact hmap _ _
  | followed hplan =>
    cases plan with
    | query | mutation => cases hplan
    | ref | leaf | none =>
      obtain rfl := Option.some.inj hplan
      exact hmap _ _
  | written => rfl
  | deleted => rfl

/-- A field reports what it finds under its typename. -/
theorem reported_of_resolveBranch (hplan : Plan.ofField vars f = .ok plan)
    {state state' : PassState}
    (h : (resolveBranch vars parent f exports plan).run state = (.ok resolved, state')) :
    resolved.Reported (f.typename vars) := by
  rw [Field.typename, hplan]
  exact (finds_of_resolveBranch h).reported

/-! ### With and without typenames -/

/-- Below a field, whatever it found, the completed selection comes to the annotated value. -/
def AnnotatesBelow (vars : Variables) (f : Field) : Prop :=
  ∀ {exports : Exports} {resolved : Resolved}, f.isLeaf = false →
    resolved.Reported (f.typename vars) →
    Pass.Alike (fun value value' => value = annotate vars f value')
      (complete vars exports f.withTypename.selection resolved)
      (complete vars exports f.selection resolved)

theorem annotate_of_isLeaf (h : f.isLeaf = true) (value : Json) :
    annotate vars f value = value := by
  obtain ⟨name, label, arguments, directives, selection⟩ := f
  rw [annotate]
  exact if_pos h

/-- What a branch is resolved to does not depend on what is selected below it. -/
theorem resolveBranch_withTypename :
    resolveBranch vars parent f.withTypename exports plan =
      resolveBranch vars parent f exports plan := by
  obtain ⟨name, label, arguments, directives, selection⟩ := f
  exact resolveBranch_selection _ _

theorem alike_resolveField (hbelow : AnnotatesBelow vars f)
    (hplan : Plan.ofField vars f = .ok plan) :
    Pass.Alike (fun value value' => value = annotate vars f value')
      (resolveField vars parent f.withTypename (.branch plan exports))
      (resolveField vars parent f (.branch plan exports)) := by
  rw [resolveField_branch, resolveField_branch, resolveBranch_withTypename,
    Field.isLeaf_withTypename]
  refine (Pass.alike_self fun _ _ _ => reported_of_resolveBranch hplan).bind ?_
  rintro resolved _ ⟨rfl, hreported⟩
  cases hleaf : f.isLeaf with
  | true =>
    rw [if_pos rfl, if_pos rfl]
    exact .pure (annotate_of_isLeaf hleaf _).symm
  | false =>
    rw [if_neg (by decide), if_neg (by decide)]
    exact hbelow hleaf hreported

/-- Planned fields come to the annotated values, one for each. -/
theorem alike_resolveFields (hbelow : ∀ f ∈ fields, AnnotatesBelow vars f)
    (hslots : planFields vars parent exports fields = .ok slots) :
    Pass.Alike (fun values values' => values'.length = fields.length ∧
        values = List.zipWith (annotate vars) fields values')
      (resolveFields vars parent (fields.map Field.withTypename) slots)
      (resolveFields vars parent fields slots) := by
  induction fields generalizing exports slots with
  | nil =>
    obtain rfl : [] = slots := Except.ok.inj hslots
    simp only [List.map_nil, resolveFields]
    exact .pure ⟨rfl, rfl⟩
  | cons f rest ih =>
    have hvalue : ∀ slot : Slot,
        Pass.Alike (fun value value' => value = annotate vars f value')
          (resolveField vars parent f.withTypename slot) (resolveField vars parent f slot) →
        ∀ {slots exports}, planFields vars parent exports rest = .ok slots →
        Pass.Alike (fun values values' => values'.length = (f :: rest).length ∧
            values = List.zipWith (annotate vars) (f :: rest) values')
          (resolveFields vars parent ((f :: rest).map Field.withTypename) (slot :: slots))
          (resolveFields vars parent (f :: rest) (slot :: slots)) := by
      intro slot hslot slots exports hrest
      rw [List.map_cons, resolveFields, resolveFields]
      refine hslot.bind fun value value' hvalue => ?_
      refine (ih (fun g hg => hbelow g (List.mem_cons_of_mem _ hg)) hrest).bind ?_
      rintro values values' ⟨hlength, rfl⟩
      exact .pure ⟨congrArg (· + 1) hlength, by rw [hvalue, List.zipWith_cons_cons]⟩
    obtain ⟨plan, hplan,
        ⟨hbranch, slots', rfl, hrest⟩ | ⟨hleaf, entity, slots', rfl, rfl, hrest⟩⟩ :=
      exists_of_planFields_cons hslots
    · exact hvalue _ (alike_resolveField (hbelow f List.mem_cons_self) hplan) hrest
    · refine hvalue _ ?_ hrest
      obtain ⟨hselects, -⟩ := Bool.or_eq_false_iff.1 hleaf
      rw [resolveField, resolveField]
      exact .pure (annotate_of_isLeaf (by simpa using hselects) _).symm

/-- A completed selection below a document comes to the annotated object. -/
theorem alike_resolveSelection (hbelow : ∀ f ∈ fields, AnnotatesBelow vars f)
    (hreserved : TypenameReserved fields) (entity : Entity) :
    Pass.Alike (fun object object' => (∃ members, object' = .object members) ∧
        object = annotateObject entity.typename fields (annotateEntry vars fields) object')
      (resolveSelection vars (some entity) exports
        (Field.completeSelection (Field.withTypenames fields)))
      (resolveSelection vars (some entity) exports fields) := by
  rw [resolveSelection, resolveSelection, planFields_completeSelection]
  cases hslots : planFields vars (some entity) exports fields with
  | error e => exact fun state => .inl ⟨e, state, rfl, rfl⟩
  | ok slots =>
    change Pass.Alike _ (resolveFields vars (some entity)
      (Field.completeSelection (Field.withTypenames fields))
      (slots ++ (typenameValue entity.typename fields).map .value) >>= fun values => _) _
    rw [resolveFields_completeSelection (length_of_planFields hslots), bind_map_left]
    refine (alike_resolveFields hbelow hslots).bind ?_
    rintro values values' ⟨hlength, rfl⟩
    exact .pure ⟨⟨_, rfl⟩, assemble_completeSelection hlength hreserved entity.typename⟩

/-- What can be read of a deleted document has no objects to annotate. -/
theorem annotate_deletedValue (typename id : String) :
    annotate vars f (deletedValue typename id f) = deletedValue typename id f := by
  have hstring : ∀ text : String, annotate vars f (.string text) = .string text := fun text => by
    obtain ⟨name, label, arguments, directives, selection⟩ := f
    rw [annotate]
    split <;> rfl
  have hnull : annotate vars f .null = .null := by
    obtain ⟨name, label, arguments, directives, selection⟩ := f
    rw [annotate]
    split <;> rfl
  rw [deletedValue]
  split
  · exact hstring typename
  · split
    · exact hstring id
    · exact hnull

theorem deletedValue_withTypename (typename id : String) :
    deletedValue typename id f.withTypename = deletedValue typename id f := by
  rw [deletedValue, deletedValue, Field.name_withTypename]

/-- After a deletion the completed selection gives the annotated object. -/
theorem assemble_deleted (hreserved : TypenameReserved fields) (typename id : String) :
    assemble (Field.completeSelection (Field.withTypenames fields))
        ((Field.completeSelection (Field.withTypenames fields)).map (deletedValue typename id)) =
      annotateObject typename fields (annotateEntry vars fields)
        (assemble fields (fields.map (deletedValue typename id))) := by
  rw [← assemble_completeSelection (List.length_map _) hreserved typename]
  refine congrArg _ ?_
  have hvalues : List.zipWith (annotate vars) fields (fields.map (deletedValue typename id)) =
      fields.map (deletedValue typename id) := by
    rw [List.zipWith_map_right, List.zipWith_self]
    exact List.map_congr_left fun f _ => annotate_deletedValue typename id
  have hadded : (if fields.any (·.name == "__typename") then [] else
        [Field.leaf "__typename"]).map (deletedValue typename id) =
      typenameValue typename fields := by
    rw [typenameValue]
    split <;> rfl
  rw [Field.completeSelection_withTypenames, List.map_append, List.map_map, hadded, hvalues]
  exact congrArg (· ++ _) (List.map_congr_left fun f _ => deletedValue_withTypename typename id)

theorem TypenameReserved.of_mem (h : TypenameReserved (Field.walkAll fields)) (hf : f ∈ fields) :
    TypenameReserved (Field.walk f) := fun g hg =>
  h g (by
    rw [Field.walkAll_eq_flatMap]
    exact List.mem_flatMap.2 ⟨f, hf, hg⟩)

theorem annotate_object (h : f.isLeaf = false) (members : Members) :
    annotate vars f (.object members) =
      annotateObject (f.typename vars) f.selection (annotateEntry vars f.selection)
        (.object members) := by
  obtain ⟨name, label, arguments, directives, selection⟩ := f
  rw [annotate]
  exact if_neg (Bool.eq_false_iff.1 h)

theorem annotate_array (h : f.isLeaf = false) (items : List Json) :
    annotate vars f (.array items) = .array (items.map
      (annotateObject (f.typename vars) f.selection (annotateEntry vars f.selection))) := by
  obtain ⟨name, label, arguments, directives, selection⟩ := f
  rw [annotate]
  exact if_neg (Bool.eq_false_iff.1 h)

/-- Every selection comes to annotated values: by induction on the selections. -/
theorem annotatesBelow (vars : Variables) (f : Field) (h : TypenameReserved (Field.walk f)) :
    AnnotatesBelow vars f := by
  induction f using Field.selection_induction with
  | h f ih =>
    rw [Field.walk_eq_cons] at h
    have hwalk : TypenameReserved (Field.walkAll f.selection) := fun g hg =>
      h g (List.mem_cons_of_mem _ hg)
    have hreserved : TypenameReserved f.selection := fun g hg => hwalk.of_mem hg g (by
      rw [Field.walk_eq_cons]
      exact List.mem_cons_self)
    have hbelow : ∀ g ∈ f.selection, AnnotatesBelow vars g := fun g hg => ih g hg (hwalk.of_mem hg)
    intro exports resolved hselects hreported
    rw [Field.selection_withTypename hselects]
    cases resolved with
    | entity entity =>
      have htypename : entity.typename = f.typename vars := hreported
      refine (alike_resolveSelection hbelow hreserved entity).mono ?_
      rintro object _ ⟨⟨members, rfl⟩, rfl⟩
      rw [annotate_object hselects, htypename]
    | entities entities =>
      have hitems : ∀ entity ∈ entities, Pass.Alike
          (fun object object' => object =
            annotateObject (f.typename vars) f.selection (annotateEntry vars f.selection) object')
          (resolveSelection vars (some entity) exports
            (Field.completeSelection (Field.withTypenames f.selection)))
          (resolveSelection vars (some entity) exports f.selection) := fun entity hentity =>
        (alike_resolveSelection hbelow hreserved entity).mono fun object object' hobject => by
          rw [hobject.2, hreported entity hentity]
      refine (Pass.Alike.mapM hitems).bind fun items items' h => .pure ?_
      rw [annotate_array hselects]
      refine congrArg Json.array ?_
      rwa [← List.forall₂_eq_eq_eq, List.forall₂_map_right_iff]
    | deleted typename id =>
      obtain rfl : typename = f.typename vars := hreported
      refine .pure ?_
      rw [assemble_deleted hreserved]
      exact (annotate_object hselects _).symm

/-- Adding typenames is transparent. If no field but one of that name uses the key `__typename`, an
operation executed with typenames added makes the same calls as without, records the same targets,
ends in the same client and fails with the same error; and if it succeeds, its response is the one
without, with the typename as last entry of each object below the root whose selection does not ask
for it. The typename is the one under which all that the field finds is reported. -/
theorem execute_addTypename (config : Config) {o : Operation}
    (hreserved : ∀ f ∈ o.walk, f.responseKey = "__typename" → f.name = "__typename") (c : Client) :
    execute { config with addTypename := true } o c =
        { execute { config with addTypename := false } o c with
          response := (execute { config with addTypename := false } o c).response.map
            (annotateResponse o.vars o.selection) } ∧
      ∀ {parent : Option Entity} {f : Field} {exports : Exports} {plan : Plan} {resolved : Resolved}
        {state state' : PassState}, Plan.ofField o.vars f = .ok plan →
        (resolveBranch o.vars parent f exports plan).run state = (.ok resolved, state') →
        resolved.Reported (f.typename o.vars) := by
  refine ⟨?_, fun hplan h => reported_of_resolveBranch hplan h⟩
  have hwalk : TypenameReserved (Field.walkAll o.selection) := hreserved
  have hbelow : ∀ f ∈ o.selection, AnnotatesBelow o.vars f := fun f hf =>
    annotatesBelow o.vars f (hwalk.of_mem hf)
  have halike : Pass.Alike (fun response response' =>
        response = annotateResponse o.vars o.selection response')
      (resolveSelection o.vars none [] (o.selection.map Field.withTypename))
      (resolveSelection o.vars none [] o.selection) := by
    rw [resolveSelection, resolveSelection, planFields_map_withTypename]
    cases hslots : planFields o.vars none [] o.selection with
    | error e => exact fun state => .inl ⟨e, state, rfl, rfl⟩
    | ok slots =>
      refine (alike_resolveFields hbelow hslots).bind ?_
      rintro values values' ⟨hlength, rfl⟩
      refine .pure ?_
      rw [← assemble_annotate hlength]
      exact congrArg (fun pairs => Json.object (Bindings.ofPairs pairs))
        (entries_map_withTypename o.selection _)
  have hprepare : prepare { config with addTypename := true } o =
      { o with selection := o.selection.map Field.withTypename } := by
    rw [prepare, if_pos rfl, Operation.withTypenames, Field.withTypenames_eq_map]
  have hprepare' : prepare { config with addTypename := false } o = o := if_neg Bool.false_ne_true
  refine execute_of_alike ?_ c
  rw [pass, pass, hprepare, hprepare']
  exact halike

theorem execute_addTypename_userNames :
    (∀ f ∈ userNames.walk, f.responseKey = "__typename" → f.name = "__typename") ∧
      (execute { addTypename := false } userNames userClient).response = .ok (.object
        [("users", .array [.object [("id", .string "u1"), ("name", .string "Ada")]])]) ∧
      (execute { addTypename := true } userNames userClient).response = .ok (.object
        [("users", .array [.object [("id", .string "u1"), ("name", .string "Ada"),
          ("__typename", .string "User")]])]) ∧
      execute { addTypename := true } userNames userClient =
        { execute { addTypename := false } userNames userClient with
          response := (execute { addTypename := false } userNames userClient).response.map
            (annotateResponse userNames.vars userNames.selection) } :=
  ⟨by decide +kernel, Json.eq_ok_of_compact (by decide +kernel),
    Json.eq_ok_of_compact (by decide +kernel),
    (execute_addTypename {} (by decide +kernel) userClient).1⟩

end Executor

end LiveDocs
