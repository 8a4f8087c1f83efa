import LiveDocs.Proofs.Pass.Alike
import LiveDocs.Proofs.Pass.Shape

/-!
# Aliases

A label says under which key a response reports a field, and nothing else: plans, paths, typenames,
exports and the texts of errors go by the names of fields. So operations that are the same up to
their labels do the same to a store. If no two fields of a selection have the same key, before and
after, their responses are the same tree, and `relabelEntries` takes one to the other: it walks
through both selections and the entries of an object together, and gives each entry the key of the
field at its place. Main statement: `execute_relabelled`.
-/

namespace LiveDocs

/-! ### Fields up to their labels -/

namespace Field

mutual

/-- A field without its label, and without those of the fields below it. -/
def unlabelled : Field → Field
  | mk name _ arguments directives selection =>
    mk name none arguments directives (unlabelledAll selection)

/-- Fields without labels. -/
def unlabelledAll : List Field → List Field
  | [] => []
  | f :: rest => unlabelled f :: unlabelledAll rest

end

theorem unlabelledAll_eq_map (fields : List Field) :
    unlabelledAll fields = fields.map unlabelled := by
  induction fields with
  | nil => rfl
  | cons f rest ih => rw [unlabelledAll, ih, List.map_cons]

/-- Two fields are the same up to labels. -/
def Relabelled (f f' : Field) : Prop := f'.unlabelled = f.unlabelled

theorem forall₂_relabelled_iff {fields fields' : List Field} :
    List.Forall₂ Relabelled fields fields' ↔ unlabelledAll fields' = unlabelledAll fields := by
  rw [unlabelledAll_eq_map, unlabelledAll_eq_map, ← List.forall₂_eq_eq_eq,
    List.forall₂_map_left_iff, List.forall₂_map_right_iff]
  exact ⟨List.Forall₂.flip, List.Forall₂.flip⟩

theorem relabelled_mk_iff {name name' : String} {label label' : Option String}
    {arguments arguments' : Bindings Argument} {directives directives' : List Directive}
    {selection selection' : List Field} :
    Relabelled (mk name label arguments directives selection)
        (mk name' label' arguments' directives' selection') ↔
      name' = name ∧ arguments' = arguments ∧ directives' = directives ∧
        List.Forall₂ Relabelled selection selection' := by
  rw [Relabelled, unlabelled, unlabelled, forall₂_relabelled_iff]
  simp

variable {f f' : Field}

theorem Relabelled.name_eq (h : Relabelled f f') : f'.name = f.name := by
  cases f
  cases f'
  exact (relabelled_mk_iff.1 h).1

theorem Relabelled.directives_eq (h : Relabelled f f') : f'.directives = f.directives := by
  cases f
  cases f'
  exact (relabelled_mk_iff.1 h).2.2.1

theorem Relabelled.selection (h : Relabelled f f') :
    List.Forall₂ Relabelled f.selection f'.selection := by
  cases f
  cases f'
  exact (relabelled_mk_iff.1 h).2.2.2

theorem Relabelled.isLeaf_eq (h : Relabelled f f') : f'.isLeaf = f.isLeaf := by
  obtain ⟨name, label, arguments, directives, selection⟩ := f
  obtain ⟨name', label', arguments', directives', selection'⟩ := f'
  obtain ⟨-, -, -, hselection⟩ := relabelled_mk_iff.1 h
  cases hselection <;> rfl

theorem name_unlabelled (f : Field) : f.unlabelled.name = f.name := by
  cases f
  rfl

/-- Typenames are added where they are missing, whatever the labels are. -/
theorem unlabelled_withTypename (f : Field) :
    f.withTypename.unlabelled = f.unlabelled.withTypename := by
  induction f using selection_induction with
  | h f ih =>
    obtain ⟨name, label, arguments, directives, selection⟩ := f
    have hbelow : (selection.map withTypename).map unlabelled =
        (selection.map unlabelled).map withTypename := by
      rw [List.map_map, List.map_map]
      exact List.map_congr_left fun g hg => ih g hg
    have hany : (selection.map unlabelled).any (·.name == "__typename") =
        selection.any (·.name == "__typename") := by
      rw [List.any_map]
      exact congrArg (selection.any ·) (funext fun g => by
        rw [Function.comp_apply, name_unlabelled])
    simp only [withTypename, unlabelled, completeSelection_withTypenames, unlabelledAll_eq_map,
      hany, List.isEmpty_map, mk.injEq, true_and]
    split
    · rfl
    · rw [List.map_append, hbelow]
      split <;> rfl

theorem Relabelled.withTypename (h : Relabelled f f') :
    Relabelled f.withTypename f'.withTypename := by
  rw [Relabelled, unlabelled_withTypename, unlabelled_withTypename, h]

/-- Within each selection, no two fields have the same response key. -/
def DistinctKeys (fields : List Field) : Prop :=
  (fields.map responseKey).Nodup ∧ ∀ f ∈ walkAll fields, (f.selection.map responseKey).Nodup

instance (fields : List Field) : Decidable (DistinctKeys fields) :=
  inferInstanceAs (Decidable (_ ∧ _))

theorem DistinctKeys.of_mem {fields : List Field} (h : DistinctKeys fields) (hf : f ∈ fields) :
    DistinctKeys f.selection := by
  have hwalk : ∀ g ∈ walk f, (g.selection.map responseKey).Nodup := fun g hg => h.2 g (by
    rw [walkAll_eq_flatMap]
    exact List.mem_flatMap.2 ⟨f, hf, hg⟩)
  cases f
  rw [walk] at hwalk
  exact List.forall_mem_cons.1 hwalk

end Field

/-! ### Responses under other keys -/

/-- Changes the members of an object, or those of each object of an array. -/
def Json.mapObjects (change : Members → Members) : Json → Json
  | .object members => .object (change members)
  | .array items => .array (items.map fun item =>
      match item with
      | .object members => .object (change members)
      | other => other)
  | other => other

mutual

/-- The value of a field, reported by another field of the same form. -/
def relabel : Field → Field → Json → Json
  | .mk _ _ _ _ selection, f', value =>
    value.mapObjects fun members => relabelEntries selection f'.selection members

/-- The entries that fields leave in an object, under the keys of other fields: position by
position. -/
def relabelEntries : List Field → List Field → Members → Members
  | f :: rest, f' :: rest', (_, value) :: members =>
    (f'.responseKey, relabel f f' value) :: relabelEntries rest rest' members
  | _, _, members => members

end

theorem relabel_eq (f f' : Field) (value : Json) :
    relabel f f' value = value.mapObjects (relabelEntries f.selection f'.selection) := by
  cases f
  rw [relabel]
  rfl

theorem Json.mapObjects_id (value : Json) : value.mapObjects (fun members => members) = value := by
  cases value with
  | array items =>
    refine congrArg Json.array ((List.map_congr_left fun item _ => ?_).trans (List.map_id items))
    cases item <;> rfl
  | null | bool | number | string | object => rfl

/-- What a field that selects nothing holds is data, and has no keys of fields. -/
theorem relabel_of_isLeaf {f : Field} (h : f.isLeaf = true) (f' : Field) (value : Json) :
    relabel f f' value = value := by
  obtain ⟨name, label, arguments, directives, selection⟩ := f
  obtain rfl : selection = [] := List.isEmpty_iff.1 h
  rw [relabel_eq]
  exact value.mapObjects_id

namespace Executor

variable {vars : Variables} {parent : Option Entity} {f f' : Field} {exports : Exports}
  {plan : Plan} {fields fields' : List Field} {values : List Json} {slots : List Slot}

/-! ### Objects -/

/-- The values of fields, reported by other fields. -/
def relabelValues : List Field → List Field → List Json → List Json
  | f :: rest, f' :: rest', value :: values =>
    relabel f f' value :: relabelValues rest rest' values
  | _, _, _ => []

theorem length_relabelValues (h : List.Forall₂ Field.Relabelled fields fields')
    (hlength : values.length = fields.length) :
    (relabelValues fields fields' values).length = fields'.length := by
  induction h generalizing values with
  | nil => rfl
  | cons _ _ ih =>
    obtain ⟨value, values, rfl⟩ := List.exists_cons_of_length_eq_add_one hlength
    exact congrArg (· + 1) (ih (Nat.succ.inj hlength))

theorem entries_relabelValues (h : List.Forall₂ Field.Relabelled fields fields')
    (hlength : values.length = fields.length) :
    entries fields' (relabelValues fields fields' values) =
      relabelEntries fields fields' (entries fields values) := by
  induction h generalizing values with
  | nil => rfl
  | cons _ _ ih =>
    obtain ⟨value, values, rfl⟩ := List.exists_cons_of_length_eq_add_one hlength
    exact congrArg (_ :: ·) (ih (Nat.succ.inj hlength))

/-- Fields with distinct keys leave one entry each, in order. -/
theorem assemble_of_nodup (hkeys : (fields.map Field.responseKey).Nodup)
    (hlength : values.length = fields.length) :
    assemble fields values = .object (entries fields values) := by
  refine congrArg Json.object (Bindings.ofPairs_of_distinct ?_)
  rw [Bindings.Distinct, Bindings.keys, List.map_fst_zip (by simp [hlength])]
  exact hkeys

theorem assemble_relabelValues (h : List.Forall₂ Field.Relabelled fields fields')
    (hkeys : (fields.map Field.responseKey).Nodup) (hkeys' : (fields'.map Field.responseKey).Nodup)
    (hlength : values.length = fields.length) :
    assemble fields' (relabelValues fields fields' values) =
      (assemble fields values).mapObjects (relabelEntries fields fields') := by
  rw [assemble_of_nodup hkeys hlength, assemble_of_nodup hkeys' (length_relabelValues h hlength),
    entries_relabelValues h hlength]
  rfl

/-! ### Passes -/

theorem plansLike_of_relabelled (h : f.Relabelled f') : PlansLike f' f :=
  ⟨h.name_eq, h.directives_eq, h.isLeaf_eq⟩

/-- What a branch is resolved to depends on the name and the arguments of the field. -/
theorem resolveBranch_relabelled (h : f.Relabelled f') :
    resolveBranch vars parent f' exports plan = resolveBranch vars parent f exports plan := by
  obtain ⟨name, label, arguments, directives, selection⟩ := f
  obtain ⟨name', label', arguments', directives', selection'⟩ := f'
  obtain ⟨rfl, rfl, -, -⟩ := Field.relabelled_mk_iff.1 h
  cases plan <;> rfl

/-- Below two fields, whatever they found, their selections come to the same value under other
keys. -/
def RelabelsBelow (vars : Variables) (f f' : Field) : Prop :=
  ∀ {exports : Exports} {resolved : Resolved},
    Pass.Alike (fun value value' => value' = relabel f f' value)
      (complete vars exports f.selection resolved) (complete vars exports f'.selection resolved)

theorem relabels_resolveField (h : f.Relabelled f') (hbelow : RelabelsBelow vars f f') (slot : Slot)
    (hleaf : ∀ value, slot = .value value → f.isLeaf = true) :
    Pass.Alike (fun value value' => value' = relabel f f' value)
      (resolveField vars parent f slot) (resolveField vars parent f' slot) := by
  cases slot with
  | value value =>
    rw [resolveField, resolveField]
    exact .pure (relabel_of_isLeaf (hleaf value rfl) f' value).symm
  | branch plan exports =>
    rw [resolveField_branch, resolveField_branch, resolveBranch_relabelled h, h.isLeaf_eq]
    refine (Pass.alike_self (P := fun _ => True) fun _ _ _ _ => trivial).bind ?_
    rintro resolved _ ⟨rfl, -⟩
    cases hselects : f.isLeaf with
    | true => exact .pure (relabel_of_isLeaf hselects f' _).symm
    | false => exact hbelow

/-- Planned fields come to the same values under other keys. -/
theorem relabels_resolveFields (h : List.Forall₂ Field.Relabelled fields fields')
    (hbelow : List.Forall₂ (RelabelsBelow vars) fields fields')
    (hslots : planFields vars parent exports fields = .ok slots) :
    Pass.Alike (fun values values' => values.length = fields.length ∧
        values' = relabelValues fields fields' values)
      (resolveFields vars parent fields slots) (resolveFields vars parent fields' slots) := by
  induction h generalizing exports slots with
  | nil =>
    obtain rfl : [] = slots := Except.ok.inj hslots
    simp only [resolveFields]
    exact .pure ⟨rfl, rfl⟩
  | @cons f f' rest rest' hf _ ih =>
    obtain ⟨hbelowHead, hbelowRest⟩ := List.forall₂_cons.1 hbelow
    -- a field that was read off the parent selects nothing
    obtain ⟨slot, slots', exports', rfl, hleaf, hrest⟩ : ∃ slot slots' exports',
        slots = slot :: slots' ∧ (∀ value, slot = .value value → f.isLeaf = true) ∧
          planFields vars parent exports' rest = .ok slots' := by
      obtain ⟨plan, -, ⟨-, slots', rfl, hrest⟩ | ⟨hleaf, entity, slots', -, rfl, hrest⟩⟩ :=
        exists_of_planFields_cons hslots
      · exact ⟨_, slots', exports, rfl, fun value hvalue => (by cases hvalue), hrest⟩
      · obtain ⟨hselects, -⟩ := Bool.or_eq_false_iff.1 hleaf
        exact ⟨_, slots', _, rfl, fun _ _ => by simpa using hselects, hrest⟩
    rw [resolveFields, resolveFields]
    refine (relabels_resolveField hf hbelowHead slot hleaf).bind fun value value' hvalue => ?_
    refine (ih hbelowRest hrest).bind ?_
    rintro values values' ⟨hlength, rfl⟩
    exact .pure ⟨congrArg (· + 1) hlength, by rw [hvalue, relabelValues]⟩

/-- A selection comes to the same object under other keys. -/
theorem relabels_resolveSelection (h : List.Forall₂ Field.Relabelled fields fields')
    (hbelow : List.Forall₂ (RelabelsBelow vars) fields fields')
    (hkeys : (fields.map Field.responseKey).Nodup)
    (hkeys' : (fields'.map Field.responseKey).Nodup) :
    Pass.Alike (fun object object' => (∃ members, object = .object members) ∧
        object' = object.mapObjects (relabelEntries fields fields'))
      (resolveSelection vars parent exports fields)
      (resolveSelection vars parent exports fields') := by
  have hplans : List.Forall₂ PlansLike fields' fields :=
    (h.imp fun _ _ => plansLike_of_relabelled).flip
  rw [resolveSelection, resolveSelection, planFields_congr hplans]
  cases hslots : planFields vars parent exports fields with
  | error e => exact fun state => .inl ⟨e, state, rfl, rfl⟩
  | ok slots =>
    refine (relabels_resolveFields h hbelow hslots).bind ?_
    rintro values values' ⟨hlength, rfl⟩
    exact .pure ⟨⟨_, rfl⟩, assemble_relabelValues h hkeys hkeys' hlength⟩

/-- After a deletion the fields hold the same, whatever their keys are. -/
theorem map_deletedValue_relabelled (h : List.Forall₂ Field.Relabelled fields fields')
    (typename id : String) :
    fields'.map (deletedValue typename id) =
      relabelValues fields fields' (fields.map (deletedValue typename id)) := by
  induction h with
  | nil => rfl
  | @cons f f' rest rest' hf _ ih =>
    have hvalue : relabel f f' (deletedValue typename id f) = deletedValue typename id f' := by
      rw [relabel_eq, deletedValue, deletedValue, hf.name_eq]
      split
      · rfl
      · split <;> rfl
    rw [List.map_cons, List.map_cons, relabelValues, hvalue, ih]

theorem forall₂_relabelsBelow (h : List.Forall₂ Field.Relabelled fields fields')
    (hkeys : Field.DistinctKeys fields) (hkeys' : Field.DistinctKeys fields')
    (hbelow : ∀ f ∈ fields, ∀ f', f.Relabelled f' → Field.DistinctKeys f.selection →
      Field.DistinctKeys f'.selection → RelabelsBelow vars f f') :
    List.Forall₂ (RelabelsBelow vars) fields fields' := by
  refine List.forall₂_iff_zip.2 ⟨h.length_eq, fun hpair => ?_⟩
  obtain ⟨hf, hf'⟩ := List.of_mem_zip hpair
  exact hbelow _ hf _ (List.forall₂_zip h hpair) (hkeys.of_mem hf) (hkeys'.of_mem hf')

/-- Every selection comes to the same under other keys: by induction on the selections. -/
theorem relabelsBelow (vars : Variables) {f f' : Field} (h : f.Relabelled f')
    (hkeys : Field.DistinctKeys f.selection) (hkeys' : Field.DistinctKeys f'.selection) :
    RelabelsBelow vars f f' := by
  induction f using Field.selection_induction generalizing f' with
  | h f ih =>
    have hselection : List.Forall₂ Field.Relabelled f.selection f'.selection := h.selection
    have hbelow : List.Forall₂ (RelabelsBelow vars) f.selection f'.selection :=
      forall₂_relabelsBelow hselection hkeys hkeys' fun g hg _ h => ih g hg h
    intro exports resolved
    cases resolved with
    | entity entity =>
      refine (relabels_resolveSelection hselection hbelow hkeys.1 hkeys'.1).mono ?_
      rintro object _ ⟨-, rfl⟩
      exact (relabel_eq f f' object).symm
    | entities entities =>
      have hitems : ∀ entity ∈ entities, Pass.Alike
          (fun object object' => (∃ members, object = .object members) ∧
            object' = object.mapObjects (relabelEntries f.selection f'.selection))
          (resolveSelection vars (some entity) exports f.selection)
          (resolveSelection vars (some entity) exports f'.selection) := fun entity _ =>
        relabels_resolveSelection hselection hbelow hkeys.1 hkeys'.1
      refine (Pass.Alike.mapM hitems).bind fun items items' hitems => .pure ?_
      rw [relabel_eq]
      refine congrArg Json.array ?_
      rw [eq_comm, ← List.forall₂_eq_eq_eq, List.forall₂_map_left_iff]
      refine hitems.imp ?_
      rintro _ _ ⟨⟨members, rfl⟩, rfl⟩
      rfl
    | deleted typename id =>
      refine .pure ?_
      rw [map_deletedValue_relabelled hselection, relabel_eq]
      exact assemble_relabelValues hselection hkeys.1 hkeys'.1 (List.length_map _)

/-! ### Operations -/

theorem relabelled_prepareField (config : Config) (h : f.Relabelled f') :
    (prepareField config f).Relabelled (prepareField config f') := by
  rw [prepareField, prepareField]
  split
  · exact h.withTypename
  · exact h

/-- Aliases are presentational. If two operations are the same up to the labels of their fields, and
in none of the selections that are executed two fields have the same key, then they make the same
calls, record the same targets, end in the same client and fail with the same error; and if they
succeed, one response is the other one with the entries of each object under the keys of the fields
at their places. Leaves are read alike and export alike: fields that are the same up to labels have
the same values, are branches with the same exports, and leave the same exports behind. -/
theorem execute_relabelled (config : Config) (o : Operation) (selection : List Field)
    (hsame : Field.unlabelledAll selection = Field.unlabelledAll o.selection)
    (hkeys : Field.DistinctKeys (prepare config o).selection)
    (hkeys' : Field.DistinctKeys (prepare config { o with selection }).selection) (c : Client) :
    execute config { o with selection } c =
        { execute config o c with
          response := (execute config o c).response.map (Json.mapObjects
            (relabelEntries (prepare config o).selection
              (prepare config { o with selection }).selection)) } ∧
      (∀ {parent : Option Entity} {exports : Exports} {fields fields' : List Field},
        Field.unlabelledAll fields' = Field.unlabelledAll fields →
        planFields o.vars parent exports fields' = planFields o.vars parent exports fields) ∧
      ∀ {f f' : Field} {plan : Plan} {entity : Entity} {exports : Exports},
        f'.unlabelled = f.unlabelled →
        exportsAfter f' plan entity exports = exportsAfter f plan entity exports := by
  refine ⟨?_, fun h => ?_, fun {f f' plan entity exports} h => ?_⟩
  · have hprepared : List.Forall₂ Field.Relabelled (prepare config o).selection
        (prepare config { o with selection }).selection := by
      rw [selection_prepare, selection_prepare, List.forall₂_map_left_iff,
        List.forall₂_map_right_iff]
      exact (Field.forall₂_relabelled_iff.2 hsame).imp fun _ _ => relabelled_prepareField config
    have hbelow : List.Forall₂ (RelabelsBelow o.vars) (prepare config o).selection
        (prepare config { o with selection }).selection :=
      forall₂_relabelsBelow hprepared hkeys hkeys' fun _ _ _ h => relabelsBelow o.vars h
    refine execute_of_alike (Pass.Alike.symm ?_) c
    rw [pass, pass, vars_prepare, vars_prepare]
    exact (relabels_resolveSelection hprepared hbelow hkeys.1 hkeys'.1).mono fun _ _ h => h.2
  · have hfields := (Field.forall₂_relabelled_iff.2 h).imp fun _ _ => plansLike_of_relabelled
    exact planFields_congr hfields.flip
  · have hlike : PlansLike f' f := plansLike_of_relabelled h
    rw [exportsAfter, exportsAfter, leafRead, leafRead, hlike.leafValue, hlike.exportLeaf]

/-- The query for the names of all users, with the keys of the two leaves exchanged. -/
def relabelledUserNames : List Field :=
  [.mk "users" (some "people") [] [usersQuery]
    [.mk "id" (some "name") [] [] [], .mk "name" (some "id") [] [] []]]

theorem execute_relabelledUserNames :
    Field.DistinctKeys (prepare {} userNames).selection ∧
      Field.DistinctKeys
        (prepare {} { userNames with selection := relabelledUserNames }).selection ∧
      (execute {} userNames userClient).response = .ok (.object
        [("users", .array [.object [("id", .string "u1"), ("name", .string "Ada"),
          ("__typename", .string "User")]])]) ∧
      (execute {} { userNames with selection := relabelledUserNames } userClient).response =
        .ok (.object [("people", .array [.object [("name", .string "u1"), ("id", .string "Ada"),
          ("__typename", .string "User")]])]) ∧
      execute {} { userNames with selection := relabelledUserNames } userClient =
        { execute {} userNames userClient with
          response := (execute {} userNames userClient).response.map (Json.mapObjects
            (relabelEntries (prepare {} userNames).selection
              (prepare {} { userNames with selection := relabelledUserNames }).selection)) } :=
  ⟨by decide +kernel, by decide +kernel, Json.eq_ok_of_compact (by decide +kernel),
    Json.eq_ok_of_compact (by decide +kernel),
    (execute_relabelled {} userNames relabelledUserNames rfl (by decide +kernel)
      (by decide +kernel) userClient).1⟩

end Executor

end LiveDocs
