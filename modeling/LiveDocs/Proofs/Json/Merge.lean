import LiveDocs.Proofs.Json.FieldPath

/-!
# Merging objects

To merge an object into another one is to merge the values under its keys into those of the other
and to leave the other keys alone; a value that is no object takes the place of what was there. So
a path reads in the merged object what the new one has there, objects merged once more, and what
the old one has where the new one says nothing. This needs that no object names a key twice, which
holds of every value that is read from a text. Main statements: `hasDistinctKeys_merged`;
`Members.merges_mergeMembers`, where each field of a merged object comes from;
`mergeMembers_mergeMembers`, merging the same again changes nothing.
-/

namespace LiveDocs

namespace Json

/-! ### Distinct keys -/

/-- No object in the value has two members with one key. -/
inductive HasDistinctKeys : Json → Prop where
  | null : HasDistinctKeys .null
  | bool (value : Bool) : HasDistinctKeys (.bool value)
  | number (value : JsonNumber) : HasDistinctKeys (.number value)
  | string (value : String) : HasDistinctKeys (.string value)
  | array {items : List Json} (h : ∀ item ∈ items, HasDistinctKeys item) :
      HasDistinctKeys (.array items)
  | object {members : Members} (hkeys : Bindings.Distinct members)
      (h : ∀ member ∈ members, HasDistinctKeys member.2) : HasDistinctKeys (.object members)

theorem HasDistinctKeys.distinct {members : Members} (h : HasDistinctKeys (.object members)) :
    Bindings.Distinct members := by
  cases h with
  | object hkeys _ => exact hkeys

theorem HasDistinctKeys.of_get? {members : Members} (h : HasDistinctKeys (.object members))
    {key : String} {v : Json} (hv : Bindings.get? key members = some v) : HasDistinctKeys v := by
  cases h with
  | object _ h => exact h (key, v) (Bindings.mem_of_get? hv)

theorem HasDistinctKeys.of_follow {v w : Json} (h : v.HasDistinctKeys) {path : List String}
    (hw : follow path v = some w) : w.HasDistinctKeys := by
  induction path generalizing v with
  | nil =>
    obtain rfl : v = w := Option.some.inj hw
    exact h
  | cons key rest ih =>
    obtain ⟨u, hu, hrest⟩ := Option.bind_eq_some_iff.1 hw
    cases v with
    | object members => exact ih (h.of_get? hu) hrest
    | null | bool | number | string | array => cases hu

mutual

/-- Every value that is read from a text has distinct keys. -/
theorem hasDistinctKeys_merged (v : Json) : v.merged.HasDistinctKeys := by
  cases v with
  | null => exact .null
  | bool value => exact .bool value
  | number value => exact .number value
  | string value => exact .string value
  | array items => exact .array (hasDistinctKeys_of_mem_mergedItems items)
  | object members =>
    have hdistinct : Bindings.Distinct (Bindings.ofPairs (mergedMembers members)) :=
      Bindings.distinct_ofPairs _
    refine .object hdistinct fun member hmember => ?_
    have hget := (Bindings.get?_eq_some_iff hdistinct).2 hmember
    rw [Bindings.get?_ofPairs] at hget
    exact hasDistinctKeys_of_mem_mergedMembers members member
      (List.mem_reverse.1 (Bindings.mem_of_get? hget))

theorem hasDistinctKeys_of_mem_mergedItems (items : List Json) :
    ∀ item ∈ mergedItems items, item.HasDistinctKeys := by
  cases items with
  | nil => exact fun _ hmem => (List.not_mem_nil hmem).elim
  | cons item rest =>
    exact List.forall_mem_cons.2
      ⟨hasDistinctKeys_merged item, hasDistinctKeys_of_mem_mergedItems rest⟩

theorem hasDistinctKeys_of_mem_mergedMembers (members : List (String × Json)) :
    ∀ member ∈ mergedMembers members, member.2.HasDistinctKeys := by
  cases members with
  | nil => exact fun _ hmem => (List.not_mem_nil hmem).elim
  | cons member rest =>
    exact List.forall_mem_cons.2
      ⟨hasDistinctKeys_merged member.2, hasDistinctKeys_of_mem_mergedMembers rest⟩

end

/-! ### Reading what was merged -/

/-- The value that `new` leaves of what is there, if there is something. -/
def mergeOver (new : Json) : Option Json → Json
  | some old => mergeInto new old
  | none => new

theorem mergeMembers_cons (key : String) (value : Json) (rest : List (String × Json))
    (old : Members) :
    mergeMembers ((key, value) :: rest) old =
      mergeMembers rest (old.insert key (value.mergeOver (Bindings.get? key old))) := by
  rw [mergeMembers]
  cases Bindings.get? key old <;> rfl

theorem mergeInto_object (new old : Members) :
    mergeInto (.object new) (.object old) = .object (mergeMembers new old) := by
  rw [mergeInto]

/-- What is no object takes the place of what was there. -/
theorem mergeInto_of_members?_eq_none {new : Json} (h : new.members? = none) (old : Json) :
    mergeInto new old = new := by
  cases new with
  | object members => cases h
  | null | bool | number | string | array => rfl

/-- What was no object gives way. -/
theorem mergeInto_of_old_eq_none (new : Json) {old : Json} (h : old.members? = none) :
    mergeInto new old = new := by
  cases old with
  | object members => cases h
  | null | bool | number | string | array => cases new <;> rfl

theorem eq_object_of_members? {v : Json} {members : Members} (h : v.members? = some members) :
    v = .object members := by
  cases v with
  | object inner => exact congrArg Json.object (Option.some.inj h)
  | null | bool | number | string | array => cases h

theorem exists_eq_object {v : Json} (h : v.members? ≠ none) : ∃ members, v = .object members := by
  obtain ⟨members, hmembers⟩ := Option.ne_none_iff_exists'.1 h
  exact ⟨members, eq_object_of_members? hmembers⟩

variable {new old : Members} {key : String} {v : Json}

theorem get?_mergeMembers_of_none (h : Bindings.get? key new = none) :
    Bindings.get? key (mergeMembers new old) = Bindings.get? key old := by
  induction new generalizing old with
  | nil => rw [mergeMembers]
  | cons member rest ih =>
    obtain ⟨other, value⟩ := member
    rw [Bindings.get?] at h
    split at h
    · cases h
    · rename_i hne
      rw [mergeMembers_cons, ih h, Bindings.get?_insert_of_ne (Ne.symm hne)]

theorem get?_mergeMembers_of_some (hdistinct : Bindings.Distinct new)
    (h : Bindings.get? key new = some v) :
    Bindings.get? key (mergeMembers new old) = some (v.mergeOver (Bindings.get? key old)) := by
  induction new generalizing old with
  | nil => cases h
  | cons member rest ih =>
    obtain ⟨other, value⟩ := member
    obtain ⟨hfresh, hrest⟩ : other ∉ Bindings.keys rest ∧ Bindings.Distinct rest :=
      List.nodup_cons.1 hdistinct
    rw [Bindings.get?] at h
    rw [mergeMembers_cons]
    split at h
    · -- the members behind this one have other keys
      rename_i hkey
      subst hkey
      obtain rfl := Option.some.inj h
      rw [get?_mergeMembers_of_none (Bindings.get?_eq_none_iff.2 hfresh),
        Bindings.get?_insert_self]
    · rename_i hne
      rw [ih hrest h, Bindings.get?_insert_of_ne (Ne.symm hne)]

/-- What the new value has along a path is merged into what the old one has there. -/
theorem follow_mergeInto_of_some {new old v : Json} (hnew : new.HasDistinctKeys)
    {path : List String} (h : follow path new = some v) :
    follow path (mergeInto new old) = some (v.mergeOver (follow path old)) := by
  induction path generalizing new old with
  | nil =>
    obtain rfl : new = v := Option.some.inj h
    rfl
  | cons key rest ih =>
    cases hold : old.members? with
    | none =>
      -- the old value gives way, and has nothing along the path
      rw [mergeInto_of_old_eq_none new hold, h,
        follow_of_members?_eq_none hold (List.cons_ne_nil key rest)]
      rfl
    | some b =>
      obtain rfl := eq_object_of_members? hold
      obtain ⟨a, rfl⟩ : ∃ a, new = .object a := by
        refine exists_eq_object fun hnone => ?_
        rw [follow_of_members?_eq_none hnone (List.cons_ne_nil key rest)] at h
        cases h
      obtain ⟨u, hu, hv⟩ := Option.bind_eq_some_iff.1 h
      rw [mergeInto_object, follow_object, follow_object,
        get?_mergeMembers_of_some hnew.distinct hu, Option.bind_some]
      cases Bindings.get? key b with
      | none => exact hv
      | some w => exact ih (hnew.of_get? hu) hv

/-- Where the new value says nothing, the old one stays: there the new value has no object that
ends the path, and nothing else either. -/
theorem follow_mergeInto_of_none {new old : Json} (hnew : new.HasDistinctKeys)
    {path : List String} (h : follow path new = none)
    (hopen : ∀ front, front <+: path → ∀ v, follow front new = some v → v.members? ≠ none) :
    follow path (mergeInto new old) = follow path old := by
  induction path generalizing new old with
  | nil => cases h
  | cons key rest ih =>
    cases hold : old.members? with
    | none =>
      rw [mergeInto_of_old_eq_none new hold, h,
        follow_of_members?_eq_none hold (List.cons_ne_nil key rest)]
    | some b =>
      obtain rfl := eq_object_of_members? hold
      -- the new value is above the path itself, so it is an object
      obtain ⟨a, rfl⟩ : ∃ a, new = .object a :=
        exists_eq_object (hopen [] ⟨key :: rest, rfl⟩ new rfl)
      rw [mergeInto_object, follow_object, follow_object]
      rw [follow_object] at h
      cases hu : Bindings.get? key a with
      | none => rw [get?_mergeMembers_of_none hu]
      | some u =>
        rw [hu, Option.bind_some] at h
        rw [get?_mergeMembers_of_some hnew.distinct hu, Option.bind_some]
        cases Bindings.get? key b with
        | none => exact h
        | some w =>
          refine ih (hnew.of_get? hu) h fun front hfront v hv => ?_
          refine hopen (key :: front) ((List.prefix_cons_inj key).2 hfront) v ?_
          rw [follow_object, hu]
          exact hv

/-! ### Merging twice -/

/-- To merge members into what holds them already changes nothing. -/
theorem mergeMembers_eq_self
    (h : ∀ member ∈ new, ∃ w, Bindings.get? member.1 old = some w ∧ mergeInto member.2 w = w) :
    mergeMembers new old = old := by
  induction new with
  | nil => rw [mergeMembers]
  | cons member rest ih =>
    obtain ⟨⟨w, hw, hmerge⟩, hrest⟩ := List.forall_mem_cons.1 h
    rw [mergeMembers_cons, hw, mergeOver, hmerge, Bindings.insert_of_get? hw, ih hrest]

theorem mergeInto_self {v : Json} (h : v.HasDistinctKeys) : mergeInto v v = v := by
  induction h with
  | null | bool | number | string | array => rfl
  | object hkeys _ ih =>
    rw [mergeInto_object, mergeMembers_eq_self fun member hmember =>
      ⟨member.2, (Bindings.get?_eq_some_iff hkeys).2 hmember, ih member hmember⟩]

theorem mergeInto_mergeInto {new : Json} (h : new.HasDistinctKeys) (old : Json) :
    mergeInto new (mergeInto new old) = mergeInto new old := by
  induction h generalizing old with
  | null | bool | number | string | array => rfl
  | @object a hkeys h ih =>
    cases hold : old.members? with
    | none => rw [mergeInto_of_old_eq_none _ hold, mergeInto_self (.object hkeys h)]
    | some b =>
      obtain rfl := eq_object_of_members? hold
      rw [mergeInto_object, mergeInto_object, mergeMembers_eq_self fun member hmember => ?_]
      -- under each key of the new object lies what was merged there the first time
      have hget := (Bindings.get?_eq_some_iff hkeys).2 hmember
      refine ⟨_, get?_mergeMembers_of_some hkeys hget, ?_⟩
      cases Bindings.get? member.1 b with
      | none => exact mergeInto_self (h member hmember)
      | some w => exact ih member hmember w

/-- Merging the same again changes nothing. -/
theorem mergeMembers_mergeMembers (h : HasDistinctKeys (.object new)) (old : Members) :
    mergeMembers new (mergeMembers new old) = mergeMembers new old := by
  have htwice := mergeInto_mergeInto h (.object old)
  rw [mergeInto_object, mergeInto_object] at htwice
  exact Json.object.inj htwice

/-- To merge an object into one that has none of its keys is to put it behind. -/
theorem mergeMembers_of_distinct_append {new old : Members} (h : Bindings.Distinct (old ++ new)) :
    mergeMembers new old = old ++ new := by
  induction new generalizing old with
  | nil => rw [mergeMembers, List.append_nil]
  | cons member rest ih =>
    obtain ⟨other, value⟩ := member
    have hfresh : other ∉ Bindings.keys old := by
      rw [Bindings.Distinct, Bindings.keys, List.map_append, List.map_cons] at h
      exact fun hmem => (List.nodup_append.1 h).2.2 _ hmem _ List.mem_cons_self rfl
    rw [List.append_cons] at h
    rw [mergeMembers_cons, Bindings.get?_eq_none_iff.2 hfresh, mergeOver,
      Bindings.insert_of_not_mem hfresh, ih h, ← List.append_cons]

/-- To merge an object into an empty one is to copy it. -/
theorem mergeMembers_nil (h : Bindings.Distinct new) : mergeMembers new [] = new :=
  @mergeMembers_of_distinct_append new [] h

end Json

/-! ### Where a field comes from -/

namespace Members

open Json (follow)

/-- Where the fields of a merged document come from. A value of the new one that is no object takes
its place; an object is merged into the one that is there, or into an empty one. Where the new one
has nothing, and nothing above either but objects, the old one stays; what lies below another value
of the new one is gone. -/
structure Merges (new old merged : Members) : Prop where
  value : ∀ path v, new.read path = some v → v.members? = none → merged.read path = some v
  object : ∀ path inner, new.read path = some (.object inner) → merged.read path =
    some (.object (Json.mergeMembers inner (((old.read path).bind Json.members?).getD [])))
  kept : ∀ path, new.read path = none →
    (∀ above, FieldPath.Above above path → above ≠ path →
      ∀ v, new.read above = some v → v.members? ≠ none) →
    merged.read path = old.read path
  gone : ∀ path above v, FieldPath.Above above path → above ≠ path → new.read above = some v →
    v.members? = none → merged.read path = none

theorem mergeOver_object {inner : Members} (hdistinct : Bindings.Distinct inner)
    (old : Option Json) : (Json.object inner).mergeOver old =
      .object (Json.mergeMembers inner ((old.bind Json.members?).getD [])) := by
  cases old with
  | none => exact congrArg Json.object (Json.mergeMembers_nil hdistinct).symm
  | some v =>
    rw [Json.mergeOver, Option.bind_some]
    cases hv : v.members? with
    | none =>
      rw [Json.mergeInto_of_old_eq_none _ hv]
      exact congrArg Json.object (Json.mergeMembers_nil hdistinct).symm
    | some current =>
      obtain rfl := Json.eq_object_of_members? hv
      exact Json.mergeInto_object inner current

theorem mergeOver_of_members?_eq_none {v : Json} (hv : v.members? = none) (old : Option Json) :
    v.mergeOver old = v := by
  cases old with
  | none => rfl
  | some w => exact Json.mergeInto_of_members?_eq_none hv w

/-- What the new object has at a path is merged into what the old one has there. -/
theorem read_mergeMembers_of_some {new : Members} (h : (Json.object new).HasDistinctKeys)
    (old : Members) {path : String} {v : Json} (hv : new.read path = some v) :
    (Json.mergeMembers new old).read path = some (v.mergeOver (old.read path)) := by
  rw [read_eq_follow] at hv
  rw [read_eq_follow, read_eq_follow, ← Json.mergeInto_object]
  exact Json.follow_mergeInto_of_some h hv

/-- Below a value that is no object, a path reads nothing. -/
theorem read_of_above {members : Members} {above path : String} {v : Json}
    (habove : FieldPath.Above above path) (hne : above ≠ path)
    (hread : members.read above = some v) (hv : v.members? = none) :
    members.read path = none := by
  obtain ⟨rest, hrest, hsplit⟩ := habove.exists_append hne
  rw [read_eq_follow] at hread
  rw [read_eq_follow, hsplit, Json.follow_append, hread, Option.bind_some,
    Json.follow_of_members?_eq_none hv hrest]

/-- Every field of a merged object comes from the new one, the old one or both. -/
theorem merges_mergeMembers {new : Members} (h : (Json.object new).HasDistinctKeys)
    (old : Members) : Merges new old (Json.mergeMembers new old) where
  value path v hread hv := by
    rw [read_mergeMembers_of_some h old hread, mergeOver_of_members?_eq_none hv]
  object path inner hread := by
    have hinner : (Json.object inner).HasDistinctKeys := by
      rw [read_eq_follow] at hread
      exact h.of_follow hread
    rw [read_mergeMembers_of_some h old hread, mergeOver_object hinner.distinct]
  kept path hread hopen := by
    rw [read_eq_follow] at hread
    rw [read_eq_follow, read_eq_follow, ← Json.mergeInto_object]
    refine Json.follow_mergeInto_of_none h hread fun front hfront v hv => ?_
    by_cases hnil : front = []
    · -- no path has no segments: this is the object itself
      subst hnil
      obtain rfl : Json.object new = v := Option.some.inj hv
      exact Option.some_ne_none new
    · obtain ⟨above, rfl⟩ := Text.exists_split_eq_of_prefix hnil hfront
      refine hopen above hfront ?_ v (by rw [read_eq_follow, hv])
      rintro rfl
      rw [hread] at hv
      cases hv
  gone path above v habove hne hread hv := by
    have hmerged : (Json.mergeMembers new old).read above = some v := by
      rw [read_mergeMembers_of_some h old hread, mergeOver_of_members?_eq_none hv]
    exact read_of_above habove hne hmerged hv

end Members

end LiveDocs
