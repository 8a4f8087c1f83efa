import LiveDocs.Json.FieldPath
import LiveDocs.Proofs.Bindings
import Mathlib.Data.List.Infix

/-!
# Reading and writing along field paths

To read along a path is to look up one segment after the other, so reading along two paths one
behind the other is reading twice. A write at a path touches what lies at, below and above it, and
nothing that lies apart. Main statements: `read_write_of_apart`, a write is not seen at a path that
lies apart; `read_writeAll_of_mem` and `read_writeAll_of_apart`, what is read after several writes
that lie apart; `Json.Reordered.of_perm`, the order of such writes shows in the order of keys only.
-/

namespace LiveDocs

/-! ### Paths -/

theorem Text.split_ne_nil (sep : Char) (s : String) : Text.split sep s ≠ [] := by
  rw [Text.split, ne_eq, List.map_eq_nil_iff]
  exact Text.splitChars_ne_nil sep s.toList

theorem Text.split_of_not_mem {sep : Char} {s : String} (h : sep ∉ s.toList) :
    Text.split sep s = [s] := by
  rw [Text.split, Text.splitChars_of_not_mem h, List.map_singleton, String.ofList_toList]

/-- Different texts have different pieces. -/
theorem Text.split_injective (sep : Char) : Function.Injective (Text.split sep) := by
  intro s t h
  have hchars : Text.splitChars sep s.toList = Text.splitChars sep t.toList :=
    List.map_injective_iff.2 (fun _ _ => String.ofList_injective) h
  have hjoined := congrArg (Text.joinChars sep) hchars
  rw [Text.joinChars_splitChars, Text.joinChars_splitChars] at hjoined
  exact String.toList_injective hjoined

/-- Pieces without the separator are what their joined text splits into. -/
theorem Text.splitChars_joinChars {sep : Char} {pieces : List (List Char)} (hne : pieces ≠ [])
    (hfree : ∀ piece ∈ pieces, sep ∉ piece) : splitChars sep (joinChars sep pieces) = pieces := by
  induction pieces with
  | nil => exact absurd rfl hne
  | cons piece rest ih =>
    obtain ⟨hpiece, hrest⟩ := List.forall_mem_cons.1 hfree
    by_cases hlast : rest = []
    · subst hlast
      exact splitChars_of_not_mem hpiece
    · rw [joinChars_cons_of_ne_nil sep piece hlast, splitChars_append_cons,
        splitChars_of_not_mem hpiece, ih hlast hrest, List.singleton_append]

/-- The first pieces of a text are the pieces of a text of their own. -/
theorem Text.exists_split_eq_of_prefix {sep : Char} {s : String} {front : List String}
    (hne : front ≠ []) (h : front <+: split sep s) : ∃ t, split sep t = front := by
  refine ⟨join sep front, ?_⟩
  have hfree : ∀ piece ∈ front.map String.toList, sep ∉ piece := by
    intro piece hpiece
    obtain ⟨text, htext, rfl⟩ := List.mem_map.1 hpiece
    obtain ⟨chars, hchars, rfl⟩ := List.mem_map.1 (h.subset htext)
    rw [String.toList_ofList]
    exact not_mem_of_mem_splitChars hchars
  rw [split, join, String.toList_ofList,
    splitChars_joinChars (mt List.map_eq_nil_iff.1 hne) hfree, List.map_map]
  exact (List.map_congr_left fun text _ => String.ofList_toList).trans (List.map_id front)

/-- No segments at all are above any others. -/
theorem ne_nil_of_not_above {p q : List String} (h : ¬ p <+: q) : p ≠ [] := by
  rintro rfl
  exact h ⟨q, rfl⟩

namespace FieldPath

/-- A path is above another one, or the same: its segments are the first ones of the other. -/
def Above (p q : String) : Prop := Text.split '.' p <+: Text.split '.' q

instance (p q : String) : Decidable (Above p q) := inferInstanceAs (Decidable (_ <+: _))

/-- Two paths lie apart if neither is above the other. -/
def Apart (p q : String) : Prop := ¬ Above p q ∧ ¬ Above q p

instance (p q : String) : Decidable (Apart p q) := inferInstanceAs (Decidable (_ ∧ _))

variable {p q : String}

theorem Apart.symm (h : Apart p q) : Apart q p := ⟨h.2, h.1⟩

theorem Apart.ne (h : Apart p q) : p ≠ q := by
  rintro rfl
  exact h.1 (List.prefix_refl _)

/-- Above a path lie the paths that have some of its segments, but not the last one. -/
theorem Above.exists_append (h : Above p q) (hne : p ≠ q) :
    ∃ rest, rest ≠ [] ∧ Text.split '.' q = Text.split '.' p ++ rest := by
  obtain ⟨rest, hrest⟩ := h
  refine ⟨rest, ?_, hrest.symm⟩
  rintro rfl
  rw [List.append_nil] at hrest
  exact hne (Text.split_injective '.' hrest)

end FieldPath

/-! ### Reading -/

namespace Json

/-- The value that segments lead to from a value. -/
def follow : List String → Json → Option Json
  | [], v => some v
  | key :: rest, v => (v.get? key).bind (follow rest)

theorem follow_object (key : String) (rest : List String) (members : Members) :
    follow (key :: rest) (.object members) = (Bindings.get? key members).bind (follow rest) :=
  rfl

/-- Two ways one behind the other are taken one after the other. -/
theorem follow_append (p q : List String) (v : Json) :
    follow (p ++ q) v = (follow p v).bind (follow q) := by
  induction p generalizing v with
  | nil => rfl
  | cons key rest ih =>
    rw [List.cons_append, follow, follow, Option.bind_assoc]
    exact congrArg _ (funext ih)

/-- What is no object has nothing below it. -/
theorem follow_of_members?_eq_none {v : Json} (hv : v.members? = none) {path : List String}
    (hpath : path ≠ []) : follow path v = none := by
  obtain ⟨key, rest, rfl⟩ := List.exists_cons_of_ne_nil hpath
  have hget : v.get? key = none := by
    cases v with
    | object members => cases hv
    | null | bool | number | string | array => rfl
  rw [follow, hget, Option.bind_none]

theorem follow_empty {path : List String} (hpath : path ≠ []) :
    follow path (.object []) = none := by
  obtain ⟨key, rest, rfl⟩ := List.exists_cons_of_ne_nil hpath
  rfl

end Json

namespace Members

open Json (follow)

theorem readAt_eq_follow {path : List String} (hpath : path ≠ []) (members : Members) :
    readAt path members = follow path (.object members) := by
  fun_induction readAt path members with
  | case1 => exact absurd rfl hpath
  | case2 key members =>
    rw [Json.follow_object]
    exact (Option.bind_fun_some _).symm
  | case3 key next rest members inner hinner ih =>
    rw [ih (List.cons_ne_nil _ _), Json.follow_object key, hinner, Option.bind_some]
  | case4 key next rest members hinner =>
    rw [Json.follow_object]
    cases hvalue : Bindings.get? key members with
    | none => rfl
    | some v =>
      have hv : v.members? = none := by
        cases v with
        | object inner => exact (hinner inner hvalue).elim
        | null | bool | number | string | array => rfl
      rw [Option.bind_some, Json.follow_of_members?_eq_none hv (List.cons_ne_nil _ _)]

theorem read_eq_follow (path : String) (members : Members) :
    members.read path = follow (Text.split '.' path) (.object members) :=
  readAt_eq_follow (Text.split_ne_nil '.' path) members

/-! ### Writing -/

/-- The members of the object under a key; none if there is no object. -/
def innerAt (key : String) (members : Members) : Members :=
  ((Bindings.get? key members).bind Json.members?).getD []

/-- What a write at the rest of a path makes of an object: the value itself at the end. -/
def placed (value : Json) (rest : List String) (inner : Members) : Json :=
  if rest = [] then value else .object (writeAt value rest inner)

/-- A write replaces what lies under the first segment. -/
theorem writeAt_cons (value : Json) (key : String) (rest : List String) (members : Members) :
    writeAt value (key :: rest) members =
      members.insert key (placed value rest (members.innerAt key)) := by
  cases rest with
  | nil => rfl
  | cons next rest =>
    rw [writeAt, placed, if_neg (List.cons_ne_nil _ _), innerAt]
    congr 3
    cases Bindings.get? key members with
    | none => rfl
    | some v => cases v <;> rfl

theorem innerAt_insert_self (key : String) (inner members : Members) :
    innerAt key (members.insert key (.object inner)) = inner := by
  rw [innerAt, Bindings.get?_insert_self]
  rfl

theorem innerAt_insert_of_ne {key other : String} (h : other ≠ key) (value : Json)
    (members : Members) : innerAt other (members.insert key value) = members.innerAt other := by
  rw [innerAt, innerAt, Bindings.get?_insert_of_ne h]

/-- Below a key lies what lies in the object under it. -/
theorem follow_innerAt {path : List String} (hpath : path ≠ []) (key : String)
    (members : Members) :
    follow path (.object (members.innerAt key)) = follow (key :: path) (.object members) := by
  rw [innerAt, Json.follow_object]
  cases Bindings.get? key members with
  | none => exact Json.follow_empty hpath
  | some v =>
    cases v with
    | object inner => rfl
    | null | bool | number | string | array =>
      exact (Json.follow_empty hpath).trans (Json.follow_of_members?_eq_none rfl hpath).symm

/-- A write is not seen along a path that lies apart. -/
theorem follow_writeAt_of_apart (value : Json) {p q : List String} (hpq : ¬ p <+: q)
    (hqp : ¬ q <+: p) (members : Members) :
    follow q (.object (writeAt value p members)) = follow q (.object members) := by
  induction p generalizing q members with
  | nil => exact absurd rfl (ne_nil_of_not_above hpq)
  | cons key rest ih =>
    cases q with
    | nil => exact absurd rfl (ne_nil_of_not_above hqp)
    | cons other q =>
      rw [writeAt_cons, Json.follow_object]
      by_cases hother : other = key
      · -- the two paths part further down, so neither of them ends here
        subst hother
        rw [List.prefix_cons_inj] at hpq hqp
        have hrest : rest ≠ [] := ne_nil_of_not_above hpq
        have hq : q ≠ [] := ne_nil_of_not_above hqp
        rw [Bindings.get?_insert_self, Option.bind_some, placed, if_neg hrest, ih hpq hqp,
          follow_innerAt hq]
      · rw [Bindings.get?_insert_of_ne hother]
        rfl

theorem read_write_self (path : String) (value : Json) (members : Members) :
    (members.write path value).read path = some value :=
  readAt_writeAt_self value (Text.split_ne_nil '.' path) members

/-- A write is not seen at a path that lies apart. -/
theorem read_write_of_apart {path other : String} (h : FieldPath.Apart path other) (value : Json)
    (members : Members) : (members.write path value).read other = members.read other := by
  rw [read_eq_follow, read_eq_follow]
  exact follow_writeAt_of_apart value h.1 h.2 members

/-! ### Several writes -/

/-- Writes fields one after the other. -/
def writeAll (fields : List (String × Json)) (members : Members) : Members :=
  fields.foldl (fun acc (path, value) => Members.write path value acc) members

variable {fields fields' : List (String × Json)}

/-- Several writes are not seen at a path that lies apart from all of theirs. -/
theorem read_writeAll_of_apart {path : String}
    (h : ∀ field ∈ fields, FieldPath.Apart field.1 path) (members : Members) :
    (members.writeAll fields).read path = members.read path := by
  induction fields generalizing members with
  | nil => rfl
  | cons field rest ih =>
    obtain ⟨hfield, hrest⟩ := List.forall_mem_cons.1 h
    exact (ih hrest _).trans (read_write_of_apart hfield field.2 members)

/-- After writes that lie apart from each other, each of them reads back. -/
theorem read_writeAll_of_mem
    (hapart : fields.Pairwise fun a b => FieldPath.Apart a.1 b.1) {path : String} {value : Json}
    (h : (path, value) ∈ fields) (members : Members) :
    (members.writeAll fields).read path = some value := by
  induction fields generalizing members with
  | nil => cases h
  | cons field rest ih =>
    obtain ⟨hfield, hrest⟩ := List.pairwise_cons.1 hapart
    rcases List.mem_cons.1 h with rfl | hmem
    · -- what was written first is left alone by the writes behind it
      have hkept := read_writeAll_of_apart (fun field hmem => (hfield field hmem).symm)
        (members.write path value)
      exact hkept.trans (read_write_self path value members)
    · exact ih hrest hmem _

end Members

/-! ### The order of writes -/

/-- A value is another one up to the order of keys: the objects have the same keys, and under each
of them the same value up to the order of keys. -/
inductive Json.Reordered : Json → Json → Prop where
  | refl (v : Json) : Reordered v v
  | object {members members' : Members}
      (hkeys : (Bindings.keys members).Perm (Bindings.keys members'))
      (h : ∀ key v v', Bindings.get? key members = some v → Bindings.get? key members' = some v' →
        Reordered v v') : Reordered (.object members) (.object members')

namespace Json.Reordered

open Members (writeAt writeAt_cons innerAt placed writeAll)

variable {members members' : Members} {u v w v' : Json}

theorem of_get?_eq (hkeys : (Bindings.keys members).Perm (Bindings.keys members'))
    (hget : ∀ key, Bindings.get? key members = Bindings.get? key members') :
    Reordered (.object members) (.object members') := by
  refine .object hkeys fun key v v' hv hv' => ?_
  obtain rfl : v = v' := Option.some.inj (hv.symm.trans ((hget key).trans hv'))
  exact .refl v

theorem keys_perm (h : Reordered (.object members) (.object members')) :
    (Bindings.keys members).Perm (Bindings.keys members') := by
  cases h with
  | refl => exact .refl _
  | object hkeys _ => exact hkeys

/-- Under each key lies the same value up to the order of keys. -/
theorem of_get? (h : Reordered (.object members) (.object members')) {key : String}
    (hv : Bindings.get? key members = some v) (hv' : Bindings.get? key members' = some v') :
    Reordered v v' := by
  cases h with
  | refl =>
    obtain rfl : v = v' := Option.some.inj (hv.symm.trans hv')
    exact .refl v
  | object _ h => exact h key v v' hv hv'

theorem trans (h : Reordered u v) (h' : Reordered v w) : Reordered u w := by
  induction h generalizing w with
  | refl v => exact h'
  | @object members between hkeys h ih =>
    cases h' with
    | refl => exact .object hkeys h
    | object hkeys' h' =>
      refine .object (hkeys.trans hkeys') fun key u w hu hw => ?_
      -- the object between has the key too, and the values lie one behind the other there
      obtain ⟨v, hv⟩ : ∃ v, Bindings.get? key between = some v := by
        rw [← Option.isSome_iff_exists, ← Bindings.isSome_get?_of_perm hkeys key, hu]
        rfl
      exact ih key u v hu hv (h' key v w hv hw)

theorem insert (h : Reordered (.object members) (.object members')) (key : String)
    (hv : Reordered v v') :
    Reordered (.object (Bindings.insert key v members))
      (.object (Bindings.insert key v' members')) := by
  refine .object (Bindings.keys_insert_perm h.keys_perm key v v') fun other u u' hu hu' => ?_
  by_cases hother : other = key
  · subst hother
    rw [Bindings.get?_insert_self] at hu hu'
    obtain rfl := Option.some.inj hu
    obtain rfl := Option.some.inj hu'
    exact hv
  · rw [Bindings.get?_insert_of_ne hother] at hu hu'
    exact h.of_get? hu hu'

theorem innerAt (h : Reordered (.object members) (.object members')) (key : String) :
    Reordered (.object (members.innerAt key)) (.object (members'.innerAt key)) := by
  have hsome := Bindings.isSome_get?_of_perm h.keys_perm key
  rw [Members.innerAt, Members.innerAt]
  cases hv : Bindings.get? key members with
  | none =>
    rw [hv, Option.isSome_none, Eq.comm, Option.isSome_eq_false_iff, Option.isNone_iff_eq_none]
      at hsome
    rw [hsome]
    exact .refl _
  | some v =>
    rw [hv, Option.isSome_some, Eq.comm, Option.isSome_iff_exists] at hsome
    obtain ⟨v', hv'⟩ := hsome
    rw [hv']
    -- either both are the same value, or both are objects
    cases h.of_get? hv hv' with
    | refl => exact .refl _
    | object hkeys h => exact .object hkeys h

/-- The same write keeps two objects the same up to the order of keys. -/
theorem writeAt (h : Reordered (.object members) (.object members')) (value : Json)
    (path : List String) :
    Reordered (.object (Members.writeAt value path members))
      (.object (Members.writeAt value path members')) := by
  induction path generalizing members members' with
  | nil => exact h
  | cons key rest ih =>
    rw [writeAt_cons, writeAt_cons]
    refine h.insert key ?_
    rw [placed, placed]
    split
    · exact .refl value
    · exact ih (h.innerAt key)

/-- Two writes that lie apart come to the same in either order, up to the order of keys. -/
theorem writeAt_comm (value value' : Json) {p q : List String} (hpq : ¬ p <+: q)
    (hqp : ¬ q <+: p) (members : Members) :
    Reordered (.object (Members.writeAt value p (Members.writeAt value' q members)))
      (.object (Members.writeAt value' q (Members.writeAt value p members))) := by
  induction p generalizing q members with
  | nil => exact absurd rfl (ne_nil_of_not_above hpq)
  | cons key rest ih =>
    cases q with
    | nil => exact absurd rfl (ne_nil_of_not_above hqp)
    | cons other q =>
      simp only [writeAt_cons]
      by_cases hne : key = other
      · -- the two paths part further down, so neither of them ends here
        subst hne
        rw [List.prefix_cons_inj] at hpq hqp
        have hrest : rest ≠ [] := ne_nil_of_not_above hpq
        have hq : q ≠ [] := ne_nil_of_not_above hqp
        rw [placed, placed, placed, placed, if_neg hrest, if_neg hq, if_neg hrest, if_neg hq,
          Members.innerAt_insert_self, Members.innerAt_insert_self, Bindings.insert_insert,
          Bindings.insert_insert]
        exact (Reordered.refl (.object members)).insert key (ih hpq hqp _)
      · rw [Members.innerAt_insert_of_ne hne, Members.innerAt_insert_of_ne (Ne.symm hne)]
        exact of_get?_eq (Bindings.keys_insert_comm hne _ _ members)
          (Bindings.get?_insert_comm hne _ _ members)

theorem writeAll (h : Reordered (.object members) (.object members'))
    (fields : List (String × Json)) :
    Reordered (.object (members.writeAll fields)) (.object (members'.writeAll fields)) := by
  induction fields generalizing members members' with
  | nil => exact h
  | cons field rest ih => exact ih (h.writeAt field.2 _)

/-- Writes that lie apart from each other come to the same in any order, up to the order of
keys. -/
theorem of_perm {fields fields' : List (String × Json)} (h : fields.Perm fields')
    (hapart : fields.Pairwise fun a b => FieldPath.Apart a.1 b.1) (members : Members) :
    Reordered (.object (members.writeAll fields)) (.object (members.writeAll fields')) := by
  induction h generalizing members with
  | nil => exact .refl _
  | cons field _ ih => exact ih (List.pairwise_cons.1 hapart).2 _
  | swap a b rest =>
    -- the first two writes change places, and the others are written into both results
    have hab : FieldPath.Apart b.1 a.1 := (List.pairwise_cons.1 hapart).1 a List.mem_cons_self
    exact (writeAt_comm _ _ hab.2 hab.1 members).writeAll rest
  | trans hperm _ ih ih' =>
    refine (ih hapart members).trans (ih' ?_ members)
    exact (hperm.pairwise_iff fun hab => hab.symm).1 hapart

end Json.Reordered

end LiveDocs
