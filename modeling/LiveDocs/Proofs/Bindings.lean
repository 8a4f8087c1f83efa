import LiveDocs.Bindings
import Mathlib.Data.List.Basic
import Mathlib.Data.List.Perm.Basic

/-!
# Laws of bindings

Bindings are looked up by the first entry of a name, and an insertion replaces that entry or adds
one at the end. Main statements: `get?_eq_some_iff`, with distinct names a look-up finds exactly the
entries; `eq_of_get?`, bindings are determined by their names in order and by what is found under
each; `keys_insertAll`, names come in the order in which they are first bound; `keys_insert_comm`
and `get?_insert_comm`, two insertions under different names may change places, up to the order of
names.
-/

namespace LiveDocs

namespace Bindings

variable {α β : Type} {b b' : Bindings α}

/-! ### Look-ups -/

theorem mem_of_get? {key : String} {value : α} (h : get? key b = some value) : (key, value) ∈ b := by
  induction b with
  | nil => cases h
  | cons entry rest ih =>
    obtain ⟨k, v⟩ := entry
    rw [get?] at h
    split at h
    · rename_i hk
      rw [hk, Option.some.inj h]
      exact List.mem_cons_self
    · exact List.mem_cons_of_mem _ (ih h)

/-- With distinct names, each entry is found under its name. -/
theorem get?_eq_some_iff (hdistinct : Distinct b) {key : String} {value : α} :
    get? key b = some value ↔ (key, value) ∈ b := by
  refine ⟨mem_of_get?, fun h => ?_⟩
  induction b with
  | nil => cases h
  | cons entry rest ih =>
    obtain ⟨hfresh, hrest⟩ : entry.1 ∉ keys rest ∧ Distinct rest := List.nodup_cons.1 hdistinct
    rcases List.mem_cons.1 h with rfl | hmem
    · rw [get?, if_pos rfl]
    · have hne : entry.1 ≠ key := fun heq => hfresh (heq ▸ List.mem_map_of_mem hmem)
      rw [get?, if_neg hne, ih hrest hmem]

/-- Bindings with the same names in the same order, and with the same values, are equal. -/
theorem eq_of_get? {b b' : Bindings α} (hkeys : keys b = keys b') (hdistinct : Distinct b)
    (h : ∀ key, get? key b = get? key b') : b = b' := by
  induction b generalizing b' with
  | nil =>
    cases b' with
    | nil => rfl
    | cons entry rest => cases hkeys
  | cons entry rest ih =>
    cases b' with
    | nil => cases hkeys
    | cons entry' rest' =>
      obtain ⟨key, value⟩ := entry
      obtain ⟨key', value'⟩ := entry'
      obtain ⟨rfl, hrest⟩ : key = key' ∧ keys rest = keys rest' := List.cons.inj hkeys
      obtain ⟨hfresh, hdistinct⟩ : key ∉ keys rest ∧ Distinct rest := List.nodup_cons.1 hdistinct
      have hvalue : some value = some value' := by simpa [get?] using h key
      obtain rfl := Option.some.inj hvalue
      refine congrArg _ (ih hrest hdistinct fun other => ?_)
      by_cases heq : key = other
      · subst heq
        rw [get?_eq_none_iff.2 hfresh, get?_eq_none_iff.2 (hrest ▸ hfresh)]
      · simpa [get?, heq] using h other

theorem get?_map (change : String → α → β) (key : String) (b : Bindings α) :
    get? key (b.map fun entry => (entry.1, change entry.1 entry.2)) =
      (get? key b).map (change key) := by
  induction b with
  | nil => rfl
  | cons entry rest ih =>
    rw [List.map_cons, get?, get?, ih]
    split
    · rename_i heq
      rw [heq]
      rfl
    · rfl

theorem keys_map (change : String → α → β) (b : Bindings α) :
    keys (b.map fun entry => (entry.1, change entry.1 entry.2)) = keys b := by
  rw [keys, keys, List.map_map]
  rfl

/-! ### Insertions -/

/-- To bind a name to its own value changes nothing. -/
theorem insert_of_get? {key : String} {value : α} (h : get? key b = some value) :
    b.insert key value = b := by
  induction b with
  | nil => cases h
  | cons entry rest ih =>
    obtain ⟨k, v⟩ := entry
    rw [get?] at h
    rw [insert]
    split at h
    · rename_i hk
      rw [if_pos hk, Option.some.inj h]
    · rename_i hk
      rw [if_neg hk, ih h]

/-- Names come in the order in which they are first bound. -/
theorem keys_insertAll (b : Bindings α) (pairs : List (String × α)) :
    keys (b.insertAll pairs) = keys b ++ ((pairs.map Prod.fst).removeAll (keys b)).eraseDups := by
  induction pairs generalizing b with
  | nil => exact (List.append_nil _).symm
  | cons pair rest ih =>
    obtain ⟨key, value⟩ := pair
    rw [insertAll, List.foldl_cons, ← insertAll, ih, keys_insert, List.map_cons]
    split
    · rename_i hbound
      have hmem : key ∈ keys b := contains_iff.1 hbound
      simp [List.removeAll, hmem]
    · rename_i hfree
      have hmem : key ∉ keys b := fun hmem => hfree (contains_iff.2 hmem)
      have hfilter : ∀ names : List String,
          (names.filter fun name => !decide (name ∈ keys b) && !decide (name = key)) =
            (names.filter fun name => !decide (name ∈ keys b)).filter (fun name => !name == key) :=
        fun names => by
          rw [List.filter_filter]
          exact List.filter_congr fun name _ => Bool.and_comm _ _
      simp [List.removeAll, hmem, List.eraseDups_cons, hfilter]

theorem keys_ofPairs (pairs : List (String × α)) :
    keys (ofPairs pairs) = (pairs.map Prod.fst).eraseDups := by
  rw [ofPairs, keys_insertAll]
  simp [keys, List.removeAll]

/-- A name that is not bound comes last. -/
theorem insert_of_not_mem {key : String} {b : Bindings α} (h : key ∉ keys b) (value : α) :
    insert key value b = b ++ [(key, value)] := by
  induction b with
  | nil => rfl
  | cons entry rest ih =>
    obtain ⟨hne, hrest⟩ := not_or.1 (fun hmem => h (List.mem_cons.2 hmem))
    rw [insert, if_neg (Ne.symm hne), ih hrest]
    rfl

theorem insertAll_of_distinct {b pairs : Bindings α} (h : Distinct (b ++ pairs)) :
    b.insertAll pairs = b ++ pairs := by
  induction pairs generalizing b with
  | nil => exact (List.append_nil b).symm
  | cons pair rest ih =>
    have hfresh : pair.1 ∉ keys b := by
      rw [Distinct, keys, List.map_append, List.map_cons] at h
      exact fun hmem => (List.nodup_append.1 h).2.2 _ hmem _ List.mem_cons_self rfl
    rw [List.append_cons] at h
    rw [insertAll, List.foldl_cons, insert_of_not_mem hfresh, ← insertAll, ih h, ← List.append_cons]

/-- Pairs with distinct names are bound as they are. -/
theorem ofPairs_of_distinct {pairs : Bindings α} (h : Distinct pairs) : ofPairs pairs = pairs :=
  insertAll_of_distinct (b := []) h

/-! ### The order of insertions -/

theorem isSome_get?_of_perm (h : (keys b).Perm (keys b')) (key : String) :
    (get? key b).isSome = (get? key b').isSome := by
  have hiff : contains key b = true ↔ contains key b' = true := by
    rw [contains_iff, contains_iff, h.mem_iff]
  exact Bool.eq_iff_iff.2 hiff

theorem keys_insert_perm (h : (keys b).Perm (keys b')) (key : String) (value value' : α) :
    (keys (b.insert key value)).Perm (keys (b'.insert key value')) := by
  have hcontains : contains key b = contains key b' := isSome_get?_of_perm h key
  rw [keys_insert, keys_insert, hcontains]
  split
  · exact h
  · exact h.append_right [key]

/-- Two insertions under different keys leave the same keys in either order. -/
theorem keys_insert_comm {key other : String} (hne : key ≠ other) (v w : α) (b : Bindings α) :
    (keys ((b.insert other w).insert key v)).Perm (keys ((b.insert key v).insert other w)) := by
  have hkey : contains key (b.insert other w) = contains key b := by
    rw [contains, contains, get?_insert_of_ne hne]
  have hother : contains other (b.insert key v) = contains other b := by
    rw [contains, contains, get?_insert_of_ne hne.symm]
  rw [keys_insert, keys_insert, keys_insert, keys_insert, hkey, hother]
  cases contains key b <;> cases contains other b
  · simpa using (@List.perm_append_comm _ [other] [key]).append_left (keys b)
  all_goals exact .refl _

theorem get?_insert_comm {key other : String} (hne : key ≠ other) (v w : α) (b : Bindings α)
    (name : String) :
    get? name ((b.insert other w).insert key v) = get? name ((b.insert key v).insert other w) := by
  by_cases hkey : name = key
  · rw [hkey, get?_insert_self, get?_insert_of_ne hne, get?_insert_self]
  · by_cases hother : name = other
    · rw [hother, get?_insert_of_ne hne.symm, get?_insert_self, get?_insert_self]
    · rw [get?_insert_of_ne hkey, get?_insert_of_ne hother, get?_insert_of_ne hother,
        get?_insert_of_ne hkey]

/-- Of two insertions under one key the second one counts. -/
theorem insert_insert (key : String) (v w : α) (b : Bindings α) :
    (b.insert key v).insert key w = b.insert key w := by
  induction b with
  | nil => simp [insert]
  | cons pair rest ih =>
    obtain ⟨k, u⟩ := pair
    by_cases hk : k = key <;> simp [insert, hk, ih]

end Bindings

end LiveDocs
