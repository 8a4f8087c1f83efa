/-!
# Ordered bindings

Values bound to names, in the order in which the names were first bound. Binding a name again
replaces its value and keeps its place. Main statements: `get?_insert_self` and
`get?_insert_of_ne`, an insertion changes one name only; `keys_insert`, it appends the name or
leaves the names as they are; `Distinct.insert`, names stay distinct; `get?_insertAll`, of several
bindings of a name the last one counts.
-/

namespace LiveDocs

/-- Values bound to names, in order of first binding. -/
abbrev Bindings (α : Type) := List (String × α)

namespace Bindings

variable {α β : Type}

/-- The names, in order. -/
def keys (b : Bindings α) : List String := b.map Prod.fst

/-- The value bound to a name. -/
def get? (key : String) : Bindings α → Option α
  | [] => none
  | (k, v) :: rest => if k = key then some v else get? key rest

/-- A name is bound. -/
def contains (key : String) (b : Bindings α) : Bool := (get? key b).isSome

/-- Binds a name: in its old place if it is bound already, at the end otherwise. -/
def insert (key : String) (value : α) : Bindings α → Bindings α
  | [] => [(key, value)]
  | (k, v) :: rest => if k = key then (k, value) :: rest else (k, v) :: insert key value rest

/-- Binds the pairs of a list one after the other. -/
def insertAll (b : Bindings α) (pairs : List (String × α)) : Bindings α :=
  pairs.foldl (fun acc pair => insert pair.1 pair.2 acc) b

/-- The bindings made by a list of pairs. -/
def ofPairs (pairs : List (String × α)) : Bindings α := insertAll [] pairs

/-- No name occurs twice. -/
def Distinct (b : Bindings α) : Prop := (keys b).Nodup

/-- The bindings of `b`, and after them those of `defaults` whose names `b` leaves unbound. -/
def withDefaults (b defaults : Bindings α) : Bindings α :=
  defaults.foldl (fun acc pair => if contains pair.1 acc then acc else acc ++ [pair]) b

@[simp] theorem get?_nil (key : String) : get? key ([] : Bindings α) = none := rfl

theorem get?_insert_self (key : String) (value : α) (b : Bindings α) :
    get? key (insert key value b) = some value := by
  induction b with
  | nil => simp [insert, get?]
  | cons pair rest ih =>
    obtain ⟨k, v⟩ := pair
    rw [insert]
    split
    · rename_i h
      simp [get?, h]
    · rename_i h
      simp [get?, h, ih]

theorem get?_insert_of_ne {key other : String} (h : other ≠ key) (value : α) (b : Bindings α) :
    get? other (insert key value b) = get? other b := by
  induction b with
  | nil => simp [insert, get?, Ne.symm h]
  | cons pair rest ih =>
    obtain ⟨k, v⟩ := pair
    rw [insert]
    split
    · rename_i hk
      simp [get?, hk, Ne.symm h]
    · simp [get?, ih]

theorem get?_eq_none_iff {key : String} {b : Bindings α} :
    get? key b = none ↔ key ∉ keys b := by
  induction b with
  | nil => simp [keys]
  | cons pair rest ih =>
    obtain ⟨k, v⟩ := pair
    rw [get?]
    split
    · rename_i h
      simp [keys, h]
    · rename_i h
      rw [ih]
      simp [keys, Ne.symm h]

theorem contains_iff {key : String} {b : Bindings α} : contains key b = true ↔ key ∈ keys b := by
  rw [contains, Option.isSome_iff_ne_none, ne_eq, get?_eq_none_iff, Decidable.not_not]

/-- A name that is bound keeps its place, a new one comes last. -/
theorem keys_insert (key : String) (value : α) (b : Bindings α) :
    keys (insert key value b) = if contains key b then keys b else keys b ++ [key] := by
  induction b with
  | nil => simp [insert, keys, contains]
  | cons pair rest ih =>
    obtain ⟨k, v⟩ := pair
    rw [insert]
    split
    · rename_i h
      simp [keys, contains, get?, h]
    · rename_i h
      have hc : contains key ((k, v) :: rest) = contains key rest := by
        simp [contains, get?, h]
      rw [hc]
      simp only [keys, List.map_cons] at ih ⊢
      rw [ih]
      split <;> simp

theorem Distinct.insert {b : Bindings α} (h : Distinct b) (key : String) (value : α) :
    Distinct (b.insert key value) := by
  rw [Distinct, keys_insert]
  split
  · exact h
  · rename_i hc
    have hmem : key ∉ keys b := fun hk => hc (contains_iff.2 hk)
    rw [List.nodup_append]
    refine ⟨h, by simp, ?_⟩
    intro a ha c hc
    rcases List.mem_singleton.1 hc with rfl
    rintro rfl
    exact hmem ha

theorem distinct_insertAll {b : Bindings α} (h : Distinct b) (pairs : List (String × α)) :
    Distinct (b.insertAll pairs) := by
  induction pairs generalizing b with
  | nil => exact h
  | cons pair rest ih => exact ih (h.insert pair.1 pair.2)

theorem distinct_ofPairs (pairs : List (String × α)) : Distinct (ofPairs pairs) :=
  distinct_insertAll (by simp [Distinct, keys]) pairs

theorem get?_append (key : String) (b b' : Bindings α) :
    get? key (b ++ b') = (get? key b).or (get? key b') := by
  induction b with
  | nil => rfl
  | cons pair rest ih =>
    obtain ⟨k, v⟩ := pair
    rw [List.cons_append, get?, get?]
    split
    · rfl
    · exact ih

/-- Of the pairs that bind a name, the last one counts. -/
theorem get?_insertAll (key : String) (b : Bindings α) (pairs : List (String × α)) :
    get? key (b.insertAll pairs) = (get? key pairs.reverse).or (get? key b) := by
  induction pairs generalizing b with
  | nil => rfl
  | cons pair rest ih =>
    obtain ⟨k, v⟩ := pair
    rw [insertAll, List.foldl_cons, ← insertAll, ih, List.reverse_cons, get?_append,
      Option.or_assoc]
    congr 1
    by_cases hk : k = key
    · subst hk
      simp [get?, get?_insert_self]
    · rw [get?_insert_of_ne (Ne.symm hk)]
      simp [get?, hk]

theorem get?_ofPairs (key : String) (pairs : List (String × α)) :
    get? key (ofPairs pairs) = get? key pairs.reverse := by
  rw [ofPairs, get?_insertAll, get?_nil, Option.or_none]

end Bindings

end LiveDocs
