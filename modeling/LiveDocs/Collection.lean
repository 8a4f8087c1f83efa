import LiveDocs.Json.Basic

/-!
# Collections

The documents of a collection in ascending order of their ids. Main statements: `distinct_entries`,
no id occurs twice; `get?_insert_self`, `get?_insert_of_ne`, `get?_erase_self` and
`get?_erase_of_ne`, a write touches one id only.
-/

namespace LiveDocs

/-- Documents by id. -/
structure Collection where
  entries : List (String × Members)
  ascending : entries.Pairwise fun a b => a.1 < b.1

namespace Collection

/-- The collection without documents. -/
def empty : Collection := ⟨[], .nil⟩

instance : Inhabited Collection := ⟨empty⟩

/-- The document with this id. -/
def get? (c : Collection) (id : String) : Option Members := Bindings.get? id c.entries

/-- Puts a document in its place. -/
def insertEntry (id : String) (data : Members) : List (String × Members) → List (String × Members)
  | [] => [(id, data)]
  | (key, value) :: rest =>
    if id < key then (id, data) :: (key, value) :: rest
    else if key = id then (id, data) :: rest
    else (key, value) :: insertEntry id data rest

theorem mem_insertEntry {id : String} {data : Members} {entries : List (String × Members)}
    {entry : String × Members} (h : entry ∈ insertEntry id data entries) :
    entry = (id, data) ∨ entry ∈ entries := by
  induction entries with
  | nil => exact .inl (List.mem_singleton.1 h)
  | cons head rest ih =>
    obtain ⟨key, value⟩ := head
    rw [insertEntry] at h
    split at h
    · exact List.mem_cons.1 h
    · split at h
      · exact (List.mem_cons.1 h).imp (fun he => he) fun hr => List.mem_cons_of_mem _ hr
      · rcases List.mem_cons.1 h with rfl | h
        · exact .inr (by simp)
        · exact (ih h).imp (fun he => he) fun hr => List.mem_cons_of_mem _ hr

theorem lt_of_not_lt_of_ne {s t : String} (hlt : ¬s < t) (hne : t ≠ s) : t < s := by
  rcases Std.le_iff_lt_or_eq.1 (String.not_lt.1 hlt) with h | h
  · exact h
  · exact absurd h hne

theorem ascending_insertEntry {id : String} {data : Members} {entries : List (String × Members)}
    (h : entries.Pairwise fun a b => a.1 < b.1) :
    (insertEntry id data entries).Pairwise fun a b => a.1 < b.1 := by
  induction entries with
  | nil => simp [insertEntry]
  | cons head rest ih =>
    obtain ⟨key, value⟩ := head
    obtain ⟨hhead, hrest⟩ := List.pairwise_cons.1 h
    rw [insertEntry]
    split
    · rename_i hlt
      refine List.pairwise_cons.2 ⟨fun entry he => ?_, h⟩
      rcases List.mem_cons.1 he with rfl | he
      · exact hlt
      · exact String.lt_trans hlt (hhead entry he)
    · rename_i hlt
      split
      · rename_i heq
        exact List.pairwise_cons.2 ⟨fun entry he => heq ▸ hhead entry he, hrest⟩
      · rename_i hne
        refine List.pairwise_cons.2 ⟨fun entry he => ?_, ih hrest⟩
        rcases mem_insertEntry he with rfl | he
        · exact lt_of_not_lt_of_ne hlt hne
        · exact hhead entry he

/-- No id occurs twice. -/
theorem distinct_entries (c : Collection) : Bindings.Distinct c.entries := by
  refine List.pairwise_map.2 (c.ascending.imp fun {a b} hlt heq => ?_)
  rw [heq] at hlt
  exact String.lt_irrefl b.1 hlt

/-- Stores a document under an id. -/
def insert (c : Collection) (id : String) (data : Members) : Collection :=
  ⟨insertEntry id data c.entries, ascending_insertEntry c.ascending⟩

/-- Removes the document with this id. -/
def erase (c : Collection) (id : String) : Collection :=
  ⟨c.entries.filter (·.1 ≠ id), c.ascending.filter _⟩

/-- The collection of some documents, where the last one with an id counts. -/
def ofPairs (pairs : List (String × Members)) : Collection :=
  pairs.foldl (fun c pair => c.insert pair.1 pair.2) empty

/-! ### Reading after writing -/

theorem get?_insert_self (c : Collection) (id : String) (data : Members) :
    (c.insert id data).get? id = some data := by
  simp only [get?, insert]
  induction c.entries with
  | nil => simp [insertEntry, Bindings.get?]
  | cons head rest ih =>
    obtain ⟨key, value⟩ := head
    rw [insertEntry]
    split
    · simp [Bindings.get?]
    · split
      · simp [Bindings.get?]
      · rename_i hne
        simp [Bindings.get?, hne, ih]

theorem get?_insert_of_ne (c : Collection) {id other : String} (h : other ≠ id) (data : Members) :
    (c.insert id data).get? other = c.get? other := by
  simp only [get?, insert]
  induction c.entries with
  | nil => simp [insertEntry, Bindings.get?, Ne.symm h]
  | cons head rest ih =>
    obtain ⟨key, value⟩ := head
    rw [insertEntry]
    split
    · simp [Bindings.get?, Ne.symm h]
    · split
      · rename_i heq
        simp [Bindings.get?, heq, Ne.symm h]
      · simp [Bindings.get?, ih]

theorem get?_erase_self (c : Collection) (id : String) : (c.erase id).get? id = none := by
  simp only [get?, erase]
  rw [Bindings.get?_eq_none_iff, Bindings.keys]
  intro hmem
  obtain ⟨entry, he, hid⟩ := List.mem_map.1 hmem
  simpa [hid] using (List.mem_filter.1 he).2

theorem get?_erase_of_ne (c : Collection) {id other : String} (h : other ≠ id) :
    (c.erase id).get? other = c.get? other := by
  simp only [get?, erase]
  induction c.entries with
  | nil => rfl
  | cons head rest ih =>
    obtain ⟨key, value⟩ := head
    by_cases hkey : key = id
    · rw [List.filter_cons_of_neg (by simp [hkey]), ih, Bindings.get?, if_neg]
      rw [hkey]
      exact Ne.symm h
    · rw [List.filter_cons_of_pos (by simp [hkey]), Bindings.get?, Bindings.get?, ih]

end Collection

end LiveDocs
