/-!
# Separated text

Splitting a text at every occurrence of one character, and joining pieces with it. Main
statements: `joinChars_splitChars`, joining the pieces gives the text back;
`not_mem_of_mem_splitChars`, no piece holds the separator; `splitChars_append_cons`, splitting
takes the text before and after a separator apart.
-/

namespace LiveDocs.Text

/-- The pieces between the occurrences of `sep`; there is always at least one. -/
def splitChars (sep : Char) : List Char → List (List Char)
  | [] => [[]]
  | c :: rest =>
    if c = sep then [] :: splitChars sep rest
    else
      match splitChars sep rest with
      | [] => [[c]]
      | piece :: pieces => (c :: piece) :: pieces

/-- The pieces with `sep` between neighbours. -/
def joinChars (sep : Char) : List (List Char) → List Char
  | [] => []
  | [piece] => piece
  | piece :: next :: pieces => piece ++ sep :: joinChars sep (next :: pieces)

/-- The pieces of a text. -/
def split (sep : Char) (s : String) : List String := (splitChars sep s.toList).map String.ofList

/-- The text made of pieces. -/
def join (sep : Char) (pieces : List String) : String :=
  String.ofList (joinChars sep (pieces.map String.toList))

theorem splitChars_ne_nil (sep : Char) (cs : List Char) : splitChars sep cs ≠ [] := by
  cases cs with
  | nil => simp [splitChars]
  | cons c rest =>
    rw [splitChars]
    split
    · simp
    · split <;> simp

theorem not_mem_of_mem_splitChars {sep : Char} {cs piece : List Char}
    (h : piece ∈ splitChars sep cs) : sep ∉ piece := by
  induction cs generalizing piece with
  | nil => simp [splitChars] at h; simp [h]
  | cons c rest ih =>
    rw [splitChars] at h
    split at h
    · rcases List.mem_cons.1 h with rfl | h
      · simp
      · exact ih h
    · rename_i hc
      split at h
      · rename_i hnil
        exact absurd hnil (splitChars_ne_nil sep rest)
      · rename_i p ps hsplit
        rcases List.mem_cons.1 h with rfl | h
        · have := @ih p (by simp [hsplit])
          simp [this, Ne.symm hc]
        · exact ih (by simp [hsplit, h])

theorem joinChars_cons_of_ne_nil (sep : Char) (piece : List Char) {pieces : List (List Char)}
    (h : pieces ≠ []) : joinChars sep (piece :: pieces) = piece ++ sep :: joinChars sep pieces := by
  cases pieces with
  | nil => exact absurd rfl h
  | cons p ps => rfl

theorem joinChars_cons_cons (sep c : Char) (piece : List Char) (pieces : List (List Char)) :
    joinChars sep ((c :: piece) :: pieces) = c :: joinChars sep (piece :: pieces) := by
  cases pieces <;> rfl

theorem joinChars_splitChars (sep : Char) (cs : List Char) :
    joinChars sep (splitChars sep cs) = cs := by
  induction cs with
  | nil => rfl
  | cons c rest ih =>
    rw [splitChars]
    split
    · rename_i hc
      rw [joinChars_cons_of_ne_nil sep [] (splitChars_ne_nil sep rest), ih, hc, List.nil_append]
    · split
      · rename_i hnil
        exact absurd hnil (splitChars_ne_nil sep rest)
      · rename_i p ps hsplit
        rw [joinChars_cons_cons, ← hsplit, ih]

theorem splitChars_of_not_mem {sep : Char} {cs : List Char} (h : sep ∉ cs) :
    splitChars sep cs = [cs] := by
  induction cs with
  | nil => rfl
  | cons c rest ih =>
    obtain ⟨hc, hrest⟩ : sep ≠ c ∧ sep ∉ rest := by simpa using h
    rw [splitChars, if_neg (Ne.symm hc), ih hrest]

theorem splitChars_append_cons (sep : Char) (front rest : List Char) :
    splitChars sep (front ++ sep :: rest) = splitChars sep front ++ splitChars sep rest := by
  induction front with
  | nil => simp [splitChars]
  | cons c front ih =>
    rw [List.cons_append, splitChars, splitChars, ih]
    split
    · rfl
    · cases hsplit : splitChars sep front with
      | nil => exact absurd hsplit (splitChars_ne_nil sep front)
      | cons p ps => rfl

end LiveDocs.Text
