import LiveDocs.Text.Character

/-!
# Typenames from field names

A field that names no type gets one from its own name: one trailing `s` is dropped and the words
of the rest are joined in PascalCase, so `users` gives `User` and `line_items` gives `LineItem`.
Main statements: `flatten_wordsFrom`, the words hold exactly the alphanumeric characters in
order, and `ne_nil_of_mem_wordsFrom`, no word is empty.
-/

namespace LiveDocs.Text

/-- The word collected so far, unless it is empty. -/
def flushWord (current : List Char) : List (List Char) := if current.isEmpty then [] else [current]

/-- An uppercase `c` starts a new word after a lowercase character or an ASCII digit, and after an
uppercase one if a lowercase character follows it: `fooBar` breaks before `B`, `HTTPRequest`
before `R`. -/
def startsWord (current : List Char) (c : Char) (rest : List Char) : Bool :=
  isUppercase c &&
    match current.getLast? with
    | none => false
    | some previous =>
      isLowercase previous || isAsciiDigit previous ||
        (isUppercase previous && rest.head?.any isLowercase)

/-- The words of a text whose first word already holds `current`. -/
def wordsFrom (current : List Char) : List Char → List (List Char)
  | [] => flushWord current
  | c :: rest =>
    if isAlphanumeric c = false then flushWord current ++ wordsFrom [] rest
    else if startsWord current c rest then current :: wordsFrom [c] rest
    else wordsFrom (current ++ [c]) rest

/-- The words of a name: runs of alphanumeric characters, broken where the case changes. -/
def words (name : String) : List (List Char) := wordsFrom [] name.toList

/-- A word with its first character in uppercase and the others in lowercase. -/
def capitalize : List Char → List Char
  | [] => []
  | c :: rest => uppercase c ++ rest.flatMap lowercase

/-- The words of a name, capitalized and joined. -/
def pascalCase (name : String) : String := String.ofList ((words name).flatMap capitalize)

/-- A name without its last character, if that is an `s` of either case. -/
def singular (name : String) : String :=
  match name.toList.getLast? with
  | some 's' | some 'S' => String.ofList name.toList.dropLast
  | _ => name

/-- The typename given explicitly, or the one made from the field's name. An empty explicit name
counts as none. -/
def typename (explicit : Option String) (field : String) : String :=
  match explicit with
  | some name => if name = "" then pascalCase (singular field) else name
  | none => pascalCase (singular field)

theorem flatten_flushWord (current : List Char) : (flushWord current).flatten = current := by
  cases current <;> simp [flushWord]

theorem startsWord_nil (c : Char) (rest : List Char) : startsWord [] c rest = false := by
  simp [startsWord]

theorem flatten_wordsFrom (current cs : List Char) :
    (wordsFrom current cs).flatten = current ++ cs.filter isAlphanumeric := by
  induction cs generalizing current with
  | nil => simp [wordsFrom, flatten_flushWord]
  | cons c rest ih =>
    rw [wordsFrom]
    split
    · rename_i h
      simp [flatten_flushWord, ih, h]
    · rename_i h
      have hc : isAlphanumeric c = true := by simpa using h
      split <;> simp [ih, hc]

theorem ne_nil_of_mem_wordsFrom {current cs word : List Char}
    (h : word ∈ wordsFrom current cs) : word ≠ [] := by
  induction cs generalizing current with
  | nil =>
    cases current with
    | nil => simp [wordsFrom, flushWord] at h
    | cons c cs => simp [wordsFrom, flushWord] at h; simp [h]
  | cons c rest ih =>
    rw [wordsFrom] at h
    split at h
    · rcases List.mem_append.1 h with h | h
      · cases current with
        | nil => simp [flushWord] at h
        | cons c cs => simp [flushWord] at h; simp [h]
      · exact ih h
    · split at h
      · rename_i hs
        rcases List.mem_cons.1 h with rfl | h
        · rintro rfl
          simp [startsWord_nil] at hs
        · exact ih h
      · exact ih h

end LiveDocs.Text
