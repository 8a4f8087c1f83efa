import LiveDocs.Text.ClassTable
import LiveDocs.Text.CaseTable

/-!
# Character classes and case mappings

Predicates and mappings of single characters after the Unicode 15.1 tables. An uppercase or
lowercase form may have several characters (`ß` becomes `SS`), and no mapping looks at the
neighbours of its character.
-/

namespace LiveDocs.Text

/-- A letter, a mark or digit that counts as alphabetic, or any number. -/
def isAlphanumeric (c : Char) : Bool := searchSpans alphanumericSpans c.toNat

/-- A lowercase character. -/
def isLowercase (c : Char) : Bool := searchSpans lowercaseSpans c.toNat

/-- An uppercase character. -/
def isUppercase (c : Char) : Bool := searchSpans uppercaseSpans c.toNat

/-- One of the ten ASCII digits. -/
def isAsciiDigit (c : Char) : Bool := decide ('0' ≤ c) && decide (c ≤ '9')

/-- A character that a word may hold: alphabetic, a mark, a decimal digit, connector punctuation
or a joiner. -/
def isWordChar (c : Char) : Bool :=
  (isAlphanumeric c && !searchSpans otherNumberSpans c.toNat) || searchSpans attachedSpans c.toNat

/-- The expansion listed for a code point. -/
def lookupExpansion : List (Nat × List Nat) → Nat → Option (List Char)
  | [], _ => none
  | (m, image) :: rest, n => if m = n then some (image.map Char.ofNat) else lookupExpansion rest n

/-- The mapping given by a list of shifts and a list of expansions; all else stays as it is. -/
def mapCase (shifts : List Shift) (expansions : List (Nat × List Nat)) (c : Char) : List Char :=
  match searchShifts shifts c.toNat with
  | some n => [Char.ofNat n]
  | none => (lookupExpansion expansions c.toNat).getD [c]

/-- The full uppercase form of a character. -/
def uppercase (c : Char) : List Char := mapCase uppercaseShifts uppercaseExpansions c

/-- The full lowercase form of a character. -/
def lowercase (c : Char) : List Char := mapCase lowercaseShifts lowercaseExpansions c

/-- Lowers the ASCII letters of a text and leaves every other character as it is. -/
def asciiLower (s : String) : String := s.map Char.toLower

end LiveDocs.Text
