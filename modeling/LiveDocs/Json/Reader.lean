import LiveDocs.Json.Basic

/-!
# Reading JSON text

A `Reader` takes a value off the front of a text. Containers nest at most 127 deep. A whole number
that fits in 64 bits, with or without a sign, stays a whole number; every other number becomes a
double, `-0` included. `Json.parseRaw?` keeps several members with one key apart, `Json.parse?`
merges them.
-/

namespace LiveDocs

open Number (Double)

/-- Takes a value off the front of a text, and gives what is left of the text. -/
abbrev Reader (α : Type) := List Char → Option (α × List Char)

namespace Reader

/-- Blanks between tokens: spaces, tabs, line feeds and carriage returns. -/
def isBlank (c : Char) : Bool := c == ' ' || c == '\t' || c == '\n' || c == '\r'

/-- The text after its leading blanks. -/
def skipBlanks (text : List Char) : List Char := text.dropWhile isBlank

/-! ### Strings -/

/-- A piece of a string: a character, or a UTF-16 unit written as an escape. -/
inductive Piece where
  | char (c : Char)
  | unit (n : Nat)

/-- The value of a hexadecimal digit. -/
def hexValue (c : Char) : Option Nat :=
  if '0' ≤ c ∧ c ≤ '9' then some (c.toNat - '0'.toNat)
  else if 'a' ≤ c ∧ c ≤ 'f' then some (c.toNat - 'a'.toNat + 10)
  else if 'A' ≤ c ∧ c ≤ 'F' then some (c.toNat - 'A'.toNat + 10)
  else none

/-- The value of four hexadecimal digits. -/
def hexUnit (a b c d : Char) : Option Nat := do
  return ((← hexValue a) * 16 + (← hexValue b)) * 256 + (← hexValue c) * 16 + (← hexValue d)

/-- The character that an escape of one letter stands for. -/
def shortEscape : Char → Option Char
  | '"' => some '"'
  | '\\' => some '\\'
  | '/' => some '/'
  | 'b' => some '\x08'
  | 'f' => some '\x0c'
  | 'n' => some '\n'
  | 'r' => some '\r'
  | 't' => some '\t'
  | _ => none

/-- The pieces up to the closing quote. A control character may not stand there as it is. -/
def pieces : Reader (List Piece)
  | [] => none
  | '"' :: rest => some ([], rest)
  | '\\' :: 'u' :: a :: b :: c :: d :: rest => do
    let n ← hexUnit a b c d
    let (ps, rest) ← pieces rest
    return (.unit n :: ps, rest)
  | '\\' :: e :: rest => do
    let c ← shortEscape e
    let (ps, rest) ← pieces rest
    return (.char c :: ps, rest)
  | c :: rest =>
    if c = '\\' ∨ c.toNat < 0x20 then none
    else do
      let (ps, rest) ← pieces rest
      return (.char c :: ps, rest)

/-- The characters of the pieces; a surrogate must come in a pair. -/
def joinPieces : List Piece → Option (List Char)
  | [] => some []
  | .char c :: rest => do return c :: (← joinPieces rest)
  | .unit high :: .unit low :: rest =>
    if 0xD800 ≤ high ∧ high < 0xDC00 then
      if 0xDC00 ≤ low ∧ low < 0xE000 then do
        let n := 0x10000 + (high - 0xD800) * 0x400 + (low - 0xDC00)
        return Char.ofNat n :: (← joinPieces rest)
      else none
    else if 0xDC00 ≤ high ∧ high < 0xE000 then none
    else do return Char.ofNat high :: (← joinPieces (.unit low :: rest))
  | .unit n :: rest =>
    if 0xD800 ≤ n ∧ n < 0xE000 then none
    else do return Char.ofNat n :: (← joinPieces rest)

/-- A string, after its opening quote. -/
def stringBody : Reader String := fun text => do
  let (ps, rest) ← pieces text
  return (String.ofList (← joinPieces ps), rest)

/-! ### Numbers -/

/-- A decimal digit. -/
def isDigit (c : Char) : Bool := decide ('0' ≤ c) && decide (c ≤ '9')

/-- The largest number that fits in 64 bits. -/
def wordLimit : Nat := UInt64.size - 1

/-- Appends digits to a number while it fits in 64 bits, and counts those that are left. -/
def collect (word : Nat) : List Char → Nat × Nat
  | [] => (word, 0)
  | c :: rest =>
    let next := word * 10 + (c.toNat - '0'.toNat)
    if next ≤ wordLimit then collect next rest else (word, rest.length + 1)

/-- A run of digits. -/
def digitRun : Reader (List Char) := fun text => some (text.takeWhile isDigit, text.dropWhile isDigit)

/-- The digits after a point; none without a point, and at least one after it. -/
def fraction : Reader (Option (List Char))
  | '.' :: rest => do
    let (ds, rest) ← digitRun rest
    if ds.isEmpty then none else return (some ds, rest)
  | rest => some (none, rest)

/-- The number written by digits. -/
def natOfDigits (ds : List Char) : Nat := ds.foldl (fun n c => n * 10 + (c.toNat - '0'.toNat)) 0

/-- A decimal exponent with its sign; none without an `e`. -/
def exponent : Reader (Option Int)
  | c :: rest =>
    if c = 'e' ∨ c = 'E' then do
      let (negative, rest) := match rest with
        | '-' :: rest => (true, rest)
        | '+' :: rest => (false, rest)
        | rest => (false, rest)
      let (ds, rest) ← digitRun rest
      if ds.isEmpty then none
      else
        let n : Int := natOfDigits ds
        return (some (if negative then -n else n), rest)
    else some (none, c :: rest)
  | [] => some (none, [])

/-- The number made of its parts. Digits beyond 64 bits only count for the exponent. -/
def numberOfParts (negative : Bool) (whole : List Char) (fraction : Option (List Char))
    (exponent : Option Int) : Option JsonNumber :=
  let (word, dropped) := collect 0 whole
  if fraction.isNone && exponent.isNone && dropped == 0 &&
      (!negative || word ≤ UInt64.size / 2 && 0 < word)
  then some (.int (if negative then -(word : Int) else word))
  else
    let after := fraction.getD []
    let (word, droppedAfter) := collect word after
    let scale : Int := dropped - (after.length - droppedAfter : Int) + exponent.getD 0
    (Double.ofDecimal? negative word scale).map .double

/-- A number. A zero in front of other digits is refused. -/
def number : Reader JsonNumber := fun text => do
  let (negative, text) := match text with
    | '-' :: rest => (true, rest)
    | text => (false, text)
  let (whole, text) ← digitRun text
  if whole.isEmpty || (whole.head? == some '0' && whole.length != 1) then none
  let (after, text) ← fraction text
  let (power, text) ← exponent text
  return (← numberOfParts negative whole after power, text)

/-! ### Values -/

/-- A value that is not a container. -/
def scalar : Reader Json
  | 'n' :: 'u' :: 'l' :: 'l' :: rest => some (.null, rest)
  | 't' :: 'r' :: 'u' :: 'e' :: rest => some (.bool true, rest)
  | 'f' :: 'a' :: 'l' :: 's' :: 'e' :: rest => some (.bool false, rest)
  | '"' :: rest => (stringBody rest).map fun (s, rest) => (.string s, rest)
  | text => (number text).map fun (n, rest) => (.number n, rest)

/-- Elements separated by commas up to a closing character, at most `fuel` of them. -/
def sequence {α : Type} (element : Reader α) (close : Char) : (fuel : Nat) → Reader (List α)
  | 0, _ => none
  | fuel + 1, text => do
    let (x, rest) ← element text
    match skipBlanks rest with
    | [] => none
    | c :: rest =>
      if c = ',' then do
        let (xs, rest) ← sequence element close fuel rest
        return (x :: xs, rest)
      else if c = close then some ([x], rest)
      else none

/-- Elements after an opening character; there may be none. -/
def enclosed {α : Type} (element : Reader α) (close : Char) : Reader (List α) := fun text =>
  match skipBlanks text with
  | [] => none
  | c :: rest =>
    if c = close then some ([], rest) else sequence element close (rest.length + 1) (c :: rest)

/-- A key, a colon and a value. -/
def member (value : Reader Json) : Reader (String × Json) := fun text =>
  match skipBlanks text with
  | '"' :: rest => do
    let (key, rest) ← stringBody rest
    match skipBlanks rest with
    | ':' :: rest => (value rest).map fun (v, rest) => ((key, v), rest)
    | _ => none
  | _ => none

/-- A value whose containers nest at most `depth` deep. -/
def value : (depth : Nat) → Reader Json
  | 0, text => scalar (skipBlanks text)
  | depth + 1, text =>
    match skipBlanks text with
    | '[' :: rest => (enclosed (value depth) ']' rest).map fun (xs, rest) => (.array xs, rest)
    | '{' :: rest =>
      (enclosed (member (value depth)) '}' rest).map fun (ms, rest) => (.object ms, rest)
    | text => scalar text

end Reader

/-- The value of a text as it is written, with every member of every object. -/
def Json.parseRaw? (text : String) : Option Json :=
  match Reader.value 127 text.toList with
  | some (v, rest) => if (Reader.skipBlanks rest).isEmpty then some v else none
  | none => none

/-- The value of a text. Of several members with one key the last wins, in the place of the
first. -/
def Json.parse? (text : String) : Option Json := (parseRaw? text).map merged

end LiveDocs
