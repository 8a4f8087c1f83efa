import LiveDocs.Json.Basic
import LiveDocs.Number.Shortest

/-!
# JSON text of values

`Json.compact` writes a value without blanks, `Json.pretty` over several lines with an indentation
of two. Strings escape only quotes, backslashes and control characters. A double is written with
the shortest digits that read back, positionally when its first digit stands for a power of ten
from `10⁻⁵` to `10¹⁵`, and always with a point or an exponent.
-/

namespace LiveDocs

open Number (Double shortest)

namespace Number

/-- The decimal digits of a number. -/
def digits (n : Nat) : List Char := Nat.toDigits 10 n

/-- Decimal notation of `digits`, where the first one stands for `10 ^ exponent`: positional from
`10⁻⁵` to `10¹⁵`, scientific outside. -/
def layout (digits : List Char) (exponent : Int) : List Char :=
  if -5 ≤ exponent ∧ exponent < 0 then
    '0' :: '.' :: (List.replicate (exponent.natAbs - 1) '0' ++ digits)
  else if 0 ≤ exponent ∧ exponent ≤ 15 then
    let whole := exponent.toNat + 1
    if digits.length ≤ whole then
      digits ++ List.replicate (whole - digits.length) '0' ++ ['.', '0']
    else digits.take whole ++ '.' :: digits.drop whole
  else
    let mantissa := match digits with
      | first :: second :: rest => first :: '.' :: second :: rest
      | short => short
    mantissa ++ 'e' :: (if exponent < 0 then '-' else '+') :: Nat.toDigits 10 exponent.natAbs

/-- The text of a double. -/
def Double.text (d : Double) : String :=
  let unsigned :=
    if d.magnitude = 0 then ['0', '.', '0']
    else
      let (c, x) := shortest d.magnitude
      let ds := digits c
      layout ds (x + ds.length - 1)
  String.ofList (if d.negative then '-' :: unsigned else unsigned)

end Number

/-- The text of a number. -/
def JsonNumber.text : JsonNumber → String
  | int value => if value < 0 then "-" ++ toString value.natAbs else toString value.natAbs
  | double value => value.text

namespace Json

/-- A hexadecimal digit in lowercase. -/
def hexDigit (n : Nat) : Char := if n < 10 then Char.ofNat (48 + n) else Char.ofNat (87 + n)

/-- A character as it stands inside quotes. -/
def escapeChar (c : Char) : List Char :=
  if c = '"' then ['\\', '"']
  else if c = '\\' then ['\\', '\\']
  else if c = '\n' then ['\\', 'n']
  else if c = '\r' then ['\\', 'r']
  else if c = '\t' then ['\\', 't']
  else if c = '\x08' then ['\\', 'b']
  else if c = '\x0c' then ['\\', 'f']
  else if c.toNat < 0x20 then ['\\', 'u', '0', '0', hexDigit (c.toNat / 16), hexDigit (c.toNat % 16)]
  else [c]

/-- A text in quotes. -/
def quote (s : String) : String := String.ofList ('"' :: (s.toList.flatMap escapeChar ++ ['"']))

mutual

/-- The text of a value without blanks. -/
def compact : Json → String
  | null => "null"
  | bool true => "true"
  | bool false => "false"
  | number value => value.text
  | string value => quote value
  | array items => "[" ++ compactItems items ++ "]"
  | object members => "\x7b" ++ compactMembers members ++ "\x7d"

/-- Items separated by commas. -/
def compactItems : List Json → String
  | [] => ""
  | [item] => compact item
  | item :: next :: rest => compact item ++ "," ++ compactItems (next :: rest)

/-- Members separated by commas. -/
def compactMembers : List (String × Json) → String
  | [] => ""
  | [(key, value)] => quote key ++ ":" ++ compact value
  | (key, value) :: next :: rest =>
    quote key ++ ":" ++ compact value ++ "," ++ compactMembers (next :: rest)

end

/-- A line break and the indentation of a nesting depth. -/
def lineBreak (depth : Nat) : String := String.ofList ('\n' :: List.replicate (2 * depth) ' ')

mutual

/-- The text of a value over several lines, at a nesting depth. -/
def prettyAt (depth : Nat) : Json → String
  | array [] => "[]"
  | array (item :: rest) =>
    "[" ++ prettyItems (depth + 1) (item :: rest) ++ lineBreak depth ++ "]"
  | object [] => "\x7b\x7d"
  | object (member :: rest) =>
    "\x7b" ++ prettyMembers (depth + 1) (member :: rest) ++ lineBreak depth ++ "\x7d"
  | null => "null"
  | bool true => "true"
  | bool false => "false"
  | number value => value.text
  | string value => quote value

/-- Items on lines of their own. -/
def prettyItems (depth : Nat) : List Json → String
  | [] => ""
  | [item] => lineBreak depth ++ prettyAt depth item
  | item :: next :: rest =>
    lineBreak depth ++ prettyAt depth item ++ "," ++ prettyItems depth (next :: rest)

/-- Members on lines of their own. -/
def prettyMembers (depth : Nat) : List (String × Json) → String
  | [] => ""
  | [(key, value)] => lineBreak depth ++ quote key ++ ": " ++ prettyAt depth value
  | (key, value) :: next :: rest =>
    lineBreak depth ++ quote key ++ ": " ++ prettyAt depth value ++ "," ++
      prettyMembers depth (next :: rest)

end

/-- The text of a value over several lines. -/
def pretty (value : Json) : String := prettyAt 0 value

end Json

end LiveDocs
