import LiveDocs.Json.Basic

/-!
# Decoding JSON values

A `Decoder` takes a value apart or refuses it. Records are written as objects, whose unknown
members are ignored, or as arrays of their fields in declared order, where trailing fields may be
left out; enumerations are written as their name or as an object with the name as its only key and
null as its value.
-/

namespace LiveDocs

/-- Takes a value apart, or refuses it. -/
abbrev Decoder (α : Type) := Json → Option α

namespace Decoder

variable {α : Type}

/-- A string. -/
def string : Decoder String := Json.string?

/-- True or false. -/
def bool : Decoder Bool
  | .bool value => some value
  | _ => none

/-- A natural number below `2 ^ 64`. -/
def size : Decoder Nat := fun v => do
  let n ← v.nat?
  if n < UInt64.size then some n else none

/-- Null, or something else. -/
def nullable (decode : Decoder α) : Decoder (Option α)
  | .null => some none
  | v => (decode v).map some

/-- An array. -/
def list (decode : Decoder α) : Decoder (List α)
  | .array items => items.mapM decode
  | _ => none

/-- An object, as bindings. -/
def bindings (decode : Decoder α) : Decoder (Bindings α)
  | .object members => do
    let pairs ← members.mapM fun (key, v) => return (key, ← decode v)
    return Bindings.ofPairs pairs
  | _ => none

/-- Any value. -/
def value : Decoder Json := fun v => some v.merged

/-- One of the names of an enumeration. -/
def enumeration (ofName? : String → Option α) : Decoder α
  | .string name => ofName? name
  | .object [(name, .null)] => ofName? name
  | _ => none

/-- The values of the named fields of a record, absent ones as none. -/
def record (names : List String) : Decoder (List (Option Json))
  | .object members =>
    names.mapM fun name =>
      match members.filter (·.1 == name) with
      | [] => some none
      | [(_, v)] => some (some v)
      | _ => none
  | .array items =>
    if items.length ≤ names.length then some (names.zipIdx.map fun (_, i) => items[i]?) else none
  | _ => none

/-- A field that has to be there. -/
def required (decode : Decoder α) (field : Option Json) : Option α := field.bind decode

/-- A field that has a default. -/
def withDefault (default : α) (decode : Decoder α) : Option Json → Option α
  | none => some default
  | some v => decode v

end Decoder

end LiveDocs
