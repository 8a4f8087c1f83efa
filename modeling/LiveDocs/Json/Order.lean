import LiveDocs.Json.Printer

/-!
# The order of values

A store sorts and compares values by type first (null, booleans, numbers, strings, arrays, objects)
and by value second: numbers as doubles, strings by code point, arrays item by item and then by
length, objects by their text.
-/

namespace LiveDocs

namespace Json

/-- The place of a value's type. -/
def typeRank : Json → Nat
  | null => 0
  | bool _ => 1
  | number _ => 2
  | string _ => 3
  | array _ => 4
  | object _ => 5

mutual

/-- The order of two values. -/
def order : Json → Json → Ordering
  | bool a, bool b => compare a b
  | number a, number b => compare a.key b.key
  | string a, string b => compare a b
  | array a, array b => orderItems a b
  | object a, object b => compare (compact (object a)) (compact (object b))
  | a, b => compare a.typeRank b.typeRank

/-- The order of two lists: by the first items that differ, then by length. -/
def orderItems : List Json → List Json → Ordering
  | [], [] => .eq
  | [], _ :: _ => .lt
  | _ :: _, [] => .gt
  | a :: as, b :: bs => (order a b).then (orderItems as bs)

end

/-- The values compare as equal. -/
def equivalent (a b : Json) : Bool := order a b == .eq

/-- The values are of one type. -/
def sameType (a b : Json) : Bool := a.typeRank == b.typeRank

end Json

end LiveDocs
