import LiveDocs.Bindings
import LiveDocs.Number.Double

/-!
# JSON values

Documents, variables, exports and responses are JSON values. A number is a whole number or a
double and stays what it was written as. The members of an object keep their order.
`Json.same` is equality up to the order of members and the sign of zero; `Json.merged` gives each
object distinct keys, the last of several members with one key winning in the place of the first.
-/

namespace LiveDocs

open Number (Double)

/-- A JSON number: a whole number, or a double. -/
inductive JsonNumber where
  | int (value : Int)
  | double (value : Double)
  deriving DecidableEq

namespace JsonNumber

/-- The double nearest to the number. -/
def toDouble : JsonNumber → Double
  | int value => .ofInt value
  | double value => value

/-- A whole number in the order of the numbers' values as doubles. -/
def key (n : JsonNumber) : Int := n.toDouble.key

/-- Equality within one of the two kinds: `1` and `1.0` differ, the two zeros do not. -/
def same : JsonNumber → JsonNumber → Bool
  | int a, int b => a == b
  | double a, double b => a.key == b.key
  | _, _ => false

end JsonNumber

/-- A JSON value. -/
inductive Json where
  | null
  | bool (value : Bool)
  | number (value : JsonNumber)
  | string (value : String)
  | array (items : List Json)
  | object (members : List (String × Json))

instance : Inhabited Json := ⟨.null⟩

/-- The fields of a document or the members of any other object. -/
abbrev Members := Bindings Json

namespace Json

/-- A whole number as a JSON value. -/
def int (value : Int) : Json := .number (.int value)

/-- A natural number as a JSON value. -/
def nat (value : Nat) : Json := .int value

/-- The member of an object; any other value has none. -/
def get? (key : String) : Json → Option Json
  | object members => Bindings.get? key members
  | _ => none

/-- The text of a string. -/
def string? : Json → Option String
  | string value => some value
  | _ => none

/-- The items of an array. -/
def items? : Json → Option (List Json)
  | array items => some items
  | _ => none

/-- The members of an object. -/
def members? : Json → Option Members
  | object members => some members
  | _ => none

/-- A whole number that is not negative. -/
def nat? : Json → Option Nat
  | number (.int value) => if 0 ≤ value then some value.toNat else none
  | _ => none

/-- The value is null. -/
def isNull : Json → Bool
  | null => true
  | _ => false

/-- Null, false, a zero of any kind and the empty text count as absent arguments. -/
def isFalsy : Json → Bool
  | null => true
  | bool value => !value
  | number value => value.toDouble.isZero
  | string value => value == ""
  | array _ => false
  | object _ => false

mutual

/-- Equality that ignores the order of members and the sign of zero. -/
def same : Json → Json → Bool
  | null, null => true
  | bool a, bool b => a == b
  | number a, number b => a.same b
  | string a, string b => a == b
  | array a, array b => sameItems a b
  | object a, object b => a.length == b.length && sameMembers a b
  | _, _ => false

/-- Two lists agree item by item. -/
def sameItems : List Json → List Json → Bool
  | [], [] => true
  | a :: as, b :: bs => same a b && sameItems as bs
  | _, _ => false

/-- Each of the members on the left is also on the right. -/
def sameMembers : List (String × Json) → Members → Bool
  | [], _ => true
  | (key, value) :: rest, other =>
    (match Bindings.get? key other with
      | some found => same value found
      | none => false) && sameMembers rest other

end

mutual

/-- The value with distinct keys in every object. -/
def merged : Json → Json
  | null => null
  | bool value => bool value
  | number value => number value
  | string value => string value
  | array items => array (mergedItems items)
  | object members => object (Bindings.ofPairs (mergedMembers members))

/-- The items, each with distinct keys. -/
def mergedItems : List Json → List Json
  | [] => []
  | item :: rest => merged item :: mergedItems rest

/-- The members, each value with distinct keys. -/
def mergedMembers : List (String × Json) → List (String × Json)
  | [] => []
  | (key, value) :: rest => (key, merged value) :: mergedMembers rest

end

/-! ### Laws -/

theorem string?_eq_some_iff {v : Json} {s : String} : v.string? = some s ↔ v = .string s := by
  cases v <;> simp [string?]

theorem bind_string?_eq_some_iff {value? : Option Json} {s : String} :
    value?.bind string? = some s ↔ value? = some (.string s) := by
  simp only [Option.bind_eq_some_iff, string?_eq_some_iff, exists_eq_right]

theorem nat?_eq_some_iff {v : Json} {n : Nat} : v.nat? = some n ↔ v = .nat n := by
  constructor
  · intro h
    unfold nat? at h
    split at h
    · rename_i value
      split at h
      · rename_i hnonneg
        have hvalue : value = (n : Int) := by
          have htoNat := Option.some.inj h
          omega
        rw [hvalue]
        rfl
      · cases h
    · cases h
  · rintro rfl
    rfl

end Json

end LiveDocs
