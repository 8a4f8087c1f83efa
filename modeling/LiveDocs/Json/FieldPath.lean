import LiveDocs.Json.Basic
import LiveDocs.Text.Separated

/-!
# Field paths

A dotted path leads through nested objects to a field of a document. Reading follows objects only;
writing makes the objects it misses, in place of whatever is not an object. Main statement:
`readAt_writeAt_self`, a field that was written reads back.
-/

namespace LiveDocs

namespace Members

/-- The value that the segments lead to. -/
def readAt : List String → Members → Option Json
  | [], _ => none
  | [key], members => Bindings.get? key members
  | key :: next :: rest, members =>
    match Bindings.get? key members with
    | some (.object inner) => readAt (next :: rest) inner
    | _ => none

/-- Writes a value where the segments lead. -/
def writeAt (value : Json) : List String → Members → Members
  | [], members => members
  | [key], members => members.insert key value
  | key :: next :: rest, members =>
    let inner := match Bindings.get? key members with
      | some (.object inner) => inner
      | _ => []
    members.insert key (.object (writeAt value (next :: rest) inner))

/-- The value at a dotted path. -/
def read (path : String) (members : Members) : Option Json := readAt (Text.split '.' path) members

/-- Writes a value at a dotted path. -/
def write (path : String) (value : Json) (members : Members) : Members :=
  writeAt value (Text.split '.' path) members

theorem readAt_writeAt_self (value : Json) {segments : List String} (h : segments ≠ [])
    (members : Members) : readAt segments (writeAt value segments members) = some value := by
  fun_induction writeAt value segments members with
  | case1 => exact absurd rfl h
  | case2 => simp [readAt, Bindings.get?_insert_self]
  | case3 key next rest members inner ih =>
    simp only [readAt, Bindings.get?_insert_self]
    exact ih (by simp)

end Members

mutual

/-- The value that `new` leaves of `old`: objects are merged member by member, all else is
replaced. -/
def Json.mergeInto : (new old : Json) → Json
  | .object new, .object old => .object (mergeMembers new old)
  | new, _ => new

/-- Merges members one after the other. -/
def Json.mergeMembers : (new : List (String × Json)) → (old : Members) → Members
  | [], old => old
  | (key, value) :: rest, old =>
    let merged := match Bindings.get? key old with
      | some current => mergeInto value current
      | none => value
    mergeMembers rest (old.insert key merged)

end

end LiveDocs
