import LiveDocs.Reference
import LiveDocs.Json.FieldPath

/-!
# Snapshots

A snapshot is one read of a document: its fields if it exists, and the values that the server has
not confirmed yet. Reading follows a dotted path into nested objects, and whatever is missing
reads as null. Main statement: `get_of_pending`, a pending value hides the stored one.
-/

namespace LiveDocs

/-- A value that the server has not confirmed yet: the local estimate and the value before. -/
structure PendingValue where
  estimate : Json
  previous : Json

/-- The pending value as a mode reads it. -/
def PendingValue.read (v : PendingValue) : PendingMode → Json
  | .hidden => .null
  | .estimate => v.estimate
  | .previous => v.previous

/-- A read of a document. -/
structure Snapshot where
  reference : DocumentRef
  data : Option Members
  pending : Bindings PendingValue
  cached : Bool

namespace Snapshot

/-- The id of the document. -/
def id (s : Snapshot) : String := s.reference.id

/-- The document existed when it was read. -/
def exists? (s : Snapshot) : Bool := s.data.isSome

/-- The value at a field path. -/
def get (s : Snapshot) (path : String) (mode : PendingMode) : Json :=
  match Bindings.get? path s.pending with
  | some v => v.read mode
  | none => (s.data.bind (Members.read path)).getD .null

theorem get_of_pending {s : Snapshot} {path : String} {v : PendingValue}
    (h : Bindings.get? path s.pending = some v) (mode : PendingMode) :
    s.get path mode = v.read mode := by
  rw [get, h]

theorem get_of_missing {s : Snapshot} (hdata : s.data = none) {path : String}
    (hpending : Bindings.get? path s.pending = none) (mode : PendingMode) :
    s.get path mode = .null := by
  rw [get, hpending, hdata]
  rfl

theorem get_of_data {s : Snapshot} {data : Members} (hdata : s.data = some data) {path : String}
    (hpending : Bindings.get? path s.pending = none) (mode : PendingMode) :
    s.get path mode = (data.read path).getD .null := by
  rw [get, hpending, hdata]
  rfl

end Snapshot

end LiveDocs
