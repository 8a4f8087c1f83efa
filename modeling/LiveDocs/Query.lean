import LiveDocs.Reference
import LiveDocs.Json.Basic

/-!
# Queries

A query selects documents of one collection by a list of operations: cursors that cut the list off
at a document, filters, sort orders and limits, in the order in which they were applied.
-/

namespace LiveDocs

/-- How a cursor cuts off the documents on one side of its own. -/
inductive Bound where
  | endAt
  | endBefore
  | startAfter
  | startAt
  deriving DecidableEq

namespace Bound

/-- The name of a bound. -/
def name : Bound → String
  | endAt => "endAt"
  | endBefore => "endBefore"
  | startAfter => "startAfter"
  | startAt => "startAt"

/-- All bounds, in the order in which they are applied. -/
def all : List Bound := [endAt, endBefore, startAfter, startAt]

/-- The bound keeps a document that compares to the cursor's document like this. -/
def keeps : Bound → Ordering → Bool
  | endAt, o => o != .gt
  | endBefore, o => o == .lt
  | startAfter, o => o == .gt
  | startAt, o => o != .lt

end Bound

/-- A condition on a field. -/
structure Filter where
  field : String
  op : FilterOp
  value : Json

/-- One step of a query. -/
inductive QueryOp where
  | cursor (bound : Bound) (document : DocumentRef)
  | filter (condition : Filter)
  | orderBy (field : String) (direction : Direction)
  | limit (count : Nat)

namespace QueryOp

/-- Equality up to the order of members in values. -/
def same : QueryOp → QueryOp → Bool
  | cursor b d, cursor b' d' => b == b' && d == d'
  | filter c, filter c' => c.field == c'.field && c.op == c'.op && c.value.same c'.value
  | orderBy f d, orderBy f' d' => f == f' && d == d'
  | limit n, limit n' => n == n'
  | _, _ => false

end QueryOp

/-- A query on a collection. -/
structure Query where
  collection : CollectionRef
  ops : List QueryOp

namespace Query

/-- The query for all documents of a collection. -/
def all (collection : CollectionRef) : Query := ⟨collection, []⟩

/-- Equality up to the order of members in values. -/
def same (p q : Query) : Bool :=
  p.collection == q.collection && p.ops.length == q.ops.length &&
    (p.ops.zip q.ops).all fun (a, b) => a.same b

end Query

end LiveDocs
