import LiveDocs.Query
import LiveDocs.Collection
import LiveDocs.Error
import LiveDocs.Json.FieldPath
import LiveDocs.Json.Order

/-!
# Evaluating queries

A query keeps the documents that pass all filters and, if there is a sort order, have the field it
sorts by. They are sorted by that field and then by id, both the other way round if the order
descends; without a sort order by id alone. Each cursor cuts the list off at the place of its own
document, which has to exist, and the limit comes last. Of several sort orders or limits the last
one counts.
-/

namespace LiveDocs

/-- A document passes a filter. A missing field passes none. -/
def Filter.accepts (f : Filter) (data : Members) : Bool :=
  match data.read f.field with
  | none => false
  | some field =>
    let among := match f.value with
      | .array candidates => some (candidates.any field.equivalent)
      | _ => none
    match f.op with
    | .equal => field.equivalent f.value
    | .notEqual => !field.isNull && !field.equivalent f.value
    | .less => field.sameType f.value && field.order f.value == .lt
    | .lessOrEqual => field.sameType f.value && field.order f.value != .gt
    | .greater => field.sameType f.value && field.order f.value == .gt
    | .greaterOrEqual => field.sameType f.value && field.order f.value != .lt
    | .arrayContains => (field.items?.getD []).any (·.equivalent f.value)
    | .arrayContainsAny =>
      (field.items?.getD []).any fun item => (f.value.items?.getD []).any item.equivalent
    | .among => among == some true
    | .notAmong => !field.isNull && among == some false

/-- A sort order: a field and a direction. -/
structure SortOrder where
  field : String
  direction : Direction

namespace Query

/-- The conditions of a query. -/
def filters (q : Query) : List Filter :=
  q.ops.filterMap fun op =>
    match op with
    | .filter condition => some condition
    | _ => none

/-- The cursors of a query, in order. -/
def cursors (q : Query) : List (Bound × DocumentRef) :=
  q.ops.filterMap fun op =>
    match op with
    | .cursor bound document => some (bound, document)
    | _ => none

/-- The sort orders of a query. -/
def sortOrders (q : Query) : List SortOrder :=
  q.ops.filterMap fun op =>
    match op with
    | .orderBy field direction => some ⟨field, direction⟩
    | _ => none

/-- The sort order that counts. -/
def sortOrder? (q : Query) : Option SortOrder := q.sortOrders.getLast?

/-- The limit that counts. -/
def limit? (q : Query) : Option Nat :=
  (q.ops.filterMap fun op =>
    match op with
    | .limit count => some count
    | _ => none).getLast?

/-- A document has the field that a query sorts by. -/
def hasSortField (q : Query) (data : Members) : Bool :=
  match q.sortOrder? with
  | some order => (data.read order.field).isSome
  | none => true

/-- The value by which a query sorts a document. -/
def sortKey (q : Query) (data : Members) : Json :=
  match q.sortOrder? with
  | some order => (data.read order.field).getD .null
  | none => .null

/-- The order of two documents, by sort key and id. -/
def orderDocuments (q : Query) (a b : String × Members) : Ordering :=
  let ordering := ((q.sortKey a.2).order (q.sortKey b.2)).then (compare a.1 b.1)
  match q.sortOrder? with
  | some ⟨_, .descending⟩ => ordering.swap
  | _ => ordering

/-- The documents that pass the filters and have the sort field. -/
def selected (q : Query) (c : Collection) : List (String × Members) :=
  c.entries.filter fun entry => q.filters.all (·.accepts entry.2) && q.hasSortField entry.2

/-- The selected documents in the order of the query. -/
def sorted (q : Query) (c : Collection) : List (String × Members) :=
  (q.selected c).mergeSort fun a b => q.orderDocuments a b != .gt

/-- Applies cursors one after the other. -/
def cut (q : Query) (c : Collection) :
    List (Bound × DocumentRef) → List (String × Members) →
      Except StoreError (List (String × Members))
  | [], documents => .ok documents
  | (bound, document) :: rest, documents =>
    match c.get? document.id with
    | none =>
      .error (.invalidArgument ("cursor document does not exist: " ++ document.toString))
    | some data =>
      q.cut c rest
        (documents.filter fun entry => bound.keeps (q.orderDocuments entry (document.id, data)))

/-- The documents that a query selects, in its order. -/
def evaluate (q : Query) (c : Collection) : Except StoreError (List (String × Members)) := do
  let documents ← q.cut c q.cursors (q.sorted c)
  match q.limit? with
  | some count => return documents.take count
  | none => return documents

end Query

end LiveDocs
