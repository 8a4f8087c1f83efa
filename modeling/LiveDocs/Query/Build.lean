import LiveDocs.Plan
import LiveDocs.Query

/-!
# Queries from directive arguments

Placeholders are replaced first. The arguments then apply in a fixed order: the cursors (`endAt`,
`endBefore`, `startAfter`, `startAt`), the filters, the sort order and the limit. An absent or
falsy argument is skipped, one of the wrong shape is an error, and the first such error counts.
-/

namespace LiveDocs

namespace Query

/-- The value of an argument, unless it is absent or falsy. -/
def argument? (scope : Scope) (template : Option Template) : Option Json :=
  (template.map (·.resolve scope)).filter (!·.isFalsy)

/-- The id that a cursor names: a string, or a number by its text. -/
def cursorId? : Json → Option String
  | .string id => some id
  | .number n => some n.text
  | _ => none

/-- The cursor at the document that an argument names. -/
def cursorOps (scope : Scope) (bound : Bound) (template : Option Template) :
    Except ConfigError (List QueryOp) :=
  match argument? scope template with
  | none => .ok []
  | some v =>
    match cursorId? v with
    | some id => .ok [.cursor bound (scope.collection.doc id)]
    | none => .error (.queryArgument bound.name .documentId v)

/-- The condition that an object describes; without `val` it compares with null. -/
def filter? (v : Json) : Option Filter := do
  let field ← (v.get? "fieldPath").bind Json.string?
  let op ← ((v.get? "op").bind Json.string?).bind FilterOp.ofName?
  return ⟨field, op, (v.get? "val").getD .null⟩

/-- The filters that an argument lists. -/
def filterOps (scope : Scope) (template : Option Template) : Except ConfigError (List QueryOp) :=
  match argument? scope template with
  | none => .ok []
  | some (.array items) =>
    items.mapM fun item =>
      match filter? item with
      | some condition => .ok (.filter condition)
      | none => .error (.queryArgument "where" .filter item)
  | some v => .error (.queryArgument "where" .filterList v)

/-- The direction that an argument names; it ascends unless it says otherwise. -/
def direction? (v : Json) : Option Direction :=
  match v.get? "direction" with
  | none | some .null => some .ascending
  | some (.string name) => Direction.ofName? name
  | some _ => none

/-- The sort order that an argument describes. -/
def orderOps (scope : Scope) (template : Option Template) : Except ConfigError (List QueryOp) :=
  match argument? scope template with
  | none => .ok []
  | some v =>
    match (v.get? "fieldPath").bind Json.string?, direction? v with
    | some field, some direction => .ok [.orderBy field direction]
    | _, _ => .error (.queryArgument "orderBy" .ordering v)

/-- The limit that an argument sets. -/
def limitOps (scope : Scope) (template : Option Template) : Except ConfigError (List QueryOp) :=
  match argument? scope template with
  | none => .ok []
  | some v =>
    match v.nat? with
    | some n => .ok [.limit n]
    | none => .error (.queryArgument "limit" .count v)

/-- The query that arguments describe on the collection of a scope. -/
def build (scope : Scope) (args : QueryArguments) : Except ConfigError Query := do
  let endAt ← cursorOps scope .endAt args.endAt
  let endBefore ← cursorOps scope .endBefore args.endBefore
  let startAfter ← cursorOps scope .startAfter args.startAfter
  let startAt ← cursorOps scope .startAt args.startAt
  let filters ← filterOps scope args.filters
  let order ← orderOps scope args.orderBy
  let limit ← limitOps scope args.limit
  return ⟨scope.collection, endAt ++ endBefore ++ startAfter ++ startAt ++ filters ++ order ++ limit⟩

end Query

end LiveDocs
