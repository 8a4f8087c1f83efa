import LiveDocs.Template
import LiveDocs.Error

/-!
# Plans of fields

The directives of a field decide how it is resolved: `@query` fetches a collection or a document,
`@mutation` writes and reads back, `@ref` follows a collection of the parent document, `@field`
reads a leaf and may export it. A field has exactly one `Plan`, and of several directives the
first in that order counts.
-/

namespace LiveDocs

/-! ### Arguments of directives -/

namespace Directive

/-- The value of an argument; an absent one and a computed one have none. -/
def value? (d : Directive) (vars : Variables) (name : String) : Option Json :=
  (d.argument? name).bind (·.value? vars)

/-- The template of an argument. -/
def template? (d : Directive) (vars : Variables) (name : String) : Option Template :=
  (d.argument? name).map (.ofArgument vars)

/-- The error for an argument of the wrong shape. -/
def shapeError (d : Directive) (name : String) (expected : ArgumentShape) (got : Json) :
    ConfigError := .argument d.name name expected got

/-- A string argument. Null counts as absent. -/
def string? (d : Directive) (vars : Variables) (name : String) :
    Except ConfigError (Option String) :=
  match d.value? vars name with
  | none | some .null => .ok none
  | some (.string s) => .ok (some s)
  | some other => .error (d.shapeError name .string other)

/-- A flag. Null counts as absent, and an absent flag is not set. -/
def flag (d : Directive) (vars : Variables) (name : String) : Except ConfigError Bool :=
  match d.value? vars name with
  | none | some .null => .ok false
  | some (.bool b) => .ok b
  | some other => .error (d.shapeError name .boolean other)

/-- A list of strings; the first other item is the one reported. -/
def strings? (d : Directive) (vars : Variables) (name : String) :
    Except ConfigError (Option (List String)) :=
  match d.value? vars name with
  | none | some .null => .ok none
  | some (.array items) =>
    some <$> items.mapM fun item =>
      match item with
      | .string s => .ok s
      | other => .error (d.shapeError name .stringList other)
  | some other => .error (d.shapeError name .stringList other)

/-- An argument that names a member of a vocabulary. -/
def named? {α : Type} (ofName? : String → Option α) (d : Directive) (vars : Variables)
    (name : String) : Except ConfigError (Option α) := do
  match ← d.string? vars name with
  | none => return none
  | some word =>
    match ofName? word with
    | some a => return some a
    | none => throw (.unknownName name word)

end Directive

/-- The arguments that select and order the documents of a collection. -/
structure QueryArguments where
  endAt : Option Template := none
  endBefore : Option Template := none
  startAfter : Option Template := none
  startAt : Option Template := none
  filters : Option Template := none
  orderBy : Option Template := none
  limit : Option Template := none

namespace QueryArguments

/-- The arguments found by a look-up by name. -/
def ofLookup (lookup : String → Option Template) : QueryArguments where
  endAt := lookup "endAt"
  endBefore := lookup "endBefore"
  startAfter := lookup "startAfter"
  startAt := lookup "startAt"
  filters := lookup "where"
  orderBy := lookup "orderBy"
  limit := lookup "limit"

/-- The arguments that are given, with their names. -/
def given (a : QueryArguments) : Bindings Template :=
  [("endAt", a.endAt), ("endBefore", a.endBefore), ("startAfter", a.startAfter),
    ("startAt", a.startAt), ("where", a.filters), ("orderBy", a.orderBy),
    ("limit", a.limit)].filterMap fun (name, t) => t.map (name, ·)

end QueryArguments

/-- How documents are fetched: the path and the typename default to the field's name. -/
structure Fetch where
  path : Option String := none
  type : Option String := none
  subscribe : Bool := false
  source : Source := .default
  arguments : QueryArguments := {}

/-- The write of a mutation, with the name under which its payload is looked up. -/
structure MutationPlan where
  path : Option String
  rootKind : Option ReferenceKind
  typename : Option String
  type : Option MutationType
  payload : Option Json
  payloadName : String
  merge : Bool
  mergeFields : Option (List String)

/-- Where a leaf's value is exported. -/
inductive ExportKey where
  | named (key : String)
  | fieldName
  deriving DecidableEq

/-- The key under which the field with this name is exported. -/
def ExportKey.resolve (field : String) : ExportKey → String
  | named key => key
  | fieldName => field

/-- How a leaf is read. -/
structure LeafPlan where
  exportKey : Option ExportKey := none
  mode : PendingMode := .hidden

/-- How a field is resolved. -/
inductive Plan where
  | query (rootKind : Option ReferenceKind) (fetch : Fetch)
  | mutation (plan : MutationPlan)
  | ref (fetch : Fetch)
  | leaf (plan : LeafPlan)
  | none

namespace Plan

/-- The plan of a `@query`. -/
def ofQuery (d : Directive) (vars : Variables) : Except ConfigError Plan := do
  let path ← d.string? vars "path"
  let rootKind ← d.named? ReferenceKind.ofName? vars "rootType"
  let type ← d.string? vars "type"
  let subscribe ← d.flag vars "subscribe"
  let source ← d.named? Source.ofName? vars "source"
  return .query rootKind
    ⟨path, type, subscribe, source.getD .default, .ofLookup (d.template? vars)⟩

/-- The plan of a `@mutation`. -/
def ofMutation (d : Directive) (vars : Variables) : Except ConfigError Plan := do
  let type ← d.named? MutationType.ofName? vars "mutationType"
  let path ← d.string? vars "path"
  let rootKind ← d.named? ReferenceKind.ofName? vars "rootType"
  let typename ← d.string? vars "type"
  let payload := (d.value? vars "dataArg").filter (!·.isNull)
  let payloadName ← d.string? vars "dataVar"
  let merge ← d.flag vars "merge"
  let mergeFields ← d.strings? vars "mergeFields"
  return .mutation
    ⟨path, rootKind, typename, type, payload, payloadName.getD "input", merge, mergeFields⟩

/-- The plan of a `@ref`. -/
def ofRef (d : Directive) (vars : Variables) : Except ConfigError Plan := do
  let path ← d.string? vars "path"
  let type ← d.string? vars "type"
  let subscribe ← d.flag vars "subscribe"
  let source ← d.named? Source.ofName? vars "source"
  return .ref ⟨path, type, subscribe, source.getD .default, .ofLookup (d.template? vars)⟩

/-- The key that a `key` argument stands for: a name, or true for the field's own. -/
def exportKeyOf : Option Json → Except ConfigError (Option ExportKey)
  | Option.none => .ok Option.none
  | some .null => .ok Option.none
  | some (.bool false) => .ok Option.none
  | some (.bool true) => .ok (some .fieldName)
  | some (.string key) => .ok (some (.named key))
  | some other => .error (.exportKey other)

/-- The plan of a `@field`. -/
def ofLeaf (d : Directive) (vars : Variables) : Except ConfigError Plan := do
  let exportKey ← exportKeyOf (d.value? vars "key")
  let mode ← d.named? PendingMode.ofName? vars "serverTimestamps"
  return .leaf ⟨exportKey, mode.getD .hidden⟩

/-- The plan of a field. -/
def ofField (vars : Variables) (f : Field) : Except ConfigError Plan :=
  match f.directive? "query" with
  | some d => ofQuery d vars
  | Option.none =>
    match f.directive? "mutation" with
    | some d => ofMutation d vars
    | Option.none =>
      match f.directive? "ref" with
      | some d => ofRef d vars
      | Option.none =>
        match f.directive? "field" with
        | some d => ofLeaf d vars
        | Option.none => .ok .none

/-- The field is resolved by itself, even if nothing is selected below it. -/
def isFetching : Plan → Bool
  | query _ _ => true
  | mutation _ => true
  | ref _ => true
  | leaf _ => false
  | none => false

end Plan

/-! ### Live operations -/

/-- A `@query` that asks, literally, for live updates. -/
def Directive.subscribes (d : Directive) : Bool :=
  d.name == "query" &&
    match d.argument? "subscribe" with
    | some (.literal (.bool true)) => true
    | _ => false

/-- Some `@query` of the operation or of one of its fields asks for live updates. -/
def Operation.subscribes (o : Operation) : Bool :=
  o.directives.any (·.subscribes) || o.walk.any fun f => f.directives.any (·.subscribes)

end LiveDocs
