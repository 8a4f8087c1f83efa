import LiveDocs.Mutation
import LiveDocs.Query.Build

/-!
# Resolving operations

The fields of a selection are planned before any of them is fetched. Planning reads the leaves off
the parent document and lets them export; every other field becomes a branch, with a copy of the
exports as they stand at its place. The branches then resolve one after the other, and a branch
completes the fields below it for each document that it fetched. So exports flow down only, never
to a sibling or up.
-/

namespace LiveDocs

/-- What planning makes of a field: the value of a leaf, or a branch to resolve. -/
inductive Slot where
  | value (value : Json)
  | branch (plan : Plan) (exports : Exports)

namespace Executor

/-- The value of a leaf. -/
def leafValue (f : Field) (mode : PendingMode) (parent : Entity) : Json :=
  if f.name = "__typename" then .string parent.typename
  else if f.name = "id" then .string parent.snapshot.id
  else parent.snapshot.get f.name mode

/-- How a plan reads a leaf. -/
def leafPlan : Plan → LeafPlan
  | .leaf plan => plan
  | _ => {}

/-- The exports after a leaf was read. -/
def exportLeaf (f : Field) (plan : LeafPlan) (value : Json) (exports : Exports) : Exports :=
  match plan.exportKey with
  | some key => exports.insert (key.resolve f.name) value
  | none => exports

/-- Plans the fields of a selection, in order. -/
def planFields (vars : Variables) (parent : Option Entity) :
    Exports → List Field → Except EngineError (List Slot)
  | _, [] => .ok []
  | exports, f :: rest => do
    let plan ← (Plan.ofField vars f).mapError .config
    if !f.isLeaf || plan.isFetching then
      return .branch plan exports :: (← planFields vars parent exports rest)
    else
      match parent with
      | none => throw (.noContext f.name)
      | some entity =>
        let value := leafValue f (leafPlan plan).mode entity
        return .value value ::
          (← planFields vars parent (exportLeaf f (leafPlan plan) value exports) rest)

/-- Fetches the documents of a collection that the arguments of a fetch select. -/
def fetchCollection (collection : CollectionRef) (fetch : Fetch) (typename : String)
    (exports : Exports) : Pass Resolved := do
  let query ← Pass.ofConfig (Query.build ⟨collection, exports⟩ fetch.arguments)
  if fetch.subscribe then Pass.record (.query query)
  let snapshots ← Pass.getQuery query fetch.source
  return .entities (snapshots.map fun snapshot => ⟨typename, snapshot⟩)

/-- Fetches a document. -/
def fetchDocument (document : DocumentRef) (fetch : Fetch) (typename : String) :
    Pass Resolved := do
  if fetch.subscribe then Pass.record (.document document)
  return .entity ⟨typename, ← Pass.getDocument document fetch.source⟩

/-- Follows a collection of the parent document. -/
def follow (f : Field) (fetch : Fetch) (parent : Option Entity) (exports : Exports) :
    Pass Resolved :=
  match parent with
  | none => throw (.noContext f.name)
  | some entity =>
    fetchCollection (entity.snapshot.reference.collection (fetch.path.getD f.name)) fetch
      (Text.typename fetch.type f.name) exports

/-- Resolves a branch by its plan. A field without a directive of its own follows the collection
with its name. -/
def resolveBranch (vars : Variables) (parent : Option Entity) (f : Field) (exports : Exports) :
    Plan → Pass Resolved
  | .query rootKind fetch => do
    let typename := Text.typename fetch.type f.name
    match ← Pass.ofConfig (resolveReference (fetch.path.getD f.name) rootKind) with
    | .collection c => fetchCollection c fetch typename exports
    | .document d => fetchDocument d fetch typename
  | .mutation plan => Mutation.perform f plan vars
  | .ref fetch => follow f fetch parent exports
  | .leaf _ => follow f {} parent exports
  | .none => follow f {} parent exports

/-- The object that holds the values of fields under their response keys. -/
def assemble (fields : List Field) (values : List Json) : Json :=
  .object (Bindings.ofPairs ((fields.map Field.responseKey).zip values))

/-- What can still be read of a deleted document. -/
def deletedValue (typename id : String) (f : Field) : Json :=
  if f.name = "__typename" then .string typename
  else if f.name = "id" then .string id
  else .null

mutual

/-- Resolves a planned field. -/
def resolveField (vars : Variables) :
    (parent : Option Entity) → Field → Slot → Pass Json
  | _, _, .value value => pure value
  | parent, .mk name label arguments directives selection, .branch plan exports => do
    let resolved ← resolveBranch vars parent
      (.mk name label arguments directives selection) exports plan
    if selection.isEmpty then return .object []
    else
      match resolved with
      | .entity entity =>
        let slots ← Pass.ofExcept (planFields vars (some entity) exports selection)
        return assemble selection (← resolveFields vars (some entity) selection slots)
      | .entities entities =>
        let items ← entities.mapM fun entity => do
          let slots ← Pass.ofExcept (planFields vars (some entity) exports selection)
          return assemble selection (← resolveFields vars (some entity) selection slots)
        return .array items
      | .deleted typename id => return assemble selection (selection.map (deletedValue typename id))

/-- Resolves planned fields, in order. -/
def resolveFields (vars : Variables) :
    (parent : Option Entity) → List Field → List Slot → Pass (List Json)
  | parent, f :: rest, slot :: slots => do
    let value ← resolveField vars parent f slot
    return value :: (← resolveFields vars parent rest slots)
  | _, _, _ => pure []

end

/-- Resolves a selection below a document, or at the root. -/
def resolveSelection (vars : Variables) (parent : Option Entity) (exports : Exports)
    (fields : List Field) : Pass Json := do
  let slots ← Pass.ofExcept (planFields vars parent exports fields)
  return assemble fields (← resolveFields vars parent fields slots)

/-- How operations are executed. `maxConcurrentFields` bounds how many siblings may wait for the
store at once. Nothing here reads it: a store answers a call at once, so that a sibling is done
before the next one is begun, whatever the bound. -/
structure Config where
  maxConcurrentFields : Nat := 100
  addTypename : Bool := true

/-- The operation that is executed: with `__typename` added where the configuration says so. -/
def prepare (config : Config) (o : Operation) : Operation :=
  if config.addTypename then o.withTypenames else o

/-- What a pass came to: a response or an error, the targets to listen to, and the client after
it. -/
structure Outcome where
  response : Except EngineError Json
  targets : List ListenTarget
  client : Client

/-- Executes an operation once. -/
def execute (config : Config) (o : Operation) (client : Client) : Outcome :=
  let o := prepare config o
  let (response, state) :=
    (resolveSelection o.vars none [] o.selection).run ⟨client, []⟩
  ⟨response, state.targets, state.client⟩

end Executor

end LiveDocs
