import LiveDocs.Client
import LiveDocs.Operation
import LiveDocs.Text.Inflection

/-!
# Passes

A pass resolves an operation once. It makes calls through a client, collects the targets that were
fetched under a directive that asks for live updates, and ends in a value or an error. What it did
before an error stays done.
-/

namespace LiveDocs

/-- What a pass has done so far: its calls, and the targets to listen to in order of first fetch. -/
structure PassState where
  client : Client
  targets : List ListenTarget

/-- A step of a pass. -/
abbrev Pass (α : Type) := ExceptT EngineError (StateM PassState) α

namespace Pass

/-- Makes a call to the store. -/
def call {α : Type} (call : Call) (run : Store → Answer α) : Pass α := fun state =>
  let (answer, client) := state.client.perform call run
  (answer.mapError .store, { state with client })

/-- Reads a document. -/
def getDocument (d : DocumentRef) (source : Source) : Pass Snapshot :=
  call (.getDocument d source) (Store.getDocument d source)

/-- Reads the documents that a query selects. -/
def getQuery (q : Query) (source : Source) : Pass (List Snapshot) :=
  call (.getQuery q source) (Store.getQuery q source)

/-- Adds a document. -/
def add (c : CollectionRef) (data : Members) : Pass DocumentRef :=
  call (.add c data) (Store.add c data)

/-- Writes a whole document. -/
def set (d : DocumentRef) (data : Members) (mode : WriteMode) : Pass Unit :=
  call (.set d data mode) (Store.set d data mode)

/-- Writes fields of a document. -/
def update (d : DocumentRef) (data : Members) : Pass Unit :=
  call (.update d data) (Store.update d data)

/-- Deletes a document. -/
def delete (d : DocumentRef) : Pass Unit := call (.delete d) (Store.delete d)

/-- Records a target to listen to, once. -/
def record (target : ListenTarget) : Pass Unit := fun state =>
  let targets :=
    if state.targets.any (·.same target) then state.targets else state.targets ++ [target]
  (.ok (), { state with targets })

/-- Ends the pass if a configuration turns out to be wrong. -/
def ofConfig {α : Type} (result : Except ConfigError α) : Pass α := fun state =>
  (result.mapError .config, state)

/-- A result that needs no store. -/
def ofExcept {α : Type} (result : Except EngineError α) : Pass α := fun state => (result, state)

end Pass

/-- A document that was fetched, and the typename under which it is reported. -/
structure Entity where
  typename : String
  snapshot : Snapshot

/-- What a field was resolved to, before the fields below it are read. -/
inductive Resolved where
  | entity (entity : Entity)
  | entities (entities : List Entity)
  | deleted (typename id : String)

/-- The reference that a dotted path leads to; the kind of its root has to be given. -/
def resolveReference (path : String) (rootKind : Option ReferenceKind) :
    Except ConfigError Reference :=
  match rootKind with
  | some kind => .ok (.ofDotted kind path)
  | none => .error .rootTypeMissing

end LiveDocs
