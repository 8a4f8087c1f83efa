import LiveDocs.Session
import LiveDocs.Json.Decode

/-!
# Links

A link takes requests. An operation that carries `@query` or `@mutation` is resolved against the
store; any other is handed on to the next link, if there is one.
-/

namespace LiveDocs

/-- How a link executes operations, and how many results each of its streams may hold. -/
structure Link where
  executor : Executor.Config := {}
  streamBuffer : Nat := 16

/-- What an operation is handed on to. -/
inductive NextLink where
  | answer (results : Operation → List Emission)
  | documents (link : Link)

namespace Link

/-- Resolves an operation against the store of a session. -/
def resolve (link : Link) (o : Operation) (s : Session) : StreamId × Session :=
  s.spawn link.executor o o.subscribes link.streamBuffer

/-- Opens the stream that answers an operation. -/
def request (link : Link) (o : Operation) (next : Option NextLink) (s : Session) :
    StreamId × Session :=
  if o.isDocumentOperation then link.resolve o s
  else
    match next with
    | none => link.resolve o s
    | some (.answer results) => s.openResults (results o)
    | some (.documents other) => other.resolve o s

/-- Runs an operation for its first result, and cancels it. -/
def runOnce (link : Link) (o : Operation) (s : Session) : Option Emission × Session :=
  let (id, s) := link.request o none s
  let (answer, s) := s.settle.poll id
  let s := s.cancel id
  match answer with
  | .emitted result => (some result, s)
  | _ => (none, s)

end Link

/-! ### Links in JSON -/

/-- An executor configuration. -/
def Executor.Config.decode : Decoder Executor.Config := fun v => do
  let [concurrent, typename] ← Decoder.record ["max_concurrent_fields", "add_typename"] v | none
  return ⟨← Decoder.withDefault 100 .size concurrent, ← Decoder.withDefault true .bool typename⟩

/-- A link configuration. -/
def Link.decode : Decoder Link := fun v => do
  let [executor, buffer] ← Decoder.record ["executor", "stream_buffer"] v | none
  return ⟨← Decoder.withDefault {} Executor.Config.decode executor,
    ← Decoder.withDefault 16 .size buffer⟩

end LiveDocs
