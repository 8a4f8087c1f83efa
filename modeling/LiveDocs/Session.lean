import LiveDocs.Stream

/-!
# Sessions

A session is a client together with the streams that were opened on it. Streams that have work to
do stand in a queue, in the order in which something happened to them; `settle` lets each of them
run in its turn until all of them wait. A write to the store queues the listening streams that got
a notice, in the order of their notices.
-/

namespace LiveDocs

/-- The number of a stream within its session. -/
abbrev StreamId := Nat

/-- A client and the streams on it. -/
structure Session where
  client : Client
  streams : List Stream
  ready : List StreamId
  mailboxes : Nat

namespace Session

/-- A session without streams. -/
def ofClient (client : Client) : Session := ⟨client, [], [], 0⟩

/-- Queues a stream, unless it is queued already. -/
def enqueue (s : Session) (id : StreamId) : Session :=
  if s.ready.contains id then s else { s with ready := s.ready ++ [id] }

/-- The number of the listening stream that a mailbox belongs to. -/
def listenerOf? (s : Session) (box : Mailbox) : Option StreamId :=
  s.streams.findIdx? fun stream => stream.isListening && stream.mailbox == box

/-- Queues the listening streams with notices, in the order of their notices. -/
def wakeNotified (s : Session) : Session :=
  s.client.store.mail.foldl
    (fun s (box, _) =>
      match s.listenerOf? box with
      | some id => s.enqueue id
      | none => s)
    s

/-- Replaces a stream. -/
def setStream (s : Session) (id : StreamId) (stream : Stream) : Session :=
  { s with streams := s.streams.set id stream }

/-- Runs the stream at the head of the queue until it waits. -/
def runNext (s : Session) : Session :=
  match s.ready with
  | [] => s
  | id :: rest =>
    let s := { s with ready := rest }
    match s.streams[id]? with
    | none => s
    | some stream =>
      let (stream, client) := stream.advance s.client
      ({ s with client }.setStream id stream).wakeNotified

/-- Runs queued streams, at most `fuel` times. -/
def settleFor : (fuel : Nat) → Session → Session
  | 0, s => s
  | fuel + 1, s => if s.ready.isEmpty then s else settleFor fuel s.runNext

/-- A bound on the runs until all streams wait: a stream is queued again only by a notice, and each
notice fills a place of its buffer, ends it, or uses up a failure. -/
def settleBound (s : Session) : Nat :=
  s.ready.length + s.streams.foldl (· + ·.capacity + 2) 0 + s.client.pendingFailures +
    s.client.store.mail.length + 1

/-- Lets every queued stream run until it waits. -/
def settle (s : Session) : Session := settleFor s.settleBound s

/-- A mailbox of its own. -/
def openMailbox (s : Session) : Mailbox × Session :=
  (s.mailboxes, { s with mailboxes := s.mailboxes + 1 })

/-- Adds a stream. -/
def addStream (s : Session) (make : Mailbox → Stream) : StreamId × Session :=
  let (box, s) := s.openMailbox
  (s.streams.length, { s with streams := s.streams ++ [make box] })

/-- Opens a stream that resolves an operation in the background. -/
def spawn (s : Session) (config : Executor.Config) (o : Operation) (live : Bool) (buffer : Nat) :
    StreamId × Session :=
  let (id, s) := s.addStream (Stream.start config o live buffer)
  (id, s.enqueue id)

/-- Opens a stream that gives these results and ends. -/
def openResults (s : Session) (results : List Emission) : StreamId × Session :=
  s.addStream (Stream.ofResults results)

/-- Takes the next result of a stream, if there is one. A stream whose result waited for room goes
on. -/
def poll (s : Session) (id : StreamId) : Stream.Poll × Session :=
  match s.streams[id]? with
  | none => (.done, s)
  | some stream =>
    let (answer, polled) := stream.poll
    let s' := s.setStream id polled
    match answer with
    | .emitted _ => (answer, if stream.isSending then s'.enqueue id else s')
    | _ => (answer, s')

/-- Gives up a stream: it stops as soon as it gets its turn. -/
def drop (s : Session) (id : StreamId) : Session :=
  match s.streams[id]? with
  | none => s
  | some stream =>
    let s := s.setStream id stream.cancel
    if stream.isEnded then s else s.enqueue id

/-- Gives up a stream and lets the queued streams run until it has stopped. -/
def cancel (s : Session) (id : StreamId) : Session :=
  match s.streams[id]? with
  | none => s
  | some stream => if stream.isEnded then s.drop id else (s.drop id).settle

/-- Acts on the store directly, and queues the streams that got a notice. -/
def act {α : Type} (s : Session) (f : Store → α × Store) : α × Session :=
  let (a, store) := f s.client.store
  (a, { s with client := { s.client with store } }.wakeNotified)

/-- Executes an operation in the foreground. -/
def execute (s : Session) (config : Executor.Config) (o : Operation) :
    Except EngineError Json × List ListenTarget × Session :=
  let outcome := Executor.execute config o s.client
  (outcome.response, outcome.targets, { s with client := outcome.client }.wakeNotified)

end Session

end LiveDocs
