import LiveDocs.Executor

/-!
# Result streams

A stream resolves an operation in the background and holds the results that its consumer has not
taken yet. A plain operation gives one result. A live one then listens to every target that its
first pass recorded, and resolves again at each notice, until it is cancelled or fails. A result
that finds no room waits, and while it waits the stream takes no notices.

`Stream.step` is one step of the background work, `Stream.advance` runs it until it waits or ends.
Main statements: `step_eq_none_iff`, what a stream can wait for, and `phase_finish` with
`listeners_finish`, a stream that ends keeps no listener.
-/

namespace LiveDocs

/-- A result as the consumer gets it. -/
abbrev Emission := Except EngineError Json

/-- What a stream does once a result has found room. -/
inductive Continuation where
  | attach (targets : List ListenTarget)
  | listen
  | stop

/-- Where the background work of a stream stands. -/
inductive Phase where
  | fresh
  | sending (result : Emission) (next : Continuation)
  | listening
  | ended

/-- A stream of results. -/
structure Stream where
  config : Executor.Config
  operation : Operation
  live : Bool
  capacity : Nat
  mailbox : Mailbox
  phase : Phase
  buffer : List Emission
  listeners : List Nat
  cancelled : Bool

namespace Stream

/-- A stream that has not begun; it has room for one result at least. -/
def start (config : Executor.Config) (operation : Operation) (live : Bool) (buffer : Nat)
    (mailbox : Mailbox) : Stream :=
  ⟨config, operation, live, max buffer 1, mailbox, .fresh, [], [], false⟩

/-- A stream that has ended and holds results. -/
def ofResults (results : List Emission) (mailbox : Mailbox) : Stream :=
  ⟨{}, .empty .query, false, max results.length 1, mailbox, .ended, results, [], false⟩

/-- The background work is over. -/
def isEnded (s : Stream) : Bool :=
  match s.phase with
  | .ended => true
  | _ => false

/-- The stream waits for a notice, or is about to. -/
def isListening (s : Stream) : Bool :=
  match s.phase with
  | .listening => true
  | _ => false

/-- The stream holds a result that has found no room yet. -/
def isSending (s : Stream) : Bool :=
  match s.phase with
  | .sending _ _ => true
  | _ => false

/-- Applies a change to the store of a client. -/
def withStore (c : Client) (f : Store → Store) : Client := { c with store := f c.store }

/-- Ends the background work and releases its listeners. -/
def finish (s : Stream) (c : Client) : Stream × Client :=
  ({ s with phase := .ended, listeners := [] },
    withStore c fun store => (store.detachAll s.listeners).clear s.mailbox)

/-- Listens to targets one after the other. The first failure is sent instead. -/
def attach (s : Stream) : List ListenTarget → Client → Stream × Client
  | [], c => ({ s with phase := .listening }, c)
  | target :: rest, c =>
    match c.perform (.listen target) (Store.listen target s.mailbox) with
    | (.ok id, c) => attach { s with listeners := s.listeners ++ [id] } rest c
    | (.error e, c) => ({ s with phase := .sending (.error (.store e)) .stop }, c)

/-- Goes on after a result has found room. -/
def resume (s : Stream) (c : Client) : Continuation → Stream × Client
  | .attach targets => s.attach targets c
  | .listen => ({ s with phase := .listening }, c)
  | .stop => s.finish c

/-- The first pass. An abort signal ends the stream without a result. -/
def firstPass (s : Stream) (c : Client) : Stream × Client :=
  let outcome := Executor.execute s.config s.operation c
  match outcome.response with
  | .ok data =>
    let next := if s.live then .attach outcome.targets else .stop
    ({ s with phase := .sending (.ok data) next }, outcome.client)
  | .error e =>
    if e.isBenign then s.finish outcome.client
    else ({ s with phase := .sending (.error e) .stop }, outcome.client)

/-- A later pass. An abort signal is passed over. -/
def nextPass (s : Stream) (c : Client) : Stream × Client :=
  let outcome := Executor.execute s.config s.operation c
  match outcome.response with
  | .ok data => ({ s with phase := .sending (.ok data) .listen }, outcome.client)
  | .error e =>
    if e.isBenign then (s, outcome.client)
    else ({ s with phase := .sending (.error e) .stop }, outcome.client)

/-- Takes a notice: a change leads to another pass, an abort signal is passed over, and any other
failure ends the stream. -/
def take (s : Stream) (notice : Notice) (c : Client) : Stream × Client :=
  match notice with
  | .ok _ => s.nextPass c
  | .error e =>
    if e.code.isAbort then (s, c)
    else ({ s with phase := .sending (.error (.store e)) .stop }, c)

/-- One step of the background work; none if it waits or has ended. Without listeners no notice
can come, so there is nothing to wait for. -/
def step (s : Stream) (c : Client) : Option (Stream × Client) :=
  match s.phase with
  | .ended => none
  | phase =>
    if s.cancelled then some (s.finish c)
    else
      match phase with
      | .fresh => some (s.firstPass c)
      | .sending result next =>
        if s.buffer.length < s.capacity then
          some ({ s with buffer := s.buffer ++ [result] }.resume c next)
        else none
      | .listening =>
        match c.store.receive? s.mailbox with
        | some (notice, store) => some (s.take notice { c with store })
        | none => if s.listeners.isEmpty then some (s.finish c) else none
      | .ended => none

/-- Takes steps until the work waits or has ended, at most `fuel` of them. -/
def advanceFor : (fuel : Nat) → Stream → Client → Stream × Client
  | 0, s, c => (s, c)
  | fuel + 1, s, c =>
    match s.step c with
    | some (s, c) => advanceFor fuel s c
    | none => (s, c)

/-- A bound on the steps until the work waits: every pass fills a place of the buffer or uses up a
failure or a notice, and takes two steps. -/
def stepBound (s : Stream) (c : Client) : Nat :=
  2 * (s.capacity + c.pendingFailures + c.store.mail.length) + 8

/-- Takes steps until the work waits or has ended. -/
def advance (s : Stream) (c : Client) : Stream × Client := advanceFor (s.stepBound c) s c

/-! ### The consumer's side -/

/-- What a consumer finds when it looks for the next result. -/
inductive Poll where
  | emitted (result : Emission)
  | done
  | pending

/-- Takes the next result, if there is one. -/
def poll (s : Stream) : Poll × Stream :=
  match s.buffer with
  | result :: rest => (.emitted result, { s with buffer := rest })
  | [] => (if s.isEnded then .done else .pending, s)

/-- Asks the background work to stop, and gives up the results that wait. -/
def cancel (s : Stream) : Stream := { s with cancelled := true, buffer := [] }

/-! ### Waiting and ending -/

@[simp] theorem phase_finish (s : Stream) (c : Client) : (s.finish c).1.phase = .ended := rfl

@[simp] theorem listeners_finish (s : Stream) (c : Client) : (s.finish c).1.listeners = [] := rfl

/-- A stream has ended, waits for room, or waits for a notice to one of its listeners. -/
theorem step_eq_none_iff {s : Stream} {c : Client} :
    s.step c = none ↔
      s.phase = .ended ∨
      (s.cancelled = false ∧ s.isSending = true ∧ s.capacity ≤ s.buffer.length) ∨
      (s.cancelled = false ∧ s.phase = .listening ∧ c.store.receive? s.mailbox = none ∧
        s.listeners ≠ []) := by
  rw [step]
  cases hphase : s.phase with
  | ended => simp
  | fresh => cases hc : s.cancelled <;> simp [isSending, hphase]
  | sending result next =>
    cases hc : s.cancelled
    · by_cases hlt : s.buffer.length < s.capacity
      · simp [isSending, hphase, hlt]
      · simp [isSending, hphase, hlt, Nat.not_lt.1 hlt]
    · simp
  | listening =>
    cases hc : s.cancelled
    · cases hr : c.store.receive? s.mailbox with
      | some pair => simp [isSending, hphase]
      | none => by_cases hl : s.listeners = [] <;> simp [isSending, hphase, hl]
    · simp

end Stream

end LiveDocs
