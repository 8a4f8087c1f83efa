import LiveDocs.Proofs.Request
import LiveDocs.Stream

/-!
# The work of a stream

What a stream does while it works is told by its events: the passes it makes, the listeners it
attaches and releases, the listen calls that are refused. `Stream.events` lists those of one step
and `Works` says what a step can come to. Main statements: `works_of_step`, every step is one of
these; `advance_induction`, what each step preserves holds when the stream waits again.
-/

namespace LiveDocs

/-- What happens on a stream. -/
inductive Event where
  | pass (client : Client)
  | attached (id : Nat)
  | refused (error : StoreError)
  | released (id : Nat)
  | taken (result : Emission)

/-- The results that the consumer took. -/
def taken (events : List Event) : List Emission :=
  events.filterMap fun
    | .taken result => some result
    | _ => none

/-- The clients on which passes were made. -/
def passes (events : List Event) : List Client :=
  events.filterMap fun
    | .pass c => some c
    | _ => none

@[simp] theorem taken_append (front events : List Event) :
    taken (front ++ events) = taken front ++ taken events :=
  List.filterMap_append

@[simp] theorem passes_append (front events : List Event) :
    passes (front ++ events) = passes front ++ passes events :=
  List.filterMap_append

namespace Stream

/-- The answers to listening to targets one after the other, up to the first failure. -/
def answers (box : Mailbox) : List ListenTarget → Client → List Event
  | [], _ => []
  | target :: rest, c =>
    match c.perform (.listen target) (Store.listen target box) with
    | (.ok id, c) => .attached id :: answers box rest c
    | (.error e, _) => [.refused e]

theorem taken_passes_answers (box : Mailbox) (targets : List ListenTarget) (c : Client) :
    taken (answers box targets c) = [] ∧ passes (answers box targets c) = [] := by
  induction targets generalizing c with
  | nil => exact ⟨rfl, rfl⟩
  | cons target rest ih =>
    rw [answers]
    split
    · exact ih _
    · exact ⟨rfl, rfl⟩

section Attach

variable {s : Stream} {c c' : Client} {target : ListenTarget}

/-- A listen call that is answered attaches one listener and changes nothing else. -/
theorem perform_listen {box : Mailbox} {id : Nat}
    (h : c.perform (.listen target) (Store.listen target box) = (.ok id, c')) :
    id = c.store.nextListener ∧ c' =
      { c with
        log := c.log ++ [.listen target]
        store :=
          { c.store with
            listeners := c.store.listeners ++ [⟨c.store.nextListener, target, box⟩]
            nextListener := c.store.nextListener + 1 } } := by
  rw [Client.perform] at h
  split at h
  · cases h
  · cases hs : c.store.failures with
    | cons e rest =>
      simp only [Store.listen, Store.guarded, hs] at h
      cases h
    | nil =>
      rw [Store.listen, Store.guarded_of_failures_nil hs] at h
      cases h
      exact ⟨rfl, rfl⟩

/-- A listen call that is refused changes nothing but the log and the queued failures. -/
theorem perform_listen_error {box : Mailbox} {e : StoreError}
    (h : c.perform (.listen target) (Store.listen target box) = (.error e, c')) :
    ∃ failures, c' =
      { c with log := c.log ++ [.listen target], store := { c.store with failures } } := by
  rw [Client.perform] at h
  split at h
  · cases h
    exact ⟨c.store.failures, rfl⟩
  · cases hs : c.store.failures with
    | nil =>
      rw [Store.listen, Store.guarded_of_failures_nil hs] at h
      cases h
    | cons e rest =>
      simp only [Store.listen, Store.guarded, hs] at h
      cases h
      exact ⟨rest, rfl⟩

theorem attach_cons_of_ok {id : Nat}
    (h : c.perform (.listen target) (Store.listen target s.mailbox) = (.ok id, c'))
    (rest : List ListenTarget) :
    s.attach (target :: rest) c = attach { s with listeners := s.listeners ++ [id] } rest c' ∧
      answers s.mailbox (target :: rest) c = .attached id :: answers s.mailbox rest c' := by
  rw [attach, answers, h]
  exact ⟨rfl, rfl⟩

theorem attach_cons_of_error {e : StoreError}
    (h : c.perform (.listen target) (Store.listen target s.mailbox) = (.error e, c'))
    (rest : List ListenTarget) :
    s.attach (target :: rest) c =
        ({ s with phase := .sending (.error (.store e)) .stop }, c') ∧
      answers s.mailbox (target :: rest) c = [.refused e] := by
  rw [attach, answers, h]
  exact ⟨rfl, rfl⟩

end Attach

/-- The release of the listeners that a stream holds. -/
def releases (s : Stream) : List Event := s.listeners.map .released

@[simp] theorem taken_releases (s : Stream) : taken s.releases = [] := by
  simp [taken, releases]

/-- What happens in one step of the background work. -/
def events (s : Stream) (c : Client) : List Event :=
  match s.phase with
  | .ended => []
  | phase =>
    if s.cancelled then s.releases
    else
      match phase with
      | .fresh =>
        match (Executor.execute s.config s.operation c).response with
        | .ok _ => [.pass c]
        | .error e => if e.isBenign then .pass c :: s.releases else [.pass c]
      | .sending _ next =>
        if s.buffer.length < s.capacity then
          match next with
          | .attach targets => answers s.mailbox targets c
          | .listen => []
          | .stop => s.releases
        else []
      | .listening =>
        match c.store.receive? s.mailbox with
        | some (.ok _, store) => [.pass { c with store }]
        | some (.error _, _) => []
        | none => if s.listeners.isEmpty then s.releases else []
      | .ended => []

/-! ### Steps -/

/-- The client after an execution of the operation. -/
def executed (s : Stream) (c : Client) : Client :=
  (Executor.execute s.config s.operation c).client

/-- What a pass of a stream answers. -/
def response (s : Stream) (c : Client) : Except EngineError Json :=
  (Executor.execute s.config s.operation c).response

/-- The targets that a pass of a stream records. -/
def targets (s : Stream) (c : Client) : List ListenTarget :=
  (Executor.execute s.config s.operation c).targets

/-- A stream that waits to send. -/
def send (s : Stream) (result : Emission) (next : Continuation) : Stream :=
  { s with phase := .sending result next }

/-- A stream whose result has found room. -/
def sent (s : Stream) (result : Emission) : Stream := { s with buffer := s.buffer ++ [result] }

/-- What one step of a stream can come to: the events, the stream and the client after it. -/
inductive Works (s : Stream) (c : Client) : List Event → Stream × Client → Prop where
  | stop (hphase : s.phase ≠ .ended) (hcancelled : s.cancelled = true) :
      Works s c s.releases (s.finish c)
  | first {data : Json} (hphase : s.phase = .fresh) (hcancelled : s.cancelled = false)
      (hresponse : s.response c = .ok data) :
      Works s c [.pass c]
        (s.send (.ok data) (if s.live then .attach (s.targets c) else .stop), s.executed c)
  | firstAborted {e : EngineError} (hphase : s.phase = .fresh) (hcancelled : s.cancelled = false)
      (hresponse : s.response c = .error e) (hbenign : e.isBenign = true) :
      Works s c (.pass c :: s.releases) (s.finish (s.executed c))
  | firstFailed {e : EngineError} (hphase : s.phase = .fresh) (hcancelled : s.cancelled = false)
      (hresponse : s.response c = .error e) (hbenign : e.isBenign = false) :
      Works s c [.pass c] (s.send (.error e) .stop, s.executed c)
  | attach {result : Emission} {targets : List ListenTarget}
      (hphase : s.phase = .sending result (.attach targets)) (hcancelled : s.cancelled = false)
      (hroom : s.buffer.length < s.capacity) :
      Works s c (answers s.mailbox targets c) ((s.sent result).attach targets c)
  | listen {result : Emission} (hphase : s.phase = .sending result .listen)
      (hcancelled : s.cancelled = false) (hroom : s.buffer.length < s.capacity) :
      Works s c [] ({ s.sent result with phase := .listening }, c)
  | close {result : Emission} (hphase : s.phase = .sending result .stop)
      (hcancelled : s.cancelled = false) (hroom : s.buffer.length < s.capacity) :
      Works s c s.releases ((s.sent result).finish c)
  | rerun {target : ListenTarget} {store : Store} {data : Json} (hphase : s.phase = .listening)
      (hcancelled : s.cancelled = false)
      (hnotice : c.store.receive? s.mailbox = some (.ok target, store))
      (hresponse : s.response { c with store } = .ok data) :
      Works s c [.pass { c with store }] (s.send (.ok data) .listen, s.executed { c with store })
  | rerunAborted {target : ListenTarget} {store : Store} {e : EngineError}
      (hphase : s.phase = .listening) (hcancelled : s.cancelled = false)
      (hnotice : c.store.receive? s.mailbox = some (.ok target, store))
      (hresponse : s.response { c with store } = .error e) (hbenign : e.isBenign = true) :
      Works s c [.pass { c with store }] (s, s.executed { c with store })
  | rerunFailed {target : ListenTarget} {store : Store} {e : EngineError}
      (hphase : s.phase = .listening) (hcancelled : s.cancelled = false)
      (hnotice : c.store.receive? s.mailbox = some (.ok target, store))
      (hresponse : s.response { c with store } = .error e) (hbenign : e.isBenign = false) :
      Works s c [.pass { c with store }] (s.send (.error e) .stop, s.executed { c with store })
  | abortNotice {e : StoreError} {store : Store} (hphase : s.phase = .listening)
      (hcancelled : s.cancelled = false)
      (hnotice : c.store.receive? s.mailbox = some (.error e, store))
      (habort : e.code.isAbort = true) : Works s c [] (s, { c with store })
  | errorNotice {e : StoreError} {store : Store} (hphase : s.phase = .listening)
      (hcancelled : s.cancelled = false)
      (hnotice : c.store.receive? s.mailbox = some (.error e, store))
      (habort : e.code.isAbort = false) :
      Works s c [] (s.send (.error (.store e)) .stop, { c with store })
  | idle (hphase : s.phase = .listening) (hcancelled : s.cancelled = false)
      (hlisteners : s.listeners = []) : Works s c s.releases (s.finish c)

/-- A stream that was given up only ends. -/
theorem Works.of_cancelled {s : Stream} {c : Client} {events : List Event} {r : Stream × Client}
    (h : Works s c events r) (hcancelled : s.cancelled = true) :
    events = s.releases ∧ r = s.finish c := by
  cases h with
  | stop => exact ⟨rfl, rfl⟩
  | _ => simp_all

/-- Listening to targets attaches a listener to each of them, or ends in a refusal. -/
theorem exists_attach (s : Stream) (targets : List ListenTarget) (c : Client) :
    ∃ phase ids, (s.attach targets c).1 = { s with phase, listeners := s.listeners ++ ids } ∧
      (phase = .listening ∧ ids.length = targets.length ∨
        ∃ e, phase = .sending (.error (.store e)) .stop) := by
  induction targets generalizing s c with
  | nil =>
    refine ⟨.listening, [], ?_, .inl ⟨rfl, rfl⟩⟩
    rw [List.append_nil]
    rfl
  | cons target rest ih =>
    rcases h : c.perform (.listen target) (Store.listen target s.mailbox) with ⟨e | id, c'⟩
    · refine ⟨_, [], ?_, .inr ⟨e, rfl⟩⟩
      rw [(attach_cons_of_error h rest).1, List.append_nil]
    · obtain ⟨phase, ids, hattach, hphase⟩ := ih { s with listeners := s.listeners ++ [id] } c'
      refine ⟨phase, id :: ids, ?_, hphase.imp_left fun ⟨hlistening, hlength⟩ =>
        ⟨hlistening, congrArg (· + 1) hlength⟩⟩
      rw [(attach_cons_of_ok h rest).1, hattach, List.append_assoc, List.singleton_append]

/-- A step changes the phase, the results that wait and the listeners only. -/
theorem Works.exists_eq {s : Stream} {c : Client} {events : List Event} {r : Stream × Client}
    (h : Works s c events r) :
    ∃ phase buffer listeners, r.1 = { s with phase, buffer, listeners } := by
  cases h with
  | @attach result targets =>
    obtain ⟨phase, ids, hattach, -⟩ := exists_attach (s.sent result) targets c
    exact ⟨phase, s.buffer ++ [result], s.listeners ++ ids, hattach⟩
  | _ => exact ⟨_, _, _, rfl⟩

/-- A stream executes its operation as it did at first. -/
theorem Works.config_eq {s : Stream} {c : Client} {events : List Event} {r : Stream × Client}
    (h : Works s c events r) : r.1.config = s.config := by
  obtain ⟨phase, buffer, listeners, hr⟩ := h.exists_eq
  rw [hr]

theorem Works.mailbox_eq {s : Stream} {c : Client} {events : List Event} {r : Stream × Client}
    (h : Works s c events r) : r.1.mailbox = s.mailbox := by
  obtain ⟨phase, buffer, listeners, hr⟩ := h.exists_eq
  rw [hr]

/-- No step of its work gives a stream up. -/
theorem Works.cancelled_eq {s : Stream} {c : Client} {events : List Event} {r : Stream × Client}
    (h : Works s c events r) : r.1.cancelled = s.cancelled := by
  obtain ⟨phase, buffer, listeners, hr⟩ := h.exists_eq
  rw [hr]

theorem Works.not_ended {s : Stream} {c : Client} {events : List Event} {r : Stream × Client}
    (h : Works s c events r) : s.phase ≠ .ended := by
  intro hended
  cases h with
  | stop hphase => exact hphase hended
  | _ hphase => cases hphase.symm.trans hended

theorem events_of_cancelled {s : Stream} {c : Client} (hphase : s.phase ≠ .ended)
    (hcancelled : s.cancelled = true) : s.events c = s.releases := by
  rw [events]
  split
  · contradiction
  · rw [if_pos hcancelled]

theorem step_of_cancelled {s : Stream} {c : Client} (hphase : s.phase ≠ .ended)
    (hcancelled : s.cancelled = true) : s.step c = some (s.finish c) := by
  rw [step]
  split
  · contradiction
  · rw [if_pos hcancelled]

section Phases

variable {s : Stream} {c : Client} {r : Stream × Client} (hcancelled : s.cancelled = false)
  (h : s.step c = some r)

include hcancelled h

theorem works_of_fresh (hphase : s.phase = .fresh) : Works s c (s.events c) r := by
  obtain ⟨config, o, live, capacity, box, phase, buffer, listeners, cancelled⟩ := s
  obtain rfl : phase = .fresh := hphase
  obtain rfl : cancelled = false := hcancelled
  obtain rfl := Option.some.inj h
  cases hresponse : (Executor.execute config o c).response with
  | ok data =>
    simp only [firstPass, events, hresponse]
    exact .first rfl rfl hresponse
  | error e =>
    simp only [firstPass, events, hresponse]
    cases hbenign : e.isBenign with
    | true => exact .firstAborted rfl rfl hresponse hbenign
    | false => exact .firstFailed rfl rfl hresponse hbenign

theorem works_of_sending {result : Emission} {next : Continuation}
    (hphase : s.phase = .sending result next) : Works s c (s.events c) r := by
  obtain ⟨config, o, live, capacity, box, phase, buffer, listeners, cancelled⟩ := s
  obtain rfl : phase = .sending result next := hphase
  obtain rfl : cancelled = false := hcancelled
  by_cases hroom : buffer.length < capacity
  · simp only [step, hroom, if_true, Bool.false_eq_true, if_false] at h
    obtain rfl := Option.some.inj h
    cases next with
    | attach targets =>
      simp only [events, hroom, if_true, Bool.false_eq_true, if_false]
      exact .attach rfl rfl hroom
    | listen =>
      simp only [events, hroom, if_true, Bool.false_eq_true, if_false]
      exact .listen rfl rfl hroom
    | stop =>
      simp only [events, hroom, if_true, Bool.false_eq_true, if_false]
      exact .close rfl rfl hroom
  · simp only [step, hroom, Bool.false_eq_true, if_false] at h
    cases h

theorem works_of_listening (hphase : s.phase = .listening) : Works s c (s.events c) r := by
  obtain ⟨config, o, live, capacity, box, phase, buffer, listeners, cancelled⟩ := s
  obtain rfl : phase = .listening := hphase
  obtain rfl : cancelled = false := hcancelled
  rcases hnotice : c.store.receive? box with _ | ⟨e | target, store⟩
  · simp only [step, events, hnotice, Bool.false_eq_true, if_false] at h ⊢
    by_cases hlisteners : listeners = []
    · obtain rfl : listeners = [] := hlisteners
      obtain rfl := Option.some.inj h
      exact .idle rfl rfl rfl
    · simp only [List.isEmpty_iff, hlisteners, if_false] at h
      cases h
  · simp only [step, events, hnotice, Bool.false_eq_true, if_false] at h ⊢
    obtain rfl := Option.some.inj h
    rw [take]
    cases habort : e.code.isAbort with
    | true => exact .abortNotice rfl rfl hnotice habort
    | false => exact .errorNotice rfl rfl hnotice habort
  · simp only [step, events, hnotice, Bool.false_eq_true, if_false] at h ⊢
    obtain rfl := Option.some.inj h
    rw [take, nextPass]
    cases hresponse : (Executor.execute config o { c with store }).response with
    | ok data => exact .rerun rfl rfl hnotice hresponse
    | error e =>
      simp only
      cases hbenign : e.isBenign with
      | true => exact .rerunAborted rfl rfl hnotice hresponse hbenign
      | false => exact .rerunFailed rfl rfl hnotice hresponse hbenign

end Phases

/-- Every step of a stream is one of these, with the events it lists. -/
theorem works_of_step {s : Stream} {c : Client} {r : Stream × Client} (h : s.step c = some r) :
    Works s c (s.events c) r := by
  by_cases hended : s.phase = .ended
  · rw [step_eq_none_iff.2 (.inl hended)] at h
    cases h
  -- a stream that was given up ends, whatever its phase
  cases hcancelled : s.cancelled with
  | true =>
    rw [step_of_cancelled hended hcancelled] at h
    rw [events_of_cancelled hended hcancelled, ← Option.some.inj h]
    exact .stop hended hcancelled
  | false =>
    cases hphase : s.phase with
    | fresh => exact works_of_fresh hcancelled h hphase
    | sending result next => exact works_of_sending hcancelled h hphase
    | listening => exact works_of_listening hcancelled h hphase
    | ended => exact absurd hphase hended

theorem exists_step_of_fresh {s : Stream} (h : s.phase = .fresh) (c : Client) :
    ∃ r, s.step c = some r := by
  refine Option.ne_none_iff_exists'.1 fun hnone => ?_
  rcases step_eq_none_iff.1 hnone with hended | ⟨-, hsending, -⟩ | ⟨-, hlistening, -⟩
  · cases h.symm.trans hended
  · simp [isSending, h] at hsending
  · cases h.symm.trans hlistening

theorem exists_step_of_room {s : Stream} {result : Emission} {next : Continuation}
    (h : s.phase = .sending result next) (hroom : s.buffer.length < s.capacity) (c : Client) :
    ∃ r, s.step c = some r := by
  refine Option.ne_none_iff_exists'.1 fun hnone => ?_
  rcases step_eq_none_iff.1 hnone with hended | ⟨-, -, hfull⟩ | ⟨-, hlistening, -⟩
  · cases h.symm.trans hended
  · exact Nat.not_le.2 hroom hfull
  · cases h.symm.trans hlistening

/-! ### Working until the stream waits -/

/-- What happens in at most `fuel` steps. -/
def eventsFor : (fuel : Nat) → Stream → Client → List Event
  | 0, _, _ => []
  | fuel + 1, s, c =>
    match s.step c with
    | some (s', c') => s.events c ++ eventsFor fuel s' c'
    | none => []

theorem advanceFor_succ {s : Stream} {c : Client} {r : Stream × Client} (h : s.step c = some r)
    (fuel : Nat) :
    advanceFor (fuel + 1) s c = advanceFor fuel r.1 r.2 ∧
      eventsFor (fuel + 1) s c = s.events c ++ eventsFor fuel r.1 r.2 := by
  rw [advanceFor, eventsFor, h]
  exact ⟨rfl, rfl⟩

/-- What happens until the stream waits. -/
def advanceEvents (s : Stream) (c : Client) : List Event := eventsFor (s.stepBound c) s c

/-- What holds at first and is preserved by every step holds when the stream waits. -/
theorem advanceFor_induction {motive : List Event → Stream → Client → Prop} {s : Stream}
    {c : Client} {front : List Event} (hstart : motive front s c)
    (hstep : ∀ {front s c events r}, motive front s c → Works s c events r →
      motive (front ++ events) r.1 r.2) (fuel : Nat) :
    motive (front ++ eventsFor fuel s c) (advanceFor fuel s c).1 (advanceFor fuel s c).2 := by
  induction fuel generalizing front s c with
  | zero =>
    rw [eventsFor, List.append_nil]
    exact hstart
  | succ fuel ih =>
    rw [eventsFor, advanceFor]
    rcases h : s.step c with _ | ⟨s', c'⟩
    · simp only [List.append_nil]
      exact hstart
    · simp only
      rw [← List.append_assoc]
      exact ih (hstep hstart (works_of_step h))

theorem advance_induction {motive : List Event → Stream → Client → Prop} {s : Stream}
    {c : Client} {front : List Event} (hstart : motive front s c)
    (hstep : ∀ {front s c events r}, motive front s c → Works s c events r →
      motive (front ++ events) r.1 r.2) :
    motive (front ++ s.advanceEvents c) (s.advance c).1 (s.advance c).2 :=
  advanceFor_induction hstart hstep _

/-- The same without regard to the events. -/
theorem advance_keeps {motive : Stream → Client → Prop} {s : Stream} {c : Client}
    (hstart : motive s c)
    (hstep : ∀ {s c events r}, motive s c → Works s c events r → motive r.1 r.2) :
    motive (s.advance c).1 (s.advance c).2 :=
  @advance_induction (fun _ => motive) s c [] hstart fun h hworks => hstep h hworks

end Stream

end LiveDocs
