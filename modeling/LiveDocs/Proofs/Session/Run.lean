import LiveDocs.Link
import LiveDocs.Proofs.Pass.Reading
import LiveDocs.Proofs.Stream.Work

/-!
# Runs of a session

A run interleaves, in any order, what others do to the store, the requests, the work of the streams
and what their consumers do; the journal tells what happened on each stream. Main statements:
`Step.outcome`, what a step can come to; `stream_induction`, what the work of a stream, its consumer
and its cancellation preserve holds of it at the end of any run; `working_run`, a stream works by
single steps; `busy_settle`, letting the queued streams work is a run in which they only work.
-/

namespace LiveDocs

/-- What happened in a session, each event with the stream it happened on. -/
abbrev Journal := List (StreamId × Event)

namespace Journal

/-- The events of one stream. -/
def of (j : Journal) (id : StreamId) : List Event := (j.filter (·.1 == id)).map (·.2)

/-- Events of one stream. -/
def on (id : StreamId) (events : List Event) : Journal := events.map (id, ·)

@[simp] theorem of_nil (id : StreamId) : of [] id = [] := rfl

@[simp] theorem of_append (j j' : Journal) (id : StreamId) :
    of (j ++ j') id = of j id ++ of j' id := by
  rw [of, List.filter_append, List.map_append]
  rfl

@[simp] theorem of_on_self (id : StreamId) (events : List Event) :
    of (on id events) id = events := by
  have hfilter : (on id events).filter (·.1 == id) = on id events :=
    List.filter_eq_self.2 fun entry hentry => by
      obtain ⟨event, -, rfl⟩ := List.mem_map.1 hentry
      exact beq_self_eq_true id
  rw [of, hfilter, on, List.map_map]
  exact List.map_id events

theorem on_append (id : StreamId) (front events : List Event) :
    on id (front ++ events) = on id front ++ on id events :=
  List.map_append

theorem of_on_of_ne {id other : StreamId} (h : id ≠ other) (events : List Event) :
    of (on id events) other = [] := by
  have hfilter : (on id events).filter (·.1 == other) = [] :=
    List.filter_eq_nil_iff.2 fun entry hentry => by
      obtain ⟨event, -, rfl⟩ := List.mem_map.1 hentry
      simpa using h
  rw [of, hfilter, List.map_nil]

end Journal

/-- The link that resolves an operation, unless results are given for it. -/
def Link.resolving (link : Link) (o : Operation) (next : Option NextLink) : Link :=
  if o.isDocumentOperation then link
  else
    match next with
    | some (.documents other) => other
    | _ => link

theorem Link.request_cases (link : Link) (o : Operation) (next : Option NextLink) (s : Session) :
    link.request o next s = (link.resolving o next).resolve o s ∨
      ∃ results, link.request o next s = s.openResults results := by
  unfold Link.request Link.resolving
  split
  · exact .inl rfl
  · split
    · exact .inl rfl
    · exact .inr ⟨_, rfl⟩
    · exact .inl rfl

namespace Session

/-! ### The queue -/

@[simp] theorem client_enqueue (s : Session) (id : StreamId) :
    (s.enqueue id).client = s.client := by
  rw [enqueue]
  split <;> rfl

@[simp] theorem streams_enqueue (s : Session) (id : StreamId) :
    (s.enqueue id).streams = s.streams := by
  rw [enqueue]
  split <;> rfl

/-- Waking streams changes the queue only. -/
theorem wakeNotified_keeps (s : Session) :
    s.wakeNotified.client = s.client ∧ s.wakeNotified.streams = s.streams := by
  rw [wakeNotified]
  generalize s.client.store.mail = mail
  induction mail generalizing s with
  | nil => exact ⟨rfl, rfl⟩
  | cons entry rest ih =>
    obtain ⟨box, notice⟩ := entry
    rw [List.foldl_cons]
    cases hid : s.listenerOf? box with
    | none =>
      simp only [hid]
      exact ih s
    | some id =>
      simp only [hid]
      obtain ⟨hclient, hstreams⟩ := ih (s.enqueue id)
      exact ⟨hclient.trans (client_enqueue s id), hstreams.trans (streams_enqueue s id)⟩

@[simp] theorem client_wakeNotified (s : Session) : s.wakeNotified.client = s.client :=
  s.wakeNotified_keeps.1

@[simp] theorem streams_wakeNotified (s : Session) : s.wakeNotified.streams = s.streams :=
  s.wakeNotified_keeps.2

@[simp] theorem client_act {α : Type} (s : Session) (f : Store → α × Store) :
    (s.act f).2.client = { s.client with store := (f s.client.store).2 } :=
  client_wakeNotified _

@[simp] theorem streams_act {α : Type} (s : Session) (f : Store → α × Store) :
    (s.act f).2.streams = s.streams :=
  streams_wakeNotified _

/-! ### Steps -/

/-- Lets a stream work until it waits, whatever its place in the queue. -/
def run (s : Session) (id : StreamId) : Session :=
  let s := { s with ready := s.ready.erase id }
  match s.streams[id]? with
  | none => s
  | some stream =>
    let (stream, client) := stream.advance s.client
    ({ s with client }.setStream id stream).wakeNotified

/-- What happens when a stream works until it waits. -/
def runJournal (s : Session) (id : StreamId) : Journal :=
  match s.streams[id]? with
  | none => []
  | some stream => .on id (stream.advanceEvents s.client)

/-- Lets a stream take one step of its work. -/
def work (s : Session) (id : StreamId) : Session :=
  match s.streams[id]? with
  | none => s
  | some stream =>
    match stream.step s.client with
    | none => s
    | some (stream, client) => ({ s with client }.setStream id stream).wakeNotified

/-- What happens when a stream takes one step. -/
def workJournal (s : Session) (id : StreamId) : Journal :=
  match s.streams[id]? with
  | none => []
  | some stream =>
    match stream.step s.client with
    | none => []
    | some _ => .on id (stream.events s.client)

/-- What happens when a consumer looks for the next result. -/
def pollJournal (s : Session) (id : StreamId) : Journal :=
  match (s.poll id).1 with
  | .emitted result => .on id [.taken result]
  | _ => []

/-- One step of a session, and what happens on its streams. A stream may work until it waits or take
one step only, so that other things happen between its steps. -/
inductive Step (s : Session) : Journal → Session → Prop where
  | request (link : Link) (o : Operation) (next : Option NextLink) :
      Step s [] (link.request o next s).2
  | spawn (config : Executor.Config) (o : Operation) (live : Bool) (buffer : Nat) :
      Step s [] (s.spawn config o live buffer).2
  | execute (config : Executor.Config) (o : Operation) : Step s [] (s.execute config o).2.2
  | ask {α : Type} (r : Request α) (hr : ¬ r.Listens) : Step s [] (s.act r.run).2
  | failNext (e : StoreError) : Step s [] (s.act fun store => ((), store.failNext e)).2
  | failListeners (e : StoreError) : Step s [] (s.act fun store => ((), store.failListeners e)).2
  | setPending (d : DocumentRef) (field : String) (v : PendingValue) :
      Step s [] (s.act fun store => ((), store.setPending d field v)).2
  | run (id : StreamId) : Step s (s.runJournal id) (s.run id)
  | work (id : StreamId) : Step s (s.workJournal id) (s.work id)
  | poll (id : StreamId) : Step s (s.pollJournal id) (s.poll id).2
  | drop (id : StreamId) : Step s [] (s.drop id)

/-- Steps one after the other, with all that happens. -/
inductive Run (step : Session → Journal → Session → Prop) (s : Session) :
    Journal → Session → Prop where
  | refl : Run step s [] s
  | tail {j j' : Journal} {s' s'' : Session} (hrun : Run step s j s') (hstep : step s' j' s'') :
      Run step s (j ++ j') s''

variable {step : Session → Journal → Session → Prop}

theorem Run.single {s s' : Session} {j : Journal} (h : step s j s') : Run step s j s' := by
  have hrun := Run.tail .refl h
  rwa [List.nil_append] at hrun

theorem Run.mono {step' : Session → Journal → Session → Prop} {s s' : Session} {j : Journal}
    (h : Run step s j s') (hstep : ∀ {s s' j}, step s j s' → step' s j s') : Run step' s j s' := by
  induction h with
  | refl => exact .refl
  | tail _ hlast ih => exact ih.tail (hstep hlast)

theorem Run.trans {s s' s'' : Session} {j j' : Journal} (h : Run step s j s')
    (h' : Run step s' j' s'') : Run step s (j ++ j') s'' := by
  induction h' with
  | refl =>
    rw [List.append_nil]
    exact h
  | tail _ hstep ih =>
    rw [← List.append_assoc]
    exact ih.tail hstep

/-! ### What a step does to the client and the streams -/

theorem run_of_none {s : Session} {id : StreamId} (h : s.streams[id]? = none) :
    (s.run id).client = s.client ∧ (s.run id).streams = s.streams ∧ s.runJournal id = [] := by
  simp only [run, runJournal, h, and_self]

theorem run_of_some {s : Session} {id : StreamId} {stream : Stream}
    (h : s.streams[id]? = some stream) :
    (s.run id).client = (stream.advance s.client).2 ∧
      (s.run id).streams = s.streams.set id (stream.advance s.client).1 ∧
      s.runJournal id = .on id (stream.advanceEvents s.client) := by
  simp only [run, runJournal, h, client_wakeNotified, streams_wakeNotified]
  exact ⟨rfl, rfl, trivial⟩

theorem work_of_step {s : Session} {id : StreamId} {stream : Stream} {r : Stream × Client}
    (hid : s.streams[id]? = some stream) (h : stream.step s.client = some r) :
    (s.work id).client = r.2 ∧ (s.work id).streams = s.streams.set id r.1 ∧
      s.workJournal id = .on id (stream.events s.client) := by
  simp only [work, workJournal, hid, h, client_wakeNotified, streams_wakeNotified]
  exact ⟨rfl, rfl, trivial⟩

/-- A stream takes a step, or there is nothing for it to do. -/
theorem work_cases (s : Session) (id : StreamId) :
    (s.work id = s ∧ s.workJournal id = []) ∨
      ∃ stream r, s.streams[id]? = some stream ∧ stream.step s.client = some r ∧
        (s.work id).client = r.2 ∧ (s.work id).streams = s.streams.set id r.1 ∧
        s.workJournal id = .on id (stream.events s.client) := by
  cases hid : s.streams[id]? with
  | none =>
    refine .inl ?_
    simp only [work, workJournal, hid, and_self]
  | some stream =>
    cases hstep : stream.step s.client with
    | none =>
      refine .inl ?_
      simp only [work, workJournal, hid, hstep, and_self]
    | some r => exact .inr ⟨stream, r, rfl, hstep, work_of_step hid hstep⟩

theorem poll_of_none {s : Session} {id : StreamId} (h : s.streams[id]? = none) :
    (s.poll id).2 = s ∧ s.pollJournal id = [] := by
  simp only [poll, pollJournal, h, and_self]

theorem poll_of_buffer {s : Session} {id : StreamId} {stream : Stream} {result : Emission}
    {rest : List Emission} (h : s.streams[id]? = some stream)
    (hbuffer : stream.buffer = result :: rest) :
    (s.poll id).2.client = s.client ∧
      (s.poll id).2.streams = s.streams.set id { stream with buffer := rest } ∧
      s.pollJournal id = .on id [.taken result] := by
  simp only [poll, pollJournal, h, Stream.poll, hbuffer]
  refine ⟨?_, ?_, trivial⟩
  · split <;> simp [setStream]
  · split <;> simp [setStream]

theorem set_streams_self {s : Session} {id : StreamId} {stream : Stream}
    (h : s.streams[id]? = some stream) : s.streams.set id stream = s.streams := by
  obtain ⟨hlt, rfl⟩ := List.getElem?_eq_some_iff.1 h
  exact List.set_getElem_self hlt

theorem poll_of_nil {s : Session} {id : StreamId} {stream : Stream}
    (h : s.streams[id]? = some stream) (hbuffer : stream.buffer = []) :
    (s.poll id).2.client = s.client ∧ (s.poll id).2.streams = s.streams ∧
      s.pollJournal id = [] := by
  have hset := set_streams_self h
  simp only [poll, pollJournal, h, Stream.poll, hbuffer]
  cases stream.isEnded <;> exact ⟨rfl, hset, rfl⟩

theorem drop_of_none {s : Session} {id : StreamId} (h : s.streams[id]? = none) :
    s.drop id = s := by
  simp only [drop, h]

theorem drop_of_some {s : Session} {id : StreamId} {stream : Stream}
    (h : s.streams[id]? = some stream) :
    (s.drop id).client = s.client ∧ (s.drop id).streams = s.streams.set id stream.cancel := by
  simp only [drop, h]
  split <;> simp [setStream]

/-- A stream is opened and has no listeners yet. -/
def Opens (s s' : Session) : Prop :=
  s'.client = s.client ∧ ∃ stream, stream.listeners = [] ∧ s'.streams = s.streams ++ [stream]

theorem opens_spawn (s : Session) (config : Executor.Config) (o : Operation) (live : Bool)
    (buffer : Nat) : s.Opens (s.spawn config o live buffer).2 :=
  ⟨client_enqueue _ _, _, rfl, streams_enqueue _ _⟩

theorem stream_spawn (s : Session) (config : Executor.Config) (o : Operation) (live : Bool)
    (buffer : Nat) :
    (s.spawn config o live buffer).2.streams[(s.spawn config o live buffer).1]? =
      some (Stream.start config o live buffer s.mailboxes) := by
  rw [spawn, streams_enqueue]
  exact List.getElem?_concat_length

theorem opens_request (s : Session) (link : Link) (o : Operation) (next : Option NextLink) :
    s.Opens (link.request o next s).2 := by
  rcases link.request_cases o next s with h | ⟨results, h⟩
  · rw [h]
    exact opens_spawn s _ _ _ _
  · rw [h]
    exact ⟨rfl, _, rfl, rfl⟩

/-- What can happen on one stream, and the stream and the client after it. -/
inductive Moves (stream : Stream) (c : Client) : List Event → Stream × Client → Prop where
  | work {r : Stream × Client} (h : stream.step c = some r) :
      Moves stream c (stream.events c) r
  | advance : Moves stream c (stream.advanceEvents c) (stream.advance c)
  | take {result : Emission} {rest : List Emission} (h : stream.buffer = result :: rest) :
      Moves stream c [.taken result] ({ stream with buffer := rest }, c)
  | cancel : Moves stream c [] (stream.cancel, c)

/-- What a step comes to: no stream and no listener is touched, a stream is opened, or something
happens on one stream. -/
inductive Outcome (s : Session) : Journal → Session → Prop where
  | keeps {s' : Session} (hkeeps : s.client.store.KeepsListeners s'.client.store)
      (hstreams : s'.streams = s.streams) : Outcome s [] s'
  | opens {s' : Session} (h : s.Opens s') : Outcome s [] s'
  | moves {s' : Session} {id : StreamId} {stream : Stream} {events : List Event}
      {r : Stream × Client} (hid : s.streams[id]? = some stream)
      (hmoves : Moves stream s.client events r) (hclient : s'.client = r.2)
      (hstreams : s'.streams = s.streams.set id r.1) : Outcome s (.on id events) s'

theorem outcome_act {α : Type} {s : Session} {f : Store → α × Store}
    (h : s.client.store.KeepsListeners (f s.client.store).2) : Outcome s [] (s.act f).2 := by
  refine .keeps ?_ (streams_act s f)
  rw [client_act]
  exact h

/-- Every step comes to one of these. -/
theorem Step.outcome {s s' : Session} {j : Journal} (h : Step s j s') : Outcome s j s' := by
  cases h with
  | request link o next => exact .opens (opens_request s link o next)
  | spawn config o live buffer => exact .opens (opens_spawn s config o live buffer)
  | execute config o =>
    refine .keeps ?_ (streams_wakeNotified _)
    rw [Session.execute, client_wakeNotified]
    exact Executor.keepsListeners_execute config o s.client
  | ask r hr => exact outcome_act (r.keepsListeners_run hr s.client.store)
  | failNext e => exact outcome_act ⟨rfl, rfl, rfl⟩
  | failListeners e => exact outcome_act ⟨rfl, rfl, rfl⟩
  | setPending d field v => exact outcome_act ⟨rfl, rfl, rfl⟩
  | run id =>
    cases hid : s.streams[id]? with
    | none =>
      obtain ⟨hclient, hstreams, hj⟩ := run_of_none hid
      rw [hj]
      exact .keeps (hclient ▸ .refl _) hstreams
    | some stream =>
      obtain ⟨hclient, hstreams, hj⟩ := run_of_some hid
      rw [hj]
      exact .moves hid .advance hclient hstreams
  | work id =>
    rcases work_cases s id with ⟨hwork, hj⟩ | ⟨stream, r, hid, hstep, hclient, hstreams, hj⟩
    · rw [hwork, hj]
      exact .keeps (.refl _) rfl
    · rw [hj]
      exact .moves hid (.work hstep) hclient hstreams
  | poll id =>
    cases hid : s.streams[id]? with
    | none =>
      obtain ⟨hpoll, hj⟩ := poll_of_none hid
      rw [hpoll, hj]
      exact .keeps (.refl _) rfl
    | some stream =>
      cases hbuffer : stream.buffer with
      | nil =>
        obtain ⟨hclient, hstreams, hj⟩ := poll_of_nil hid hbuffer
        rw [hj]
        exact .keeps (hclient ▸ .refl _) hstreams
      | cons result rest =>
        obtain ⟨hclient, hstreams, hj⟩ := poll_of_buffer hid hbuffer
        rw [hj]
        exact .moves hid (.take hbuffer) hclient hstreams
  | drop id =>
    cases hid : s.streams[id]? with
    | none =>
      rw [drop_of_none hid]
      exact .keeps (.refl _) rfl
    | some stream =>
      -- nothing happens yet: the stream ends when it gets its turn
      obtain ⟨hclient, hstreams⟩ := drop_of_some hid
      have houtcome : Outcome s (.on id []) (s.drop id) := .moves hid .cancel hclient hstreams
      exact houtcome

/-! ### One stream in a run -/

section Induction

variable {motive : List Event → Stream → Prop}
  (hwork : ∀ {front stream c events r}, motive front stream → Stream.Works stream c events r →
    motive (front ++ events) r.1)
  (htake : ∀ {front stream result rest}, motive front stream → stream.buffer = result :: rest →
    motive (front ++ [.taken result]) { stream with buffer := rest })
  (hcancel : ∀ {front stream}, motive front stream → motive front stream.cancel)

include hwork htake hcancel

theorem motive_of_moves {front events : List Event} {stream : Stream} {c : Client}
    {r : Stream × Client} (h : motive front stream) (hmoves : Moves stream c events r) :
    motive (front ++ events) r.1 := by
  cases hmoves with
  | work hstep => exact hwork h (Stream.works_of_step hstep)
  | advance =>
    exact Stream.advance_induction (motive := fun events stream _ => motive events stream) h
      fun hmotive hworks => hwork hmotive hworks
  | take hbuffer => exact htake h hbuffer
  | cancel =>
    rw [List.append_nil]
    exact hcancel h

/-- A step does to each stream what happens on it. -/
theorem motive_of_step {s s' : Session} {j : Journal} (hstep : Step s j s') {id : StreamId}
    {front : List Event} {stream : Stream} (hid : s.streams[id]? = some stream)
    (h : motive front stream) :
    ∃ stream', s'.streams[id]? = some stream' ∧ motive (front ++ j.of id) stream' := by
  have hlt := (List.getElem?_eq_some_iff.1 hid).1
  cases hstep.outcome with
  | keeps _ hstreams =>
    refine ⟨stream, hstreams ▸ hid, ?_⟩
    rw [Journal.of_nil, List.append_nil]
    exact h
  | opens hopens =>
    obtain ⟨-, opened, -, hstreams⟩ := hopens
    refine ⟨stream, ?_, ?_⟩
    · rw [hstreams, List.getElem?_append_left hlt, hid]
    · rw [Journal.of_nil, List.append_nil]
      exact h
  | @moves _ other before events r hother hmoves _ hstreams =>
    -- what happens on another stream is no event of this one
    by_cases heq : other = id
    · subst heq
      obtain rfl : before = stream := Option.some.inj (hother.symm.trans hid)
      refine ⟨r.1, ?_, ?_⟩
      · rw [hstreams, List.getElem?_set_self hlt]
      · rw [Journal.of_on_self]
        exact motive_of_moves (motive := motive) hwork htake hcancel h hmoves
    · refine ⟨stream, ?_, ?_⟩
      · rw [hstreams, List.getElem?_set_ne heq, hid]
      · rw [Journal.of_on_of_ne heq, List.append_nil]
        exact h

/-- What the work of a stream, its consumer and its cancellation preserve holds of it at the end of
any run. -/
theorem stream_induction {s s' : Session} {j : Journal} (hrun : Run Step s j s') {id : StreamId}
    {stream : Stream} (hid : s.streams[id]? = some stream) (hstart : motive [] stream) :
    ∃ stream', s'.streams[id]? = some stream' ∧ motive (j.of id) stream' := by
  induction hrun with
  | refl => exact ⟨stream, hid, hstart⟩
  | tail _ hstep ih =>
    obtain ⟨before, hbefore, hmotive⟩ := ih
    rw [Journal.of_append]
    exact motive_of_step (motive := motive) hwork htake hcancel hstep hbefore hmotive

end Induction

/-! ### Working step by step -/

/-- A stream takes one step of its work, and nothing else happens. -/
inductive Working (id : StreamId) (s : Session) : Journal → Session → Prop where
  | work : Working id s (s.workJournal id) (s.work id)

theorem working_advanceFor {s : Session} {id : StreamId} {stream : Stream}
    (hid : s.streams[id]? = some stream) (fuel : Nat) :
    ∃ s', Run (Working id) s (.on id (Stream.eventsFor fuel stream s.client)) s' ∧
      s'.client = (Stream.advanceFor fuel stream s.client).2 ∧
      s'.streams = s.streams.set id (Stream.advanceFor fuel stream s.client).1 := by
  induction fuel generalizing s stream with
  | zero => exact ⟨s, .refl, rfl, (set_streams_self hid).symm⟩
  | succ fuel ih =>
    cases hstep : stream.step s.client with
    | none =>
      rw [Stream.eventsFor, Stream.advanceFor, hstep]
      exact ⟨s, .refl, rfl, (set_streams_self hid).symm⟩
    | some r =>
      obtain ⟨hclient, hstreams, hjournal⟩ := work_of_step hid hstep
      obtain ⟨hadvance, hevents⟩ := Stream.advanceFor_succ hstep fuel
      have hmoved : (s.work id).streams[id]? = some r.1 := by
        rw [hstreams, List.getElem?_set_self (List.getElem?_eq_some_iff.1 hid).1]
      obtain ⟨s', hrun, hclient', hstreams'⟩ := ih hmoved
      rw [hclient] at hrun hclient' hstreams'
      rw [hstreams, List.set_set] at hstreams'
      rw [hadvance, hevents, Journal.on_append, ← hjournal]
      exact ⟨s', (Run.single .work).trans hrun, hclient', hstreams'⟩

/-- To work until it waits, a stream takes one step after the other. -/
theorem working_run (s : Session) (id : StreamId) :
    ∃ s', Run (Working id) s (s.runJournal id) s' ∧ s'.client = (s.run id).client ∧
      s'.streams = (s.run id).streams := by
  cases hid : s.streams[id]? with
  | none =>
    obtain ⟨hclient, hstreams, hjournal⟩ := run_of_none hid
    rw [hjournal, hclient, hstreams]
    exact ⟨s, .refl, rfl, rfl⟩
  | some stream =>
    obtain ⟨hclient, hstreams, hjournal⟩ := run_of_some hid
    rw [hjournal, hclient, hstreams]
    exact working_advanceFor hid _

/-! ### The operations of a session are runs -/

theorem runNext_eq_run {s : Session} {id : StreamId} {rest : List StreamId}
    (h : s.ready = id :: rest) : s.runNext = s.run id := by
  cases hid : s.streams[id]? with
  | none => simp only [runNext, run, h, hid, List.erase_cons_head]
  | some stream => simp only [runNext, run, h, hid, List.erase_cons_head]

/-- The streams work, each by single steps or until it waits, and nothing else happens. -/
inductive Busy (s : Session) : Journal → Session → Prop where
  | run (id : StreamId) : Busy s (s.runJournal id) (s.run id)
  | work (id : StreamId) : Busy s (s.workJournal id) (s.work id)

theorem step_of_busy {s s' : Session} {j : Journal} (h : Busy s j s') : Step s j s' := by
  cases h with
  | run id => exact .run id
  | work id => exact .work id

theorem busy_settleFor (fuel : Nat) (s : Session) : ∃ j, Run Busy s j (settleFor fuel s) := by
  induction fuel generalizing s with
  | zero => exact ⟨[], .refl⟩
  | succ fuel ih =>
    rw [settleFor]
    cases hready : s.ready with
    | nil => exact ⟨[], .refl⟩
    | cons id rest =>
      obtain ⟨j, hj⟩ := ih s.runNext
      rw [runNext_eq_run hready] at hj
      rw [runNext_eq_run hready]
      exact ⟨_, (Run.single (.run id)).trans hj⟩

/-- Letting the queued streams work until all of them wait is a run in which they only work. -/
theorem busy_settle (s : Session) : ∃ j, Run Busy s j s.settle := busy_settleFor _ s

end Session

/-- A live operation on one document, to try runs on. -/
def watchUser : Operation :=
  ((Operation.empty .query).withDirective (.named "query")).select
    (((Field.leaf "user").withDirective
      ((((Directive.named "query").withArgument "path" (.literal (.string "users/u1"))).withArgument
        "rootType" (.literal (.string "document"))).withArgument
        "subscribe" (.literal (.bool true)))).select (Field.leaf "id"))

end LiveDocs
