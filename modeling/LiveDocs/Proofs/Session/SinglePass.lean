import LiveDocs.Proofs.Session.FirstPass
import LiveDocs.Proofs.Session.Rest

/-!
# Runs for the first result

To run an operation for its first result is to execute it once: the stream that resolves it makes a
pass, its consumer takes the result and gives the stream up. Nobody else works with the session
meanwhile, so that the order of these steps does not matter, nor how far the stream gets with its
listeners. Main statements: `Alone.busy`, what one stream at work preserves; `Alone.poll`, what its
consumer finds; `singlePass_runOnce`, what every run for the first result comes to.
-/

namespace LiveDocs

/-! ### Sessions with one stream at work -/

/-- A pass adds notices for the listeners that are attached, and no others. -/
theorem Executor.mem_mail_execute (config : Config) (o : Operation) (c : Client) :
    ∀ entry ∈ (execute config o c).client.store.mail,
      entry ∈ c.store.mail ∨ ∃ l ∈ c.store.listeners, entry.1 = l.mailbox := by
  have hboth : c.store.KeepsListeners (execute config o c).client.store ∧
      ∀ entry ∈ (execute config o c).client.store.mail,
        entry ∈ c.store.mail ∨ ∃ l ∈ c.store.listeners, entry.1 = l.mailbox := by
    refine Pass.client_run (R := fun c c' => c.store.KeepsListeners c'.store ∧
        ∀ entry ∈ c'.store.mail, entry ∈ c.store.mail ∨ ∃ l ∈ c.store.listeners,
          entry.1 = l.mailbox)
      (fun c => ⟨.refl _, fun _ hentry => .inl hentry⟩) ?_ (fun r hr c => ?_)
      (makes_documents config o) ⟨c, []⟩
    · rintro c c' c'' ⟨hkeeps, hmail⟩ ⟨hkeeps', hmail'⟩
      refine ⟨hkeeps.trans hkeeps', fun entry hentry => ?_⟩
      rcases hmail' entry hentry with hbefore | htold
      · exact hmail entry hbefore
      · rw [hkeeps.listeners] at htold
        exact .inr htold
    · have hlistens : ¬ r.Listens := hr.elim Request.Reads.not_listens Request.Writes.not_listens
      rcases c.store_perform r.call r.run with hstore | hstore
      · rw [hstore]
        exact ⟨.refl _, fun _ hentry => .inl hentry⟩
      · rw [hstore]
        refine ⟨Request.keepsListeners_run hlistens c.store, fun entry hentry => ?_⟩
        obtain ⟨told, htold, hmail⟩ := Store.exists_mail_run r c.store
        rw [hmail] at hentry
        refine (List.mem_append.1 hentry).imp_right fun hnew => ?_
        obtain ⟨l, hl, rfl⟩ := List.mem_map.1 hnew
        exact ⟨l, htold.subset hl, rfl⟩
  exact hboth.2

namespace Session

variable {s s' : Session} {j : Journal} {others : List Stream} {motive : Stream → Client → Prop}

theorem mailboxes_of_busy (h : Busy s j s') : s'.mailboxes = s.mailboxes := by
  cases h with
  | run id =>
    cases hid : s.streams[id]? with
    | none => simp only [Session.run, hid]
    | some stream => simp only [Session.run, hid, mailboxes_wakeNotified, setStream]
  | work id =>
    rw [work]
    split
    · rfl
    · split
      · rfl
      · rw [mailboxes_wakeNotified, setStream]

theorem mailboxes_poll (s : Session) (id : StreamId) : (s.poll id).2.mailboxes = s.mailboxes := by
  rw [poll]
  split
  · rfl
  · simp only
    split
    · split
      · rw [mailboxes_enqueue, setStream]
      · rfl
    · rfl

theorem mailboxes_drop (s : Session) (id : StreamId) : (s.drop id).mailboxes = s.mailboxes := by
  rw [drop]
  split
  · rfl
  · split
    · rfl
    · rw [mailboxes_enqueue, setStream]

/-- All streams have ended but the one that was opened last, and this holds of it and the client. -/
structure Alone (others : List Stream) (motive : Stream → Client → Prop) (s : Session) : Prop where
  ended : ∀ stream ∈ others, stream.phase = .ended
  last : ∃ stream, s.streams = others ++ [stream] ∧ motive stream s.client

theorem getElem?_of_last {stream : Stream} (h : s.streams = others ++ [stream]) :
    s.streams[others.length]? = some stream := by
  rw [h]
  exact List.getElem?_concat_length

theorem set_of_last {stream : Stream} (h : s.streams = others ++ [stream]) (stream' : Stream) :
    s.streams.set others.length stream' = others ++ [stream'] := by
  rw [h, List.set_append_right _ _ (Nat.le_refl _), Nat.sub_self]
  rfl

theorem mem_of_not_last {stream found : Stream} {id : StreamId}
    (h : s.streams = others ++ [stream]) (hid : s.streams[id]? = some found)
    (hne : id ≠ others.length) : found ∈ others := by
  have hlt : id < others.length := by
    have hbound := (List.getElem?_eq_some_iff.1 hid).1
    rw [h, List.length_append, List.length_singleton] at hbound
    exact Nat.lt_of_le_of_ne (Nat.le_of_lt_succ hbound) hne
  rw [h, List.getElem?_append_left hlt] at hid
  exact List.mem_of_getElem? hid

/-- What every step of the last stream preserves is preserved while the streams work: the others
have nothing to do. -/
theorem Alone.busy (h : s.Alone others motive)
    (hworks : ∀ {stream c events r}, motive stream c → Stream.Works stream c events r →
      motive r.1 r.2) (hstep : Busy s j s') : s'.Alone others motive := by
  obtain ⟨hended, stream, hstreams, hmotive⟩ := h
  have hlast := getElem?_of_last hstreams
  refine ⟨hended, ?_⟩
  cases hstep with
  | run id =>
    by_cases hid : id = others.length
    · subst hid
      obtain ⟨hclient', hstreams', -⟩ := run_of_some hlast
      refine ⟨_, hstreams'.trans (set_of_last hstreams _), ?_⟩
      rw [hclient']
      exact Stream.advance_keeps hmotive fun hbefore => hworks hbefore
    · have hrests : ∀ found, s.streams[id]? = some found → found.Rests s.client :=
        fun found hfound => .ended (hended found (mem_of_not_last hstreams hfound hid))
      obtain ⟨hclient', hstreams'⟩ := run_of_rests hrests
      exact ⟨stream, hstreams'.trans hstreams, hclient' ▸ hmotive⟩
  | work id =>
    rcases work_cases s id with ⟨hsame, -⟩ | ⟨found, r, hfound, hstep, hclient', hstreams', -⟩
    · rw [hsame]
      exact ⟨stream, hstreams, hmotive⟩
    · have hfoundWorks := Stream.works_of_step hstep
      by_cases hid : id = others.length
      · subst hid
        obtain rfl : found = stream := Option.some.inj (hfound.symm.trans hlast)
        refine ⟨r.1, hstreams'.trans (set_of_last hstreams _), ?_⟩
        rw [hclient']
        exact hworks hmotive hfoundWorks
      · exact absurd (hended found (mem_of_not_last hstreams hfound hid)) hfoundWorks.not_ended

theorem Alone.busy_run (h : s.Alone others motive)
    (hworks : ∀ {stream c events r}, motive stream c → Stream.Works stream c events r →
      motive r.1 r.2) (hrun : Run Busy s j s') : s'.Alone others motive := by
  induction hrun with
  | refl => exact h
  | tail _ hstep ih => exact ih.busy hworks hstep

theorem mailboxes_of_busy_run (hrun : Run Busy s j s') : s'.mailboxes = s.mailboxes := by
  induction hrun with
  | refl => rfl
  | tail _ hstep ih => exact (mailboxes_of_busy hstep).trans ih

/-- Nobody works with the session: all its streams have ended, and whatever waits in the mail and
whoever listens belongs to a mailbox that was opened before. -/
structure Idle (s : Session) : Prop where
  attentive : s.Attentive
  ended : ∀ stream ∈ s.streams, stream.phase = .ended
  numbered : ∀ l ∈ s.client.store.listeners, l.id < s.client.store.nextListener
  opened : ∀ l ∈ s.client.store.listeners, l.mailbox < s.mailboxes
  addressed : ∀ entry ∈ s.client.store.mail, entry.1 < s.mailboxes

/-- So it is with a session on a store to which nobody listens. -/
theorem idle_ofClient {c : Client} (hlisteners : c.store.listeners = [])
    (hmail : c.store.mail = []) : (ofClient c).Idle where
  attentive := attentive_ofClient c
  ended := fun stream hstream => by cases hstream
  numbered := fun l hl => by
    rw [ofClient, hlisteners] at hl
    cases hl
  opened := fun l hl => by
    rw [ofClient, hlisteners] at hl
    cases hl
  addressed := fun entry hentry => by
    rw [ofClient, hmail] at hentry
    cases hentry

/-- Nothing that a pass leaves behind belongs to the mailbox that is opened next. -/
theorem Idle.spares (h : s.Idle) (config : Executor.Config) (o : Operation) :
    (Executor.execute config o s.client).client.Spares s.mailboxes where
  mail := fun entry hentry => by
    rcases Executor.mem_mail_execute config o s.client entry hentry with hbefore | ⟨l, hl, hbox⟩
    · exact Nat.ne_of_lt (h.addressed entry hbefore)
    · rw [hbox]
      exact Nat.ne_of_lt (h.opened l hl)
  numbered := fun l hl => by
    have hkeeps := Executor.keepsListeners_execute config o s.client
    rw [hkeeps.listeners] at hl
    rw [hkeeps.nextListener]
    exact h.numbered l hl

/-! ### Asking for the first result -/

end Session

/-- The result that a consumer finds, if it finds one. -/
def Stream.Poll.result? : Stream.Poll → Option Emission
  | .emitted result => some result
  | .done => none
  | .pending => none

open Session

/-- What a consumer gets that wants the first result of an operation, and the session afterwards:
the streams work until there is an answer, which is a result or that there is none; they may go on
until the consumer gives its stream up, and then work until that has ended. -/
inductive Link.Gives (link : Link) (o : Operation) (s : Session) :
    Option Emission → Session → Prop where
  | intro {s₁ s₂ s₃ : Session} {j j' j'' : Journal}
      (hwait : Run Busy (link.request o none s).2 j s₁)
      (hanswer : (s₁.poll (link.request o none s).1).1 ≠ .pending)
      (hmore : Run Busy (s₁.poll (link.request o none s).1).2 j' s₂)
      (hstop : Run Busy (s₂.drop (link.request o none s).1) j'' s₃)
      (hended : ∀ stream, s₃.streams[(link.request o none s).1]? = some stream →
        stream.phase = .ended) :
      Link.Gives link o s (s₁.poll (link.request o none s).1).1.result? s₃

/-- The session was used for one pass: the consumer got what the pass came to, and the client is the
one after the pass, but for listen calls, failures that these used up, and the numbers of the
listeners that came and went. -/
structure Session.SinglePass (s : Session) (outcome : Executor.Outcome) (answer : Option Emission)
    (s' : Session) : Prop where
  answer : answer = outcome.answer
  calls : ∃ targets : List ListenTarget,
    s'.client.log = outcome.client.log ++ targets.map .listen
  store : ∃ failures nextListener detached,
    s'.client.store = { outcome.client.store with failures, nextListener, detached }
  listeners : s'.client.store.listeners = s.client.store.listeners
  idle : s'.Idle

namespace Session

variable {s s' s₁ : Session} {link : Link} {o : Operation} {j : Journal}

theorem request_none (link : Link) (o : Operation) (s : Session) :
    link.request o none s = s.spawn link.executor o o.subscribes link.streamBuffer := by
  rw [Link.request]
  split <;> rfl

theorem fst_request (link : Link) (o : Operation) (s : Session) :
    (link.request o none s).1 = s.streams.length := by
  rw [request_none]
  rfl

theorem mailboxes_request (link : Link) (o : Operation) (s : Session) :
    (link.request o none s).2.mailboxes = s.mailboxes + 1 := by
  rw [request_none]
  exact mailboxes_enqueue _ _

/-- The operation is resolved by a stream that has not begun. -/
theorem Idle.alone_request (h : s.Idle) (link : Link) (o : Operation) :
    (link.request o none s).2.Alone s.streams
      (Stream.Waited link.executor o o.subscribes link.streamBuffer s.mailboxes s.client) := by
  rw [request_none]
  refine ⟨h.ended, Stream.start link.executor o o.subscribes link.streamBuffer s.mailboxes,
    streams_enqueue _ _, ?_⟩
  have hclient : (s.spawn link.executor o o.subscribes link.streamBuffer).2.client = s.client :=
    client_enqueue _ _
  rw [hclient]
  exact .fresh

theorem Idle.alone_wait (h : s.Idle) (hwait : Run Busy (link.request o none s).2 j s₁) :
    s₁.Alone s.streams
      (Stream.Waited link.executor o o.subscribes link.streamBuffer s.mailboxes s.client) :=
  (h.alone_request link o).busy_run
    (fun hwaited hworks => hwaited.works (h.spares link.executor o) hworks) hwait

/-- An answer is what the pass came to. -/
theorem Alone.poll {others : List Stream} {config : Executor.Config} {live : Bool} {buffer : Nat}
    {box : Mailbox} {c : Client}
    (h : s.Alone others (Stream.Waited config o live buffer box c))
    (hanswer : (s.poll others.length).1 ≠ .pending) :
    (s.poll others.length).1.result? = (Executor.execute config o c).answer ∧
      (s.poll others.length).2.Alone others
        (Stream.Passed (Executor.execute config o c) box) := by
  obtain ⟨hended, stream, hstreams, hwaited⟩ := h
  have hlast := getElem?_of_last hstreams
  cases hwaited with
  | fresh =>
    simp only [Session.poll, hlast, Stream.poll, Stream.start, Stream.isEnded] at hanswer
    exact absurd rfl hanswer
  | passed hawaited =>
    have hfirst := hawaited.first
    cases hbuffer : stream.buffer with
    | nil =>
      obtain ⟨hclient, hsame, -⟩ := poll_of_nil hlast hbuffer
      refine ⟨?_, hended, stream, hsame.trans hstreams, hclient ▸ hawaited.toPassed⟩
      simp only [Session.poll, hlast, Stream.poll, hbuffer] at hanswer ⊢
      -- with nothing to give, the stream answers because it has ended
      cases hphase : stream.phase with
      | ended =>
        rw [hbuffer, Stream.unsent, hphase] at hfirst
        rw [← hfirst]
        simp only [Stream.isEnded, hphase]
        rfl
      | fresh | sending | listening =>
        simp only [Stream.isEnded, hphase] at hanswer
        exact absurd rfl hanswer
    | cons result rest =>
      obtain ⟨hclient, hset, -⟩ := poll_of_buffer hlast hbuffer
      refine ⟨?_, hended, _, hset.trans (set_of_last hstreams _), ?_⟩
      · rw [hbuffer] at hfirst
        rw [← hfirst]
        simp only [Session.poll, hlast, Stream.poll, hbuffer]
        rfl
      · obtain ⟨hphase, hmailbox, hlistened, hdone⟩ := hawaited.toPassed
        rw [hclient]
        exact ⟨hphase, hmailbox, hlistened, hdone⟩

theorem Alone.drop {others : List Stream} {outcome : Executor.Outcome} {box : Mailbox}
    (h : s.Alone others (Stream.Passed outcome box)) :
    (s.drop others.length).Alone others (Stream.Passed outcome box) := by
  obtain ⟨hended, stream, hstreams, hphase, hmailbox, hlistened, hdone⟩ := h
  obtain ⟨hclient, hset⟩ := drop_of_some (getElem?_of_last hstreams)
  refine ⟨hended, stream.cancel, hset.trans (set_of_last hstreams _), ?_⟩
  rw [hclient]
  exact ⟨hphase, hmailbox, hlistened, hdone⟩

/-- Whoever waits for the first result uses the session for one pass. -/
theorem Idle.singlePass {answer : Option Emission} (h : s.Idle)
    (hgives : link.Gives o s answer s') :
    s.SinglePass (Executor.execute link.executor o s.client) answer s' := by
  have hspares := h.spares link.executor o
  have hkeeps := Executor.keepsListeners_execute link.executor o s.client
  have hpassed : ∀ {stream c events r}, Stream.Passed (Executor.execute link.executor o s.client)
      s.mailboxes stream c → Stream.Works stream c events r →
      Stream.Passed (Executor.execute link.executor o s.client) s.mailboxes r.1 r.2 :=
    fun hpassed hworks => hpassed.works hspares hworks
  obtain ⟨hwait, hanswer, hmore, hstop, hover⟩ := hgives
  have hattentive : s'.Attentive := by
    have hwaiting := (h.attentive.request link o none).of_run (hwait.mono step_of_busy)
    have hworking := (hwaiting.poll _).of_run (hmore.mono step_of_busy)
    exact (hworking.drop _).of_run (hstop.mono step_of_busy)
  have hboxes : s'.mailboxes = s.mailboxes + 1 := by
    rw [mailboxes_of_busy_run hstop, mailboxes_drop, mailboxes_of_busy_run hmore, mailboxes_poll,
      mailboxes_of_busy_run hwait, mailboxes_request]
  rw [fst_request] at hanswer hmore hstop hover ⊢
  obtain ⟨hresult, htaken⟩ := (h.alone_wait hwait).poll hanswer
  have hdropped := (htaken.busy_run hpassed hmore).drop
  obtain ⟨hended, stream, hstreams, hlast⟩ := hdropped.busy_run hpassed hstop
  -- the stream has ended, so that none of its listeners is left
  have hphase : stream.phase = .ended := hover stream (getElem?_of_last hstreams)
  obtain ⟨hcalls, -, ⟨failures, attached, next, detached, hids, hnext, hstore⟩, -⟩ :=
    hlast.listened
  rw [hlast.ended hphase, List.map_eq_nil_iff] at hids
  rw [hids, List.append_nil] at hstore
  have hlisteners : s'.client.store.listeners = s.client.store.listeners := by
    rw [hstore]
    exact hkeeps.listeners
  refine ⟨hresult, hcalls, ⟨failures, next, detached, hstore⟩, hlisteners,
    ⟨hattentive, fun found hfound => ?_, fun l hl => ?_, fun l hl => ?_, fun entry hentry => ?_⟩⟩
  · rw [hstreams] at hfound
    rcases List.mem_append.1 hfound with hbefore | hnew
    · exact hended found hbefore
    · rw [List.mem_singleton.1 hnew]
      exact hphase
  · rw [hlisteners] at hl
    have hlt := h.numbered l hl
    rw [hkeeps.nextListener] at hnext
    rw [hstore]
    exact Nat.lt_of_lt_of_le hlt hnext
  · rw [hlisteners] at hl
    rw [hboxes]
    exact Nat.lt_succ_of_lt (h.opened l hl)
  · rw [hstore] at hentry
    rw [hboxes]
    rcases Executor.mem_mail_execute link.executor o s.client entry hentry with
      hbefore | ⟨l, hl, hbox⟩
    · exact Nat.lt_succ_of_lt (h.addressed entry hbefore)
    · rw [hbox]
      exact Nat.lt_succ_of_lt (h.opened l hl)

theorem runOnce_eq (link : Link) (o : Operation) (s : Session) :
    link.runOnce o s =
      (((link.request o none s).2.settle.poll (link.request o none s).1).1.result?,
        ((link.request o none s).2.settle.poll (link.request o none s).1).2.cancel
          (link.request o none s).1) := by
  rw [Link.runOnce]
  rcases hrequest : link.request o none s with ⟨id, opened⟩
  simp only
  rcases hpoll : opened.settle.poll id with ⟨answer, polled⟩
  cases answer <;> rfl

/-- A stream that rests and is waited for has an answer. -/
theorem answers_of_rests {others : List Stream} {config : Executor.Config} {live : Bool}
    {buffer : Nat} {box : Mailbox} {c : Client}
    (h : s.Alone others (Stream.Waited config o live buffer box c)) (hrest : s.AtRest) :
    (s.poll others.length).1 ≠ .pending := by
  obtain ⟨-, stream, hstreams, hwaited⟩ := h
  have hlast := getElem?_of_last hstreams
  have hrests : stream.Rests s.client := hrest stream (List.mem_of_getElem? hlast)
  intro hpending
  cases hbuffer : stream.buffer with
  | cons result rest => simp [Session.poll, hlast, Stream.poll, hbuffer] at hpending
  | nil =>
    have hopen : stream.phase ≠ .ended := fun hphase => by
      simp [Session.poll, hlast, Stream.poll, hbuffer, Stream.isEnded, hphase] at hpending
    cases hwaited with
    | fresh =>
      obtain ⟨r, hstep⟩ := Stream.exists_step_of_fresh
        (show (Stream.start config o live buffer box).phase = .fresh from rfl) s.client
      cases (Stream.rests_iff.1 hrests).symm.trans hstep
    | passed hawaited =>
      cases hrests with
      | ended hphase => exact hopen hphase
      | full _ _ hfull =>
        rw [hbuffer] at hfull
        exact Nat.not_lt.2 hfull hawaited.room
      | idle _ hphase =>
        -- a stream that listens has given the data of its pass
        have hfirst := hawaited.first
        rw [hbuffer, Stream.unsent_of_listening hphase] at hfirst
        exact hopen (hawaited.aborted hfirst.symm)

/-- Giving up the last stream lets it work until it has ended. -/
theorem Alone.cancel {others : List Stream} {motive : Stream → Client → Prop}
    (h : s.Alone others motive) (hattentive : s.Attentive) :
    (∃ j, Run Busy (s.drop others.length) j (s.cancel others.length)) ∧
      ∀ stream, (s.cancel others.length).streams[others.length]? = some stream →
        stream.phase = .ended := by
  obtain ⟨hended, stream, hstreams, -⟩ := h
  have hlast := getElem?_of_last hstreams
  obtain ⟨-, hset⟩ := drop_of_some hlast
  have hdropped : (s.drop others.length).streams = others ++ [stream.cancel] :=
    hset.trans (set_of_last hstreams _)
  by_cases hover : stream.isEnded = true
  · have hcancel : s.cancel others.length = s.drop others.length := by
      simp only [Session.cancel, hlast, hover, if_true]
    rw [hcancel]
    refine ⟨⟨[], .refl⟩, fun found hfound => ?_⟩
    obtain rfl := Option.some.inj ((getElem?_of_last hdropped).symm.trans hfound)
    cases hphase : stream.phase with
    | ended => exact hphase
    | fresh | sending | listening => simp [Stream.isEnded, hphase] at hover
  · have hcancel : s.cancel others.length = (s.drop others.length).settle := by
      simp only [Session.cancel, hlast, hover, Bool.false_eq_true, if_false]
    rw [hcancel]
    obtain ⟨j, hsettle⟩ := busy_settle (s.drop others.length)
    refine ⟨⟨j, hsettle⟩, fun found hfound => ?_⟩
    have halone : (s.drop others.length).Alone others (fun stream _ => stream.cancelled = true) :=
      ⟨hended, stream.cancel, hdropped, rfl⟩
    obtain ⟨-, last, hlastStreams, hcancelled⟩ :=
      halone.busy_run (fun hbefore hworks => hworks.cancelled_eq.trans hbefore) hsettle
    obtain rfl := Option.some.inj ((getElem?_of_last hlastStreams).symm.trans hfound)
    -- a stream that was given up has nothing left to wait for
    cases (hattentive.drop _).atRest_settle last (List.mem_of_getElem? hfound) with
    | ended hphase => exact hphase
    | full hopen => cases hcancelled.symm.trans hopen
    | idle hopen => cases hcancelled.symm.trans hopen

/-- To let the streams work before each step of the consumer is one way to wait for the result. -/
theorem Idle.gives_runOnce (h : s.Idle) (link : Link) (o : Operation) :
    link.Gives o s (link.runOnce o s).1 (link.runOnce o s).2 := by
  obtain ⟨j, hwait⟩ := busy_settle (link.request o none s).2
  have hattentive := h.attentive.request link o none
  have halone := h.alone_wait hwait
  have hanswer := answers_of_rests halone hattentive.atRest_settle
  obtain ⟨-, hpolled⟩ := halone.poll hanswer
  have hattentive' := (hattentive.of_run (hwait.mono step_of_busy)).poll s.streams.length
  obtain ⟨⟨j', hstop⟩, hover⟩ := hpolled.cancel hattentive'
  rw [← fst_request link o s] at hanswer hstop hover
  rw [runOnce_eq]
  exact .intro hwait hanswer .refl hstop hover

end Session

/-- To run an operation for its first result is to execute it once. The consumer gets the data or
the error of the pass, or nothing if an abort signal ended it. The store is left as the pass leaves
it, also if the operation is live and writes to what it listens to, and the same listeners are
attached as before. So it is in whatever order the stream and its consumer take their steps. -/
theorem singlePass_runOnce (link : Link) (o : Operation) {s : Session} (hs : s.Idle) :
    s.SinglePass (Executor.execute link.executor o s.client) (link.runOnce o s).1
        (link.runOnce o s).2 ∧
      ∀ answer s', link.Gives o s answer s' →
        s.SinglePass (Executor.execute link.executor o s.client) answer s' :=
  ⟨hs.singlePass (hs.gives_runOnce link o), fun _ _ hgives => hs.singlePass hgives⟩

/-- A live operation that writes to what it listens to makes one pass: its write is its only one. -/
theorem singlePass_runOnce_renameUser :
    (Session.ofClient Executor.userClient).Idle ∧ renameUser.subscribes = true ∧
      (((Link.runOnce {} renameUser (.ofClient Executor.userClient)).2.client.log.map
        Call.kind).filter (· == .set)).length = 1 ∧
      (Session.ofClient Executor.userClient).SinglePass
        (Executor.execute {} renameUser Executor.userClient)
        (Link.runOnce {} renameUser (.ofClient Executor.userClient)).1
        (Link.runOnce {} renameUser (.ofClient Executor.userClient)).2 := by
  have hidle : (Session.ofClient Executor.userClient).Idle := Session.idle_ofClient rfl rfl
  exact ⟨hidle, by decide +kernel, by decide +kernel, (singlePass_runOnce {} renameUser hidle).1⟩

end LiveDocs
