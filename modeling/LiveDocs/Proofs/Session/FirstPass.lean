import LiveDocs.Proofs.Session.AbortSignals

/-!
# The first pass of a stream

A stream makes one pass before anything else, and while nobody writes to what it listens to, all
that it does besides is to attach listeners and to release them. It makes no second pass, even if
its operation writes to what it listens to: the listeners come after the writes of the pass. Main
statements: `Listened.released`, releasing what was attached restores the listeners; `Passed.works`,
what a stream does after its pass; `Waited.works`, its first result is that of the pass.
-/

namespace LiveDocs

namespace Executor.Outcome

variable {outcome : Outcome} {data : Json} {e : EngineError}

/-- What a consumer that waits for the first result of a pass gets: its data, its error, or nothing
if an abort signal ended it. -/
def answer (outcome : Outcome) : Option Emission :=
  match outcome.response with
  | .ok data => some (.ok data)
  | .error e => if e.isBenign then none else some (.error e)

theorem answer_of_ok (h : outcome.response = .ok data) : outcome.answer = some (.ok data) := by
  rw [answer, h]

theorem answer_of_aborted (h : outcome.response = .error e) (hbenign : e.isBenign = true) :
    outcome.answer = none := by
  rw [answer, h]
  exact if_pos hbenign

theorem answer_of_failed (h : outcome.response = .error e) (hbenign : e.isBenign = false) :
    outcome.answer = some (.error e) := by
  rw [answer, h]
  exact if_neg (Bool.eq_false_iff.1 hbenign)

end Executor.Outcome

/-! ### Listening and nothing else -/

namespace Client

variable {c c' c'' : Client} {box : Mailbox} {ids : List Nat}

/-- Since the one client, listeners were attached and released, and nothing else was done: the
listeners that were there are there, with those of these new ids behind them, and queued failures
may have been used up. -/
structure Listened (c : Client) (ids : List Nat) (c' : Client) : Prop where
  calls : ∃ targets : List ListenTarget, c'.log = c.log ++ targets.map .listen
  faults : c'.faults = c.faults
  store : ∃ failures attached nextListener detached,
    attached.map Listener.id = ids ∧ c.store.nextListener ≤ nextListener ∧
      c'.store = { c.store with
        failures, nextListener, detached
        listeners := c.store.listeners ++ attached }
  fresh : ∀ id ∈ ids, c.store.nextListener ≤ id

theorem Listened.refl (c : Client) : c.Listened [] c where
  calls := ⟨[], (List.append_nil _).symm⟩
  faults := rfl
  store := ⟨_, [], _, _, rfl, Nat.le_refl _, by rw [List.append_nil]⟩
  fresh := List.forall_mem_nil _

/-- No notice lies in a mailbox, and the ids of all listeners have been given out. -/
structure Spares (c : Client) (box : Mailbox) : Prop where
  mail : ∀ entry ∈ c.store.mail, entry.1 ≠ box
  numbered : ∀ l ∈ c.store.listeners, l.id < c.store.nextListener

theorem Listened.mail_eq (h : c.Listened ids c') : c'.store.mail = c.store.mail := by
  obtain ⟨failures, attached, nextListener, detached, -, -, hstore⟩ := h.store
  rw [hstore]

theorem Listened.refused (h : c.Listened ids c') {target : ListenTarget} {e : StoreError}
    (hlisten : c'.perform (.listen target) (Store.listen target box) = (.error e, c'')) :
    c.Listened ids c'' := by
  obtain ⟨⟨targets, hlog⟩, hfaults, ⟨failures, attached, next, detached, hids, hnext, hstore⟩,
    hfresh⟩ := h
  obtain ⟨failures', rfl⟩ := Stream.perform_listen_error hlisten
  refine ⟨⟨targets ++ [target], ?_⟩, hfaults,
    ⟨failures', attached, next, detached, hids, hnext, ?_⟩, hfresh⟩
  · rw [List.map_append, ← List.append_assoc, ← hlog]
    rfl
  · rw [hstore]

theorem Listened.attached (h : c.Listened ids c') {target : ListenTarget} {id : Nat}
    (hlisten : c'.perform (.listen target) (Store.listen target box) = (.ok id, c'')) :
    c.Listened (ids ++ [id]) c'' := by
  obtain ⟨⟨targets, hlog⟩, hfaults, ⟨failures, attached, next, detached, hids, hnext, hstore⟩,
    hfresh⟩ := h
  obtain ⟨rfl, rfl⟩ := Stream.perform_listen hlisten
  have hnew : c'.store.nextListener = next := by rw [hstore]
  refine ⟨⟨targets ++ [target], ?_⟩, hfaults,
    ⟨failures, attached ++ [⟨next, target, box⟩], next + 1, detached, ?_,
      Nat.le_succ_of_le hnext, ?_⟩, ?_⟩
  · rw [List.map_append, ← List.append_assoc, ← hlog]
    rfl
  · rw [List.map_append, hids, hnew]
    rfl
  · rw [hnew, hstore, List.append_assoc]
  · refine List.forall_mem_append.2 ⟨hfresh, List.forall_mem_singleton.2 ?_⟩
    rw [hnew]
    exact hnext

/-- The new listeners are told from the others by their ids, so that releasing them leaves the
others alone. -/
theorem Listened.released (h : c.Listened ids c') (hspares : c.Spares box) :
    c.Listened [] (Stream.withStore c' fun store => (store.detachAll ids).clear box) := by
  obtain ⟨hcalls, hfaults, ⟨failures, attached, next, detached, hids, hnext, hstore⟩, hfresh⟩ := h
  refine ⟨hcalls, hfaults, ⟨failures, [], next, detached + ids.length, rfl, hnext, ?_⟩,
    List.forall_mem_nil _⟩
  have hold : c.store.listeners.filter (·.id ∉ ids) = c.store.listeners :=
    List.filter_eq_self.2 fun l hl => by
      have hlt := hspares.numbered l hl
      refine decide_eq_true fun hmem => ?_
      exact Nat.not_lt.2 (hfresh l.id hmem) hlt
  have hnew : attached.filter (·.id ∉ ids) = [] :=
    List.filter_eq_nil_iff.2 fun l hl hnot => by
      rw [← hids] at hnot
      exact of_decide_eq_true hnot (List.mem_map_of_mem hl)
  have hmail : c.store.mail.filter (·.1 != box) = c.store.mail :=
    List.filter_eq_self.2 fun entry hentry => bne_iff_ne.2 (hspares.mail entry hentry)
  change (c'.store.detachAll ids).clear box = _
  rw [Store.detachAll_eq, Store.clear, hstore]
  simp only [List.filter_append, hold, hnew, hmail]

end Client

/-! ### After the first pass -/

namespace Stream

variable {outcome : Executor.Outcome} {box : Mailbox} {s : Stream} {c : Client}
  {events : List Event} {r : Stream × Client}

/-- The first pass of a stream is over, and no other was made: since then listeners were attached
and released, and the stream holds those that still are. -/
structure Passed (outcome : Executor.Outcome) (box : Mailbox) (s : Stream) (c : Client) :
    Prop where
  phase : s.phase ≠ .fresh
  mailbox : s.mailbox = box
  listened : outcome.client.Listened s.listeners c
  ended : s.phase = .ended → s.listeners = []

theorem Passed.finish (h : Passed outcome box s c) (hspares : outcome.client.Spares box) :
    Passed outcome box (s.finish c).1 (s.finish c).2 where
  phase := nofun
  mailbox := h.mailbox
  listened := by
    obtain ⟨-, rfl, hlistened, -⟩ := h
    exact hlistened.released hspares
  ended := fun _ => rfl

theorem Passed.attach (h : Passed outcome box s c) (hphase : s.phase ≠ .ended)
    (targets : List ListenTarget) :
    Passed outcome box (s.attach targets c).1 (s.attach targets c).2 := by
  induction targets generalizing s c with
  | nil => exact ⟨nofun, h.mailbox, h.listened, nofun⟩
  | cons target rest ih =>
    rcases hlisten : c.perform (.listen target) (Store.listen target s.mailbox) with ⟨e | id, c'⟩
    · rw [(attach_cons_of_error hlisten rest).1]
      exact ⟨nofun, h.mailbox, h.listened.refused hlisten, nofun⟩
    · rw [(attach_cons_of_ok hlisten rest).1]
      exact ih ⟨h.phase, h.mailbox, h.listened.attached hlisten, fun hended => absurd hended hphase⟩
        hphase

/-- No notice lies in the mailbox of the stream. -/
theorem Passed.receive?_eq_none (h : Passed outcome box s c)
    (hspares : outcome.client.Spares box) : c.store.receive? s.mailbox = none := by
  rw [Store.receive?_eq_none_iff]
  intro notice hmem
  rw [h.listened.mail_eq] at hmem
  exact hspares.mail _ hmem h.mailbox

/-- There is no notice that would have the stream make another pass. What it does is to end, and to
give its result, after which it listens or ends. -/
theorem Passed.cases (h : Passed outcome box s c) (hspares : outcome.client.Spares box)
    (hworks : Works s c events r) :
    ((s.cancelled = true ∨ s.unsent = []) ∧ r = s.finish c) ∨
      ∃ result, s.unsent = [result] ∧ s.phase ≠ .ended ∧
        ((∃ targets, r = (s.sent result).attach targets c) ∨ r = (s.sent result).finish c ∨
          r = ({ s.sent result with phase := .listening }, c)) := by
  have hnone := h.receive?_eq_none hspares
  have hopen := hworks.not_ended
  cases hworks with
  | stop _ hcancelled => exact .inl ⟨.inl hcancelled, rfl⟩
  | idle hphase => exact .inl ⟨.inr (unsent_of_listening hphase), rfl⟩
  | attach hphase => exact .inr ⟨_, unsent_of_sending hphase, hopen, .inl ⟨_, rfl⟩⟩
  | close hphase => exact .inr ⟨_, unsent_of_sending hphase, hopen, .inr (.inl rfl)⟩
  | listen hphase => exact .inr ⟨_, unsent_of_sending hphase, hopen, .inr (.inr rfl)⟩
  | first hphase | firstAborted hphase | firstFailed hphase => exact absurd hphase h.phase
  | rerun _ _ hnotice | rerunAborted _ _ hnotice | rerunFailed _ _ hnotice =>
    cases hnone.symm.trans hnotice
  | abortNotice _ _ hnotice | errorNotice _ _ hnotice => cases hnone.symm.trans hnotice

theorem Passed.works (h : Passed outcome box s c) (hspares : outcome.client.Spares box)
    (hworks : Works s c events r) : Passed outcome box r.1 r.2 := by
  have hsent : ∀ result, Passed outcome box (s.sent result) c := fun _ =>
    ⟨h.phase, h.mailbox, h.listened, h.ended⟩
  rcases h.cases hspares hworks with
    ⟨-, rfl⟩ | ⟨result, -, hopen, ⟨targets, rfl⟩ | rfl | rfl⟩
  · exact h.finish hspares
  · exact (hsent result).attach hopen targets
  · exact (hsent result).finish hspares
  · exact ⟨nofun, h.mailbox, h.listened, nofun⟩

/-! ### The first result -/

/-- A stream whose consumer has not looked for a result yet: the first of its results is that of the
pass, and if there is none, the stream has ended. -/
structure Awaited (outcome : Executor.Outcome) (box : Mailbox) (s : Stream) (c : Client) : Prop
    extends Passed outcome box s c where
  first : (s.buffer ++ s.unsent).head? = outcome.answer
  aborted : outcome.answer = none → s.phase = .ended
  room : 0 < s.capacity
  cancelled : s.cancelled = false

theorem Awaited.works (h : Awaited outcome box s c) (hspares : outcome.client.Spares box)
    (hworks : Works s c events r) : Awaited outcome box r.1 r.2 := by
  have hfirst : (r.1.buffer ++ r.1.unsent).head? = outcome.answer := by
    rcases h.cases hspares hworks with
      ⟨hcancelled | hunsent, rfl⟩ | ⟨result, hunsent, -, hr⟩
    · cases hcancelled.symm.trans h.cancelled
    · have hheld := h.first
      rw [hunsent] at hheld
      exact hheld
    · -- a result that finds room stays where it was among the results
      have hsent : ∀ more, ((s.buffer ++ [result]) ++ more).head? = outcome.answer := fun more => by
        have hne : s.buffer ++ [result] ≠ [] :=
          List.append_ne_nil_of_right_ne_nil _ (List.cons_ne_nil _ _)
        rw [List.head?_append_of_ne_nil _ hne, ← hunsent]
        exact h.first
      rcases hr with ⟨targets, rfl⟩ | rfl | rfl
      · rw [(unsent_attach (s.sent result) targets c).2, buffer_sent]
        exact hsent _
      · exact hsent []
      · exact hsent []
  obtain ⟨phase, buffer, listeners, hr⟩ := hworks.exists_eq
  have hroom : r.1.capacity = s.capacity := by rw [hr]
  refine ⟨h.toPassed.works hspares hworks, hfirst, fun hanswer => ?_, hroom ▸ h.room,
    hworks.cancelled_eq.trans h.cancelled⟩
  exact absurd (h.aborted hanswer) hworks.not_ended

variable {config : Executor.Config} {o : Operation} {live : Bool} {buffer : Nat}

/-- The first step of a stream is its pass. -/
theorem awaited_of_start
    (hspares : (Executor.execute config o c).client.Spares box)
    (hworks : Works (start config o live buffer box) c events r) :
    Awaited (Executor.execute config o c) box r.1 r.2 := by
  have hroom : 0 < (start config o live buffer box).capacity :=
    Nat.lt_of_lt_of_le Nat.zero_lt_one (Nat.le_max_right buffer 1)
  cases hworks with
  | stop _ hcancelled => cases hcancelled
  | @first data _ _ hresponse =>
    have hanswer : (Executor.execute config o c).answer = some (.ok data) :=
      Executor.Outcome.answer_of_ok hresponse
    exact ⟨⟨nofun, rfl, .refl _, nofun⟩, hanswer.symm, (nomatch hanswer.symm.trans ·), hroom, rfl⟩
  | firstAborted _ _ hresponse hbenign =>
    have hanswer : (Executor.execute config o c).answer = none :=
      Executor.Outcome.answer_of_aborted hresponse hbenign
    have hlistened := (Client.Listened.refl (Executor.execute config o c).client).released hspares
    exact ⟨⟨nofun, rfl, hlistened, fun _ => rfl⟩, hanswer.symm, fun _ => rfl, hroom, rfl⟩
  | @firstFailed e _ _ hresponse hbenign =>
    have hanswer : (Executor.execute config o c).answer = some (.error e) :=
      Executor.Outcome.answer_of_failed hresponse hbenign
    exact ⟨⟨nofun, rfl, .refl _, nofun⟩, hanswer.symm, (nomatch hanswer.symm.trans ·), hroom, rfl⟩
  | attach hphase | listen hphase | close hphase => cases hphase
  | rerun hphase | rerunAborted hphase | rerunFailed hphase => cases hphase
  | abortNotice hphase | errorNotice hphase | idle hphase => cases hphase

/-- A stream that was opened on a client and is waited for: it has not begun, or its first pass is
over. -/
inductive Waited (config : Executor.Config) (o : Operation) (live : Bool) (buffer : Nat)
    (box : Mailbox) (c : Client) : Stream → Client → Prop where
  | fresh : Waited config o live buffer box c (start config o live buffer box) c
  | passed {s : Stream} {c' : Client} (h : Awaited (Executor.execute config o c) box s c') :
      Waited config o live buffer box c s c'

theorem Waited.works {c' : Client} (h : Waited config o live buffer box c s c')
    (hspares : (Executor.execute config o c).client.Spares box) (hworks : Works s c' events r) :
    Waited config o live buffer box c r.1 r.2 := by
  cases h with
  | fresh => exact .passed (awaited_of_start hspares hworks)
  | passed h => exact .passed (h.works hspares hworks)

end Stream

end LiveDocs
