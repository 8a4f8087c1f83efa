import LiveDocs.Proofs.Pass.Trouble
import LiveDocs.Proofs.Stream.Work

/-!
# The effort of a stream

A pass may write to what its own stream listens to, so each pass may bring the notice of the next
one, and no bound on the work can be read off the mail. What bounds it is the buffer: a pass makes a
result, and the stream goes on when the result has found a place, which nobody empties while the
stream works. A pass that makes no result ends in an abort signal and uses up some of the trouble
ahead, and so does a notice of an error.

Main statements: `Works.spends`, what a step uses up; `effort_lt`, a bound that every step lowers;
`rests_advance`, a stream that works until it waits has come to rest; `advance_spends`, what it has
used up then.
-/

namespace LiveDocs

namespace Executor

/-- Executing an operation adds nothing to the trouble, whatever it writes. -/
theorem trouble_execute_le (config : Config) (o : Operation) (c : Client) :
    (execute config o c).client.trouble ≤ c.trouble :=
  Pass.trouble_run_le (makes_documents config o) ⟨c, []⟩

/-- An execution that ends in an abort signal uses up a part of it. -/
theorem trouble_execute_lt {config : Config} {o : Operation} {c : Client} {e : EngineError}
    (h : (execute config o c).response = .error e) (hbenign : e.isBenign = true) :
    (execute config o c).client.trouble < c.trouble :=
  Pass.trouble_run_lt (makes_documents config o) ⟨c, []⟩ h hbenign

end Executor

namespace Stream

variable {s : Stream} {c c' : Client} {events : List Event} {r : Stream × Client}

/-! ### Rest -/

/-- A stream whose work is over or waits: for room in the buffer, or for a notice to one of the
listeners. -/
inductive Rests (s : Stream) (c : Client) : Prop where
  | ended (hphase : s.phase = .ended)
  | full {result : Emission} {next : Continuation} (hcancelled : s.cancelled = false)
      (hphase : s.phase = .sending result next) (hfull : s.capacity ≤ s.buffer.length)
  | idle (hcancelled : s.cancelled = false) (hphase : s.phase = .listening)
      (hlisteners : s.listeners ≠ []) (hmail : ∀ notice, (s.mailbox, notice) ∉ c.store.mail)

/-- A stream rests exactly if it has no step to take. -/
theorem rests_iff : s.Rests c ↔ s.step c = none := by
  rw [step_eq_none_iff, Store.receive?_eq_none_iff]
  constructor
  · rintro (hphase | ⟨hcancelled, hphase, hfull⟩ | ⟨hcancelled, hphase, hlisteners, hmail⟩)
    · exact .inl hphase
    · exact .inr (.inl ⟨hcancelled, by rw [isSending, hphase], hfull⟩)
    · exact .inr (.inr ⟨hcancelled, hphase, hmail, hlisteners⟩)
  · rintro (hphase | ⟨hcancelled, hsending, hfull⟩ | ⟨hcancelled, hphase, hmail, hlisteners⟩)
    · exact .ended hphase
    · cases hphase : s.phase with
      | sending result next => exact .full hcancelled hphase hfull
      | fresh | listening | ended => simp [isSending, hphase] at hsending
    · exact .idle hcancelled hphase hlisteners hmail

/-! ### Places -/

/-- The free places of the buffer. -/
def room (s : Stream) : Nat := s.capacity - s.buffer.length

/-- The results that may still find a place, and one more that may find none. -/
def places (s : Stream) : Nat :=
  match s.phase with
  | .ended => 0
  | .sending _ _ => if s.cancelled = false ∧ s.room = 0 then 0 else s.room + 1
  | _ => s.room + 1

theorem places_of_fresh (h : s.phase = .fresh) : s.places = s.room + 1 := by rw [places, h]

theorem places_of_listening (h : s.phase = .listening) : s.places = s.room + 1 := by rw [places, h]

theorem places_of_sending {result : Emission} {next : Continuation}
    (h : s.phase = .sending result next) :
    s.places = if s.cancelled = false ∧ s.room = 0 then 0 else s.room + 1 := by
  rw [places, h]

theorem places_le (s : Stream) : s.places ≤ s.room + 1 := by
  rw [places]
  split
  · exact Nat.zero_le _
  · split <;> omega
  · exact Nat.le_refl _

theorem places_pos_of_cancelled (h : s.phase ≠ .ended) (hcancelled : s.cancelled = true) :
    0 < s.places := by
  rw [places]
  split
  · contradiction
  · rw [if_neg (by simp [hcancelled])]
    exact Nat.succ_pos _
  · exact Nat.succ_pos _

theorem room_sent (h : s.buffer.length < s.capacity) (result : Emission) :
    (s.sent result).room + 1 = s.room := by
  have hcapacity : (s.sent result).capacity = s.capacity := rfl
  have hlength : (s.sent result).buffer.length = s.buffer.length + 1 := List.length_append
  rw [room, room, hcapacity, hlength]
  omega

/-- To stop is to give up all places. -/
theorem places_finish (s : Stream) (c : Client) : (s.finish c).1.places = 0 := rfl

theorem trouble_finish_le (s : Stream) (c : Client) : (s.finish c).2.trouble ≤ c.trouble := by
  have hnotices := c.store.errorNotices_clear_le s.listeners s.mailbox
  have hfailures : ((c.store.detachAll s.listeners).clear s.mailbox).failures =
      c.store.failures := by
    rw [Store.detachAll_eq]
    rfl
  change ((c.store.detachAll s.listeners).clear s.mailbox).failures.length + c.waiting.length +
    ((c.store.detachAll s.listeners).clear s.mailbox).errorNotices ≤ _
  rw [hfailures, Client.trouble_eq]
  omega

/-- To listen to some targets costs no place, also if it is refused. -/
theorem places_attach_le (s : Stream) (targets : List ListenTarget) (c : Client) :
    (s.attach targets c).1.places ≤ s.room + 1 := by
  obtain ⟨phase, ids, hattach, -⟩ := exists_attach s targets c
  rw [hattach]
  exact places_le _

theorem trouble_attach_le (s : Stream) (targets : List ListenTarget) (c : Client) :
    (s.attach targets c).2.trouble ≤ c.trouble := by
  induction targets generalizing s c with
  | nil => exact Nat.le_refl _
  | cons target rest ih =>
    have hlisten := Client.trouble_perform_le (.listen target s.mailbox) c
    rcases h : c.perform (.listen target) (Store.listen target s.mailbox) with ⟨e | id, c'⟩
    · change (c.perform (.listen target) (Store.listen target s.mailbox)).2.trouble ≤ _ at hlisten
      rw [h] at hlisten
      rw [(attach_cons_of_error h rest).1]
      exact hlisten
    · change (c.perform (.listen target) (Store.listen target s.mailbox)).2.trouble ≤ _ at hlisten
      rw [h] at hlisten
      rw [(attach_cons_of_ok h rest).1]
      exact Nat.le_trans (ih _ c') hlisten

/-! ### What a step uses up -/

/-- A step uses up a place or some trouble; or it makes a result for which there is room, so that
another step follows. -/
def Spends (s : Stream) (c : Client) (r : Stream × Client) : Prop :=
  r.1.places + r.2.trouble < s.places + c.trouble ∨
    r.1.places + r.2.trouble ≤ s.places + c.trouble ∧ s.isSending = false ∧
      ∃ result next, r.1.phase = .sending result next ∧ r.1.buffer.length < r.1.capacity

theorem Spends.of_lt {s' : Stream} (h : s'.places + c'.trouble < s.places + c.trouble) :
    s.Spends c (s', c') := .inl h

theorem spends_finish (h : 0 < s.places) (hc : c'.trouble ≤ c.trouble) :
    s.Spends c (s.finish c') := by
  have htrouble := trouble_finish_le s c'
  have hplaces := places_finish s c'
  exact .inl (by omega)

/-- A result either finds no room, and then there are no places left, or is about to take one. -/
theorem spends_send (hplaces : s.places = s.room + 1) (hsending : s.isSending = false)
    (hcancelled : s.cancelled = false) (hc : c'.trouble ≤ c.trouble) (result : Emission)
    (next : Continuation) : s.Spends c (s.send result next, c') := by
  have hsend : (s.send result next).places = if s.cancelled = false ∧ s.room = 0 then 0
    else s.room + 1 := rfl
  by_cases hroom : s.buffer.length < s.capacity
  · have hpositive : s.room ≠ 0 := Nat.sub_ne_zero_of_lt hroom
    rw [if_neg fun h => hpositive h.2] at hsend
    have hsame : (s.send result next).places + c'.trouble ≤ s.places + c.trouble := by omega
    exact .inr ⟨hsame, hsending, result, next, rfl, hroom⟩
  · have hfull : s.room = 0 := Nat.sub_eq_zero_of_le (Nat.le_of_not_lt hroom)
    rw [if_pos ⟨hcancelled, hfull⟩] at hsend
    exact .of_lt (by omega)

/-- The place that a result has found is used up. -/
theorem places_sent_lt {result : Emission} {next : Continuation}
    (hphase : s.phase = .sending result next) (hroom : s.buffer.length < s.capacity) :
    (s.sent result).room + 1 < s.places := by
  have hsent := room_sent hroom result
  rw [places_of_sending hphase, if_neg fun h => by omega]
  omega

theorem trouble_of_receive {notice : Notice} {store : Store}
    (h : c.store.receive? s.mailbox = some (notice, store)) :
    c.trouble = ({ c with store } : Client).trouble + if notice.isOk then 0 else 1 := by
  have hnotices := Store.errorNotices_of_receive h
  have hfailures : store.failures = c.store.failures := by rw [(Store.receive?_eq_some h).2]
  have hstore : ({ c with store } : Client).trouble =
    store.failures.length + c.waiting.length + store.errorNotices := rfl
  rw [hstore, hfailures, Client.trouble_eq]
  omega

theorem trouble_of_change {target : ListenTarget} {store : Store}
    (h : c.store.receive? s.mailbox = some (.ok target, store)) :
    ({ c with store } : Client).trouble = c.trouble :=
  (trouble_of_receive h).symm

/-- To collect a notice of an error uses up some trouble. -/
theorem trouble_of_error {e : StoreError} {store : Store}
    (h : c.store.receive? s.mailbox = some (.error e, store)) :
    ({ c with store } : Client).trouble + 1 = c.trouble :=
  (trouble_of_receive h).symm

theorem isSending_of_fresh (h : s.phase = .fresh) : s.isSending = false := by rw [isSending, h]

theorem isSending_of_listening (h : s.phase = .listening) : s.isSending = false := by
  rw [isSending, h]

/-- Every step uses up a place or some trouble, or makes a result that is about to take a place. -/
theorem Works.spends (h : Works s c events r) : s.Spends c r := by
  cases h with
  | stop hphase hcancelled =>
    exact spends_finish (places_pos_of_cancelled hphase hcancelled) (Nat.le_refl _)
  | first hphase hcancelled hresponse =>
    have hpass := Executor.trouble_execute_le s.config s.operation c
    exact spends_send (places_of_fresh hphase) (isSending_of_fresh hphase) hcancelled hpass _ _
  | firstAborted hphase hcancelled hresponse hbenign =>
    have hpass := Executor.trouble_execute_le s.config s.operation c
    refine spends_finish ?_ hpass
    rw [places_of_fresh hphase]
    exact Nat.succ_pos _
  | firstFailed hphase hcancelled hresponse hbenign =>
    have hpass := Executor.trouble_execute_le s.config s.operation c
    exact spends_send (places_of_fresh hphase) (isSending_of_fresh hphase) hcancelled hpass _ _
  | @attach result targets hphase hcancelled hroom =>
    have hplace := places_sent_lt hphase hroom
    have hplaces := places_attach_le (s.sent result) targets c
    have htrouble := trouble_attach_le (s.sent result) targets c
    exact .inl (by omega)
  | @listen result hphase hcancelled hroom =>
    have hplace := places_sent_lt hphase hroom
    have hplaces : ({ s.sent result with phase := .listening } : Stream).places =
      (s.sent result).room + 1 := rfl
    exact .of_lt (by omega)
  | @close result hphase hcancelled hroom =>
    have hplace := places_sent_lt hphase hroom
    have hplaces := places_finish (s.sent result) c
    have htrouble := trouble_finish_le (s.sent result) c
    exact .inl (by omega)
  | @rerun target store data hphase hcancelled hnotice hresponse =>
    have hpass := Executor.trouble_execute_le s.config s.operation { c with store }
    rw [trouble_of_change hnotice] at hpass
    exact spends_send (places_of_listening hphase) (isSending_of_listening hphase) hcancelled hpass
      _ _
  | @rerunAborted target store e hphase hcancelled hnotice hresponse hbenign =>
    -- no place is used up: the signal came from a failure, which is gone
    have hpass : (s.executed { c with store }).trouble < ({ c with store } : Client).trouble :=
      Executor.trouble_execute_lt hresponse hbenign
    rw [trouble_of_change hnotice] at hpass
    exact .of_lt (by omega)
  | @rerunFailed target store e hphase hcancelled hnotice hresponse hbenign =>
    have hpass := Executor.trouble_execute_le s.config s.operation { c with store }
    rw [trouble_of_change hnotice] at hpass
    exact spends_send (places_of_listening hphase) (isSending_of_listening hphase) hcancelled hpass
      _ _
  | @abortNotice e store hphase hcancelled hnotice habort =>
    have hcollected := trouble_of_error hnotice
    exact .of_lt (by omega)
  | @errorNotice e store hphase hcancelled hnotice habort =>
    have hcollected := trouble_of_error hnotice
    exact spends_send (places_of_listening hphase) (isSending_of_listening hphase) hcancelled
      (Nat.le_of_lt (by omega)) _ _
  | idle hphase hcancelled hlisteners =>
    refine spends_finish ?_ (Nat.le_refl _)
    rw [places_of_listening hphase]
    exact Nat.succ_pos _

/-! ### Coming to rest -/

/-- A bound on the steps for which the places are used up: two for a result, and the first of them
is behind a stream that sends. -/
def effort (s : Stream) : Nat := 2 * s.places + if s.isSending then 0 else 1

theorem Spends.effort_lt (h : s.Spends c r) :
    r.1.effort + 2 * r.2.trouble < s.effort + 2 * c.trouble := by
  have hbefore : 2 * s.places ≤ s.effort := Nat.le_add_right _ _
  have hafter : r.1.effort ≤ 2 * r.1.places + 1 := by
    rw [effort]
    split <;> omega
  rcases h with hless | ⟨hsame, hidle, result, next, hphase, -⟩
  · omega
  · have hsending : r.1.isSending = true := by rw [isSending, hphase]
    rw [effort, effort, hsending, hidle]
    simp only [if_true, Bool.false_eq_true, if_false]
    omega

/-- Every step lowers the bound on the steps. -/
theorem effort_lt (h : s.step c = some r) :
    r.1.effort + 2 * r.2.trouble < s.effort + 2 * c.trouble :=
  (works_of_step h).spends.effort_lt

theorem rests_advanceFor {fuel : Nat} (h : s.effort + 2 * c.trouble ≤ fuel) :
    (advanceFor fuel s c).1.Rests (advanceFor fuel s c).2 := by
  induction fuel generalizing s c with
  | zero =>
    cases hstep : s.step c with
    | none => exact rests_iff.2 hstep
    | some r =>
      have hlt := effort_lt hstep
      omega
  | succ fuel ih =>
    cases hstep : s.step c with
    | none =>
      rw [advanceFor, hstep]
      exact rests_iff.2 hstep
    | some r =>
      have hlt := effort_lt hstep
      rw [(advanceFor_succ hstep fuel).1]
      exact ih (by omega)

theorem effort_le_stepBound (s : Stream) (c : Client) :
    s.effort + 2 * c.trouble ≤ s.stepBound c := by
  have hplaces := s.places_le
  have hroom : s.room ≤ s.capacity := Nat.sub_le _ _
  have hnotices := c.store.errorNotices_le
  have heffort : s.effort ≤ 2 * s.places + 1 := by
    rw [effort]
    split <;> omega
  rw [stepBound, Client.trouble]
  omega

/-- A stream that works until it waits has come to rest: the bound on its steps is enough. -/
theorem rests_advance (s : Stream) (c : Client) : (s.advance c).1.Rests (s.advance c).2 :=
  rests_advanceFor (effort_le_stepBound s c)

theorem advance_of_rests (h : s.Rests c) : s.advance c = (s, c) := by
  have hbound : s.stepBound c = (s.stepBound c - 1) + 1 := by
    rw [stepBound]
    omega
  rw [advance, hbound, advanceFor, rests_iff.1 h]

/-- A stream that had something to do has used up a place or some trouble when it rests again. -/
theorem advance_spends (h : ¬ s.Rests c) :
    (s.advance c).1.places + (s.advance c).2.trouble < s.places + c.trouble := by
  have hadvance : (s.advance c).1.places + (s.advance c).2.trouble < s.places + c.trouble ∨
      (s.advance c).1.places + (s.advance c).2.trouble ≤ s.places + c.trouble ∧
        ¬ (s.advance c).1.Rests (s.advance c).2 := by
    refine advance_keeps (motive := fun s' c' => s'.places + c'.trouble < s.places + c.trouble ∨
      s'.places + c'.trouble ≤ s.places + c.trouble ∧ ¬ s'.Rests c') (.inr ⟨Nat.le_refl _, h⟩)
      fun {s' c' _ r} hbefore hworks => ?_
    have hle : s'.places + c'.trouble ≤ s.places + c.trouble :=
      hbefore.elim Nat.le_of_lt fun hsame => hsame.1
    rcases hworks.spends with hless | ⟨hsame, -, result, next, hphase, hroom⟩
    · exact .inl (Nat.lt_of_lt_of_le hless hle)
    · -- the result that was made takes its place in the next step
      refine .inr ⟨Nat.le_trans hsame hle, fun hrests => ?_⟩
      obtain ⟨r', hstep⟩ := exists_step_of_room hphase hroom r.2
      cases (rests_iff.1 hrests).symm.trans hstep
  exact hadvance.resolve_right fun hidle => hidle.2 (rests_advance s c)

end Stream

end LiveDocs
