import LiveDocs.Proofs.Session.Run

/-!
# Abort signals

A stream should pass no abort signal on to its consumer. It passes none on that ends a pass or comes
as a notice, but one that refuses a listen call is sent like any other error. Main statements:
`abortSignals_of_run`, the abort signals on a stream are those that refused one of its listen calls,
each of them once; `abortSignal_of_refused_listen`, a run on which the consumer gets one.
-/

namespace LiveDocs

/-! ### Results on their way -/

/-- The errors with which listen calls were refused, as results. -/
def refusals (events : List Event) : List Emission :=
  events.filterMap fun
    | .refused e => some (.error (.store e))
    | _ => none

/-- The abort signals among some results. -/
def abortSignals (results : List Emission) : List EngineError :=
  results.filterMap fun
    | .error e => if e.isBenign then some e else none
    | .ok _ => none

@[simp] theorem refusals_append (front events : List Event) :
    refusals (front ++ events) = refusals front ++ refusals events :=
  List.filterMap_append

@[simp] theorem abortSignals_append (front results : List Emission) :
    abortSignals (front ++ results) = abortSignals front ++ abortSignals results :=
  List.filterMap_append

@[simp] theorem refusals_nil : refusals [] = [] := rfl

@[simp] theorem refusals_pass (c : Client) (events : List Event) :
    refusals (.pass c :: events) = refusals events := rfl

@[simp] theorem abortSignals_nil : abortSignals [] = [] := rfl

@[simp] theorem abortSignals_ok (data : Json) : abortSignals [.ok data] = [] := rfl

theorem abortSignals_error {e : EngineError} (h : e.isBenign = false) :
    abortSignals [.error e] = [] := by
  simp [abortSignals, h]

theorem mem_abortSignals {results : List Emission} {e : EngineError} :
    e ∈ abortSignals results ↔ .error e ∈ results ∧ e.isBenign = true := by
  rw [abortSignals, List.mem_filterMap]
  constructor
  · rintro ⟨result, hmem, hresult⟩
    cases result with
    | ok data => cases hresult
    | error e' =>
      obtain ⟨hbenign, rfl⟩ : e'.isBenign = true ∧ e' = e := by simpa using hresult
      exact ⟨hmem, hbenign⟩
  · rintro ⟨hmem, hbenign⟩
    exact ⟨.error e, hmem, by simp [hbenign]⟩

theorem mem_refusals {events : List Event} {e : EngineError} :
    .error e ∈ refusals events ↔ ∃ cause, e = .store cause ∧ .refused cause ∈ events := by
  rw [refusals, List.mem_filterMap]
  constructor
  · rintro ⟨event, hmem, hevent⟩
    cases event with
    | refused cause =>
      obtain rfl : EngineError.store cause = e := by simpa using hevent
      exact ⟨cause, rfl, hmem⟩
    | pass | attached | released | taken => cases hevent
  · rintro ⟨cause, rfl, hmem⟩
    exact ⟨.refused cause, hmem, rfl⟩

namespace Stream

/-- The result that waits for room. -/
def unsent (s : Stream) : List Emission :=
  match s.phase with
  | .sending result _ => [result]
  | _ => []

@[simp] theorem refusals_releases (s : Stream) : refusals s.releases = [] := by
  simp [refusals, releases]

/-- What a stream holds after it has listened to its targets is the refusal, if there was one. -/
theorem unsent_attach (s : Stream) (targets : List ListenTarget) (c : Client) :
    (s.attach targets c).1.unsent = refusals (answers s.mailbox targets c) ∧
      (s.attach targets c).1.buffer = s.buffer := by
  induction targets generalizing s c with
  | nil => exact ⟨rfl, rfl⟩
  | cons target rest ih =>
    rcases h : c.perform (.listen target) (Store.listen target s.mailbox) with ⟨e | id, c'⟩
    · obtain ⟨hattach, hanswers⟩ := attach_cons_of_error h rest
      rw [hattach, hanswers]
      exact ⟨rfl, rfl⟩
    · obtain ⟨hattach, hanswers⟩ := attach_cons_of_ok h rest
      rw [hattach, hanswers]
      exact ih _ c'

@[simp] theorem unsent_send (s : Stream) (result : Emission) (next : Continuation) :
    (s.send result next).unsent = [result] := rfl

@[simp] theorem buffer_send (s : Stream) (result : Emission) (next : Continuation) :
    (s.send result next).buffer = s.buffer := rfl

@[simp] theorem unsent_finish (s : Stream) (c : Client) : (s.finish c).1.unsent = [] := rfl

@[simp] theorem buffer_finish (s : Stream) (c : Client) : (s.finish c).1.buffer = s.buffer := rfl

@[simp] theorem buffer_sent (s : Stream) (result : Emission) :
    (s.sent result).buffer = s.buffer ++ [result] := rfl

theorem unsent_of_sending {s : Stream} {result : Emission} {next : Continuation}
    (h : s.phase = .sending result next) : s.unsent = [result] := by
  rw [unsent, h]

theorem unsent_of_fresh {s : Stream} (h : s.phase = .fresh) : s.unsent = [] := by
  rw [unsent, h]

theorem unsent_of_listening {s : Stream} (h : s.phase = .listening) : s.unsent = [] := by
  rw [unsent, h]

variable {front events : List Event} {s : Stream} {c : Client} {r : Stream × Client}

/-- A step gives the consumer nothing, and the only abort signals that it adds to what waits are
refusals. -/
theorem abortSignals_works (hworks : Works s c events r) (hcancelled : s.cancelled = false) :
    taken events = [] ∧ abortSignals (r.1.buffer ++ r.1.unsent) =
      abortSignals (s.buffer ++ s.unsent) ++ abortSignals (refusals events) := by
  cases hworks with
  | stop hphase htrue => exact absurd (htrue.symm.trans hcancelled) (by decide)
  | first hphase _ hresponse => exact ⟨rfl, by simp [unsent_of_fresh hphase]⟩
  | firstAborted hphase _ hresponse hbenign =>
    exact ⟨s.taken_releases, by simp [unsent_of_fresh hphase]⟩
  | firstFailed hphase _ hresponse hbenign =>
    exact ⟨rfl, by simp [unsent_of_fresh hphase, abortSignals_error hbenign]⟩
  | @attach result targets hphase _ hroom =>
    -- the only step that puts a refusal on its way
    obtain ⟨hunsent, hbuffer⟩ := (s.sent result).unsent_attach targets c
    refine ⟨(taken_passes_answers s.mailbox targets c).1, ?_⟩
    rw [hunsent, hbuffer, unsent_of_sending hphase, buffer_sent, abortSignals_append]
    rfl
  | @listen result hphase _ hroom =>
    refine ⟨rfl, ?_⟩
    rw [unsent_of_listening rfl, unsent_of_sending hphase, List.append_nil]
    simp
  | close hphase _ hroom => exact ⟨s.taken_releases, by simp [unsent_of_sending hphase]⟩
  | rerun hphase _ hnotice hresponse =>
    exact ⟨rfl, by simp [unsent_of_listening hphase]⟩
  | rerunAborted hphase _ hnotice hresponse hbenign => exact ⟨rfl, by simp⟩
  | rerunFailed hphase _ hnotice hresponse hbenign =>
    exact ⟨rfl, by simp [unsent_of_listening hphase, abortSignals_error hbenign]⟩
  | abortNotice hphase _ hnotice habort => exact ⟨rfl, by simp⟩
  | @errorNotice e _ hphase _ hnotice habort =>
    have hbenign : (EngineError.store e).isBenign = false := habort
    exact ⟨rfl, by simp [unsent_of_listening hphase, abortSignals_error hbenign]⟩
  | idle hphase _ hlisteners => exact ⟨s.taken_releases, by simp [unsent_of_listening hphase]⟩

/-- The abort signals that the consumer took, and those that still wait unless the stream was given
up, are the ones that refused its listen calls. -/
structure Faithful (front : List Event) (s : Stream) : Prop where
  delivered : ∀ e ∈ abortSignals (taken front ++ s.buffer), e ∈ abortSignals (refusals front)
  waiting : s.cancelled = false →
    abortSignals (taken front ++ (s.buffer ++ s.unsent)) = abortSignals (refusals front)

theorem Faithful.of_waiting
    (h : abortSignals (taken front ++ (s.buffer ++ s.unsent)) = abortSignals (refusals front)) :
    Faithful front s where
  delivered e he := by
    rw [← h, ← List.append_assoc, abortSignals_append]
    exact List.mem_append_left _ he
  waiting _ := h

theorem Faithful.works (h : Faithful front s) (hworks : Works s c events r) :
    Faithful (front ++ events) r.1 := by
  cases hcancelled : s.cancelled with
  | true =>
    obtain ⟨rfl, rfl⟩ := hworks.of_cancelled hcancelled
    refine ⟨?_, fun hnot => absurd (hcancelled.symm.trans hnot) (by decide)⟩
    simpa using h.delivered
  | false =>
    obtain ⟨htaken, hworks⟩ := abortSignals_works hworks hcancelled
    refine .of_waiting ?_
    rw [taken_append, htaken, List.append_nil, abortSignals_append, hworks, ← List.append_assoc,
      ← abortSignals_append, h.waiting hcancelled, refusals_append, abortSignals_append]

theorem Faithful.take {result : Emission} {rest : List Emission} (h : Faithful front s)
    (hbuffer : s.buffer = result :: rest) :
    Faithful (front ++ [.taken result]) { s with buffer := rest } := by
  have htaken : taken (front ++ [.taken result]) = taken front ++ [result] := by
    rw [taken_append]
    rfl
  have hrefusals : refusals (front ++ [.taken result]) = refusals front := by
    rw [refusals_append]
    exact List.append_nil _
  refine ⟨?_, fun hcancelled => ?_⟩
  · rw [htaken, hrefusals, List.append_assoc, List.singleton_append, ← hbuffer]
    exact h.delivered
  · have hwaiting := h.waiting hcancelled
    rw [hbuffer] at hwaiting
    rw [htaken, hrefusals, List.append_assoc]
    exact hwaiting

theorem Faithful.cancel (h : Faithful front s) : Faithful front s.cancel where
  delivered e he := by
    refine h.delivered e ?_
    rw [abortSignals_append] at he ⊢
    exact List.mem_append_left _ (by simpa [Stream.cancel, abortSignals] using he)
  waiting hcancelled := by cases hcancelled

end Stream

/-! ### Streams of operations -/

/-- On the stream of an operation, in any run, the abort signals that the consumer gets are errors
with which a listen call of the stream was refused; and as long as the stream is not given up, each
such error that is an abort signal has been taken or waits for the consumer, once. -/
theorem abortSignals_of_run {s₀ s₁ s : Session} {config : Executor.Config} {o : Operation}
    {live : Bool} {buffer : Nat} {id : StreamId} {j : Journal}
    (hspawn : s₀.spawn config o live buffer = (id, s₁))
    (hrun : Session.Run Session.Step s₁ j s) :
    ∃ stream, s.streams[id]? = some stream ∧
      (∀ e, .error e ∈ taken (j.of id) → e.isBenign = true →
        ∃ cause, e = .store cause ∧ .refused cause ∈ j.of id) ∧
      (stream.cancelled = false →
        abortSignals (taken (j.of id) ++ (stream.buffer ++ stream.unsent)) =
          abortSignals (refusals (j.of id))) := by
  obtain ⟨rfl, rfl⟩ := Prod.mk.inj hspawn
  obtain ⟨stream, hid, hfaithful⟩ := Session.stream_induction (motive := Stream.Faithful)
    (fun h hworks => h.works hworks) (fun h hbuffer => h.take hbuffer) (fun h => h.cancel) hrun
    (Session.stream_spawn s₀ config o live buffer) (.of_waiting rfl)
  refine ⟨stream, hid, fun e he hbenign => ?_, hfaithful.waiting⟩
  have hmem := hfaithful.delivered e (mem_abortSignals.2 ⟨List.mem_append_left _ he, hbenign⟩)
  exact mem_refusals.1 (mem_abortSignals.1 hmem).1

/-- A session on a store that refuses the first listen call with an abort signal. -/
def refusingSession : Session :=
  .ofClient (.ofStore .empty [⟨.listen, 1, ⟨.aborted, "shutting down", none⟩⟩])

/-- The session with a stream for the operation. -/
def watchingSession : Session := (refusingSession.spawn {} watchUser true 4).2

theorem abortSignals_of_run_watchUser :
    ∃ stream, (watchingSession.run 0).streams[0]? = some stream ∧
      (∀ e, .error e ∈ taken ((watchingSession.runJournal 0).of 0) → e.isBenign = true →
        ∃ cause, e = .store cause ∧ .refused cause ∈ (watchingSession.runJournal 0).of 0) ∧
      (stream.cancelled = false →
        abortSignals (taken ((watchingSession.runJournal 0).of 0) ++
            (stream.buffer ++ stream.unsent)) =
          abortSignals (refusals ((watchingSession.runJournal 0).of 0))) :=
  abortSignals_of_run
    (show refusingSession.spawn {} watchUser true 4 = (0, watchingSession) from rfl)
    (.single (.run 0))

/-- The consumer takes the data and then the abort signal. -/
theorem abortSignal_of_refused_listen :
    ∃ j s, Session.Run Session.Step watchingSession j s ∧
      (abortSignals (taken (j.of 0))).map EngineError.message =
        ["backend error: [ABORTED] shutting down"] :=
  ⟨_, _, ((Session.Run.single (.run 0)).tail (.poll 0)).tail (.poll 0), by decide +kernel⟩

end LiveDocs
