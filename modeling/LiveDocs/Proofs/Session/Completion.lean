import LiveDocs.Proofs.Pass.Targets
import LiveDocs.Proofs.Session.AbortSignals

/-!
# When a live stream is done

Whether a stream is live is decided by what its operation asks for; what keeps it open are the
targets that its first pass recorded. The two need not agree: an operation can ask for updates where
nothing is fetched, and then its stream is done after its first result. Main statements:
`done_iff_of_request`, a live stream that was not given up is done exactly if its first pass
recorded no target or its last result is an error; `done_of_bare_subscribe`, a run in which nothing
fails and a live stream is done.
-/

namespace LiveDocs

namespace Stream

variable {front events : List Event} {s : Stream} {c seen : Client} {r : Stream × Client}
  {data : Json}

/-! ### Where a live stream stands -/

/-- All results of a stream so far: those that its consumer took, and those on their way. -/
def given (front : List Event) (s : Stream) : List Emission := taken front ++ (s.buffer ++ s.unsent)

/-- The last of some results is an error. -/
def Fails (results : List Emission) : Prop := ∃ e, results.getLast? = some (.error e)

/-- None of some results is an error. -/
def Succeeds (results : List Emission) : Prop := ∀ result ∈ results, ∃ data, result = .ok data

theorem fails_concat (front : List Emission) (e : EngineError) : Fails (front ++ [.error e]) :=
  ⟨e, List.getLast?_concat⟩

theorem Succeeds.concat {results : List Emission} (h : Succeeds results) (data : Json) :
    Succeeds (results ++ [.ok data]) := by
  intro result hresult
  rcases List.mem_append.1 hresult with hresult | hresult
  · exact h result hresult
  · exact ⟨data, List.mem_singleton.1 hresult⟩

theorem Succeeds.not_fails {results : List Emission} (h : Succeeds results) : ¬ Fails results := by
  rintro ⟨e, he⟩
  obtain ⟨data, hdata⟩ := h _ (List.mem_of_getLast? he)
  cases hdata

/-- Where a live stream stands by its phase, given the targets that its first pass recorded: it
keeps a listener for each of them, and ends after an error or for want of a listener. -/
def Stands (targets : List ListenTarget) (results : List Emission) (s : Stream) : Prop :=
  match s.phase with
  | .fresh => False
  | .sending _ (.attach recorded) => recorded = targets ∧ s.listeners = [] ∧ Succeeds results
  | .sending _ .listen => (s.listeners = [] ↔ targets = []) ∧ Succeeds results
  | .listening => (s.listeners = [] ↔ targets = []) ∧ Succeeds results
  | .sending _ .stop => Fails results
  | .ended => targets = [] ∨ Fails results

/-- A live stream whose first pass was made on this client and gave these data. -/
structure Opened (seen : Client) (data : Json) (front : List Event) (s : Stream) : Prop where
  pass : (passes front).head? = some seen
  response : s.response seen = .ok data
  first : (s.given front).head? = some (.ok data)
  stands : s.Stands (s.targets seen) (s.given front)

/-- Results are added behind those that wait to be sent. -/
theorem given_append {s' : Stream} {waiting more : List Emission} (htaken : taken events = [])
    (hwaiting : s.unsent = waiting)
    (hresults : s'.buffer ++ s'.unsent = s.buffer ++ (waiting ++ more)) :
    s'.given (front ++ events) = s.given front ++ more := by
  rw [given, given, taken_append, htaken, List.append_nil, hresults, hwaiting, List.append_assoc,
    List.append_assoc]

theorem given_send_of_fresh (hphase : s.phase = .fresh) (result : Emission) (next : Continuation)
    (c : Client) : (s.send result next).given (front ++ [.pass c]) = s.given front ++ [result] :=
  given_append rfl (unsent_of_fresh hphase) rfl

theorem given_finish_of_fresh (hphase : s.phase = .fresh) (c : Client) :
    (s.finish (s.executed c)).1.given (front ++ .pass c :: s.releases) = s.given front := by
  have hgiven : (s.finish (s.executed c)).1.given (front ++ .pass c :: s.releases) =
      s.given front ++ [] :=
    given_append s.taken_releases (unsent_of_fresh hphase) rfl
  rw [hgiven, List.append_nil]

/-- The last result of a stream is kept when it ends. -/
theorem given_finish_of_sending {result : Emission} (hphase : s.phase = .sending result .stop)
    (c : Client) : ((s.sent result).finish c).1.given (front ++ s.releases) = s.given front := by
  have hgiven : ((s.sent result).finish c).1.given (front ++ s.releases) = s.given front ++ [] :=
    given_append s.taken_releases (unsent_of_sending hphase) (List.append_assoc _ _ _)
  rw [hgiven, List.append_nil]

/-- A live stream goes on to stand as it should. -/
theorem Stands.works {targets : List ListenTarget} (h : s.Stands targets (s.given front))
    (hworks : Works s c events r) (hcancelled : s.cancelled = false) :
    ∃ more, r.1.given (front ++ events) = s.given front ++ more ∧
      r.1.Stands targets (s.given front ++ more) := by
  rw [Stands] at h
  cases hworks with
  | stop hphase htrue => exact absurd (htrue.symm.trans hcancelled) (by decide)
  | first hphase | firstAborted hphase | firstFailed hphase =>
    rw [hphase] at h
    exact h.elim
  | @attach result recorded hphase _ hroom =>
    rw [hphase] at h
    obtain ⟨rfl, hlisteners, hsucceeds⟩ := h
    obtain ⟨phase, ids, hattach, ⟨rfl, hlength⟩ | ⟨e, rfl⟩⟩ :=
      exists_attach (s.sent result) recorded c
    · refine ⟨[], given_append (taken_passes_answers s.mailbox recorded c).1
        (unsent_of_sending hphase) ?_, ?_⟩
      · rw [hattach]
        exact List.append_assoc _ _ _
      · rw [hattach, List.append_nil]
        refine ⟨?_, hsucceeds⟩
        -- as many listeners as targets
        change s.listeners ++ ids = [] ↔ recorded = []
        rw [hlisteners, List.nil_append, ← List.length_eq_zero_iff, hlength,
          List.length_eq_zero_iff]
    · refine ⟨[.error (.store e)], given_append (taken_passes_answers s.mailbox recorded c).1
        (unsent_of_sending hphase) ?_, ?_⟩
      · rw [hattach]
        exact List.append_assoc _ _ _
      · rw [hattach]
        exact fails_concat _ _
  | @listen result hphase _ hroom =>
    rw [hphase] at h
    refine ⟨[], given_append rfl (unsent_of_sending hphase) (List.append_assoc _ _ _), ?_⟩
    rw [List.append_nil]
    exact h
  | @close result hphase _ hroom =>
    rw [hphase] at h
    refine ⟨[], by rw [given_finish_of_sending hphase, List.append_nil], ?_⟩
    rw [List.append_nil]
    exact .inr h
  | @rerun _ _ data hphase _ hnotice hresponse =>
    rw [hphase] at h
    exact ⟨[.ok data], given_append rfl (unsent_of_listening hphase) rfl, h.1, h.2.concat data⟩
  | @rerunFailed _ _ e hphase _ hnotice hresponse hbenign =>
    exact ⟨[.error e], given_append rfl (unsent_of_listening hphase) rfl, fails_concat _ _⟩
  | @errorNotice e _ hphase _ hnotice habort =>
    exact ⟨[.error (.store e)], given_append rfl (unsent_of_listening hphase) rfl,
      fails_concat _ _⟩
  | rerunAborted hphase | abortNotice hphase =>
    refine ⟨[], given_append rfl rfl (congrArg _ (List.append_nil _).symm), ?_⟩
    rw [List.append_nil]
    exact h
  | idle hphase _ hlisteners =>
    rw [hphase] at h
    refine ⟨[], given_append s.taken_releases (unsent_of_listening hphase) rfl, ?_⟩
    rw [List.append_nil]
    exact .inl (h.1.1 hlisteners)

theorem Opened.works (h : Opened seen data front s) (hworks : Works s c events r)
    (hcancelled : s.cancelled = false) : Opened seen data (front ++ events) r.1 := by
  obtain ⟨more, hgiven, hstands⟩ := h.stands.works hworks hcancelled
  obtain ⟨phase, buffer, listeners, hr⟩ := hworks.exists_eq
  -- a pass depends on neither phase, results nor listeners
  have hresponse : r.1.response seen = s.response seen := by
    rw [hr]
    rfl
  have htargets : r.1.targets seen = s.targets seen := by
    rw [hr]
    rfl
  refine ⟨?_, hresponse.trans h.response, ?_, ?_⟩
  · rw [passes_append]
    exact List.mem_head?_append_of_mem_head? h.pass
  · rw [hgiven]
    exact List.mem_head?_append_of_mem_head? h.first
  · rw [hgiven, htargets]
    exact hstands

/-- What becomes of a live stream that is not given up: it has not begun, its first result is no
data, or it is open until it ends. -/
inductive Lives (front : List Event) (s : Stream) : Prop where
  | fresh (hphase : s.phase = .fresh) (hpasses : passes front = []) (hgiven : s.given front = [])
      (hlisteners : s.listeners = [])
  | failed (hphase : s.phase = .ended ∨ ∃ result, s.phase = .sending result .stop)
      (hgiven : ∀ data, (s.given front).head? ≠ some (.ok data))
  | opened {seen : Client} {data : Json} (h : Opened seen data front s)

/-- The first pass of a live stream opens it, or fails. -/
theorem Lives.of_fresh (hworks : Works s c events r) (hphase : s.phase = .fresh)
    (hpasses : passes front = []) (hgiven : s.given front = []) (hlisteners : s.listeners = [])
    (hlive : s.live = true) (hcancelled : s.cancelled = false) : Lives (front ++ events) r.1 := by
  cases hworks with
  | stop _ htrue => exact absurd (htrue.symm.trans hcancelled) (by decide)
  | @first data _ _ hresponse =>
    have hsent : (s.send (.ok data) (.attach (s.targets c))).given (front ++ [.pass c]) =
        [.ok data] := by
      rw [given_send_of_fresh hphase, hgiven, List.nil_append]
    rw [hlive, if_pos rfl]
    refine .opened ⟨?_, hresponse, hsent ▸ rfl, rfl, hlisteners, ?_⟩
    · rw [passes_append, hpasses]
      rfl
    · rw [hsent]
      exact fun result hresult => ⟨data, List.mem_singleton.1 hresult⟩
  | @firstAborted e _ _ hresponse hbenign =>
    refine .failed (.inl rfl) fun data => ?_
    rw [given_finish_of_fresh hphase, hgiven]
    exact fun hhead => by cases hhead
  | @firstFailed e _ _ hresponse hbenign =>
    refine .failed (.inr ⟨_, rfl⟩) fun data => ?_
    rw [given_send_of_fresh hphase, hgiven]
    exact fun hhead => by cases hhead
  | attach hother | listen hother | close hother | rerun hother | rerunAborted hother
  | rerunFailed hother | abortNotice hother | errorNotice hother | idle hother =>
    cases hphase.symm.trans hother

/-- After a first result that is no data a stream only ends. -/
theorem Lives.of_failed (hworks : Works s c events r)
    (hphase : s.phase = .ended ∨ ∃ result, s.phase = .sending result .stop)
    (hgiven : ∀ data, (s.given front).head? ≠ some (.ok data)) (hcancelled : s.cancelled = false) :
    Lives (front ++ events) r.1 := by
  rcases hphase with hended | ⟨result, hphase⟩
  · exact absurd hended hworks.not_ended
  · cases hworks with
    | stop _ htrue => exact absurd (htrue.symm.trans hcancelled) (by decide)
    | @close result' hclosing _ hroom =>
      refine .failed (.inl rfl) fun data => ?_
      rw [given_finish_of_sending hclosing]
      exact hgiven data
    | first hother | firstAborted hother | firstFailed hother | attach hother | listen hother
    | rerun hother | rerunAborted hother | rerunFailed hother | abortNotice hother
    | errorNotice hother | idle hother => cases hphase.symm.trans hother

/-- A live stream of an operation. -/
structure Live (config : Executor.Config) (o : Operation) (front : List Event) (s : Stream) :
    Prop where
  config : s.config = config
  operation : s.operation = o
  live : s.live = true
  room : 0 < s.capacity
  lives : s.cancelled = false → Lives front s

variable {config : Executor.Config} {o : Operation}

theorem Live.works (h : Live config o front s) (hworks : Works s c events r) :
    Live config o (front ++ events) r.1 := by
  obtain ⟨phase, buffer, listeners, hr⟩ := hworks.exists_eq
  have hcancelled : r.1.cancelled = s.cancelled := by rw [hr]
  refine ⟨?_, ?_, ?_, ?_, fun hopen => ?_⟩
  · rw [hr]
    exact h.config
  · rw [hr]
    exact h.operation
  · rw [hr]
    exact h.live
  · rw [hr]
    exact h.room
  · rw [hcancelled] at hopen
    cases h.lives hopen with
    | fresh hphase hpasses hgiven hlisteners =>
      exact .of_fresh hworks hphase hpasses hgiven hlisteners h.live hopen
    | failed hphase hgiven => exact .of_failed hworks hphase hgiven hopen
    | opened hopened => exact .opened (hopened.works hworks hopen)

/-- Taking a result moves it only. -/
theorem given_take {result : Emission} {rest : List Emission}
    (hbuffer : s.buffer = result :: rest) :
    ({ s with buffer := rest } : Stream).given (front ++ [.taken result]) = s.given front := by
  rw [given, given, taken_append, List.append_assoc, hbuffer]
  rfl

theorem Live.take {result : Emission} {rest : List Emission} (h : Live config o front s)
    (hbuffer : s.buffer = result :: rest) :
    Live config o (front ++ [.taken result]) { s with buffer := rest } := by
  have hgiven : ({ s with buffer := rest } : Stream).given (front ++ [.taken result]) =
      s.given front := given_take hbuffer
  have hpasses : passes (front ++ [.taken result]) = passes front := by
    rw [passes_append]
    exact List.append_nil _
  refine ⟨h.config, h.operation, h.live, h.room, fun hopen => ?_⟩
  cases h.lives hopen with
  | fresh hphase hpasses' hnone hlisteners =>
    exact .fresh hphase (hpasses.trans hpasses') (hgiven.trans hnone) hlisteners
  | failed hphase hfirst => exact .failed hphase (hgiven ▸ hfirst)
  | opened hopened =>
    exact .opened ⟨hpasses ▸ hopened.pass, hopened.response, hgiven ▸ hopened.first,
      hgiven ▸ hopened.stands⟩

theorem Live.cancel (h : Live config o front s) : Live config o front s.cancel :=
  ⟨h.config, h.operation, h.live, h.room, fun hopen => by cases hopen⟩

/-! ### The end of a stream -/

theorem poll_eq_done_iff : s.poll.1 = .done ↔ s.phase = .ended ∧ s.buffer = [] := by
  rw [poll, isEnded]
  cases s.buffer with
  | nil => cases s.phase <;> simp
  | cons result rest => simp

/-- A live stream is done exactly if it neither works nor holds a result, and its first pass
recorded no target or its last result is an error. -/
theorem Opened.done_iff (h : Opened seen data front s) (hroom : 0 < s.capacity) :
    s.poll.1 = .done ↔
      s.step c = none ∧ s.buffer = [] ∧ (s.targets seen = [] ∨ Fails (taken front)) := by
  have hstands := h.stands
  rw [poll_eq_done_iff]
  constructor
  · rintro ⟨hended, hbuffer⟩
    have hgiven : s.given front = taken front := by
      rw [given, hbuffer, unsent, hended]
      exact List.append_nil _
    rw [Stands, hended, hgiven] at hstands
    exact ⟨step_eq_none_iff.2 (.inl hended), hbuffer, hstands⟩
  · rintro ⟨hwaits, hbuffer, hcause⟩
    refine ⟨?_, hbuffer⟩
    rcases step_eq_none_iff.1 hwaits with hended | ⟨-, -, hfull⟩ | ⟨-, hlistening, -, hlisteners⟩
    · exact hended
    · -- an empty buffer has room
      rw [hbuffer] at hfull
      exact absurd hroom (Nat.not_lt.2 hfull)
    · have hgiven : s.given front = taken front := by
        rw [given, hbuffer, unsent, hlistening]
        exact List.append_nil _
      rw [Stands, hlistening, hgiven] at hstands
      rcases hcause with htargets | hfails
      · exact absurd (hstands.1.2 htargets) hlisteners
      · exact absurd hfails hstands.2.not_fails

end Stream

/-! ### Streams of requests -/

/-- Unless results are given for it, an operation is resolved by a link. -/
theorem Link.request_eq_resolve {link : Link} {o : Operation} {next : Option NextLink}
    (h : ∀ results, next = some (.answer results) → o.isDocumentOperation = true) (s : Session) :
    link.request o next s = (link.resolving o next).resolve o s := by
  cases ho : o.isDocumentOperation with
  | true => simp only [request, resolving, ho, if_true]
  | false =>
    rcases next with _ | results | other
    · simp only [request, resolving, ho, Bool.false_eq_true, if_false]
    · exact absurd ((h results rfl).symm.trans ho) (by decide)
    · simp only [request, resolving, ho, Bool.false_eq_true, if_false]

/-- A live stream ends by itself if there is nothing that it listens to. Let a live operation be
requested, and let others do anything to the store and the streams. If the first result that the
consumer took is data, and the stream was not given up, then the consumer finds it done exactly if
it neither works nor holds a result and one of two things is the case: its first pass recorded no
target, or the last result taken is an error. The first of these is never the case if a root field
asks for updates. -/
theorem done_iff_of_request {link : Link} {o : Operation} {next : Option NextLink}
    {s₀ s₁ s : Session} {id : StreamId} {j : Journal} {stream : Stream} {data : Json}
    (hlive : o.subscribes = true)
    (hresolved : ∀ results, next = some (.answer results) → o.isDocumentOperation = true)
    (hrequest : link.request o next s₀ = (id, s₁)) (hrun : Session.Run Session.Step s₁ j s)
    (hid : s.streams[id]? = some stream) (hcancelled : stream.cancelled = false)
    (hfirst : (taken (j.of id)).head? = some (.ok data)) :
    ∃ c, (passes (j.of id)).head? = some c ∧
      (Executor.execute (link.resolving o next).executor o c).response = .ok data ∧
      (stream.poll.1 = .done ↔
        stream.step s.client = none ∧ stream.buffer = [] ∧
          ((Executor.execute (link.resolving o next).executor o c).targets = [] ∨
            ∃ e, (taken (j.of id)).getLast? = some (.error e))) ∧
      ((∃ f ∈ o.selection, f.Subscribes o.vars) →
        (Executor.execute (link.resolving o next).executor o c).targets ≠ []) := by
  rw [Link.request_eq_resolve hresolved, Link.resolve] at hrequest
  obtain ⟨rfl, rfl⟩ := Prod.mk.inj hrequest
  have hstart : Stream.Live (link.resolving o next).executor o []
      (Stream.start (link.resolving o next).executor o o.subscribes
        (link.resolving o next).streamBuffer s₀.mailboxes) :=
    ⟨rfl, rfl, hlive, Nat.lt_of_lt_of_le Nat.zero_lt_one (Nat.le_max_right _ 1),
      fun _ => .fresh rfl rfl rfl rfl⟩
  obtain ⟨stream', hid', h⟩ := Session.stream_induction
    (motive := Stream.Live (link.resolving o next).executor o) (fun h hworks => h.works hworks)
    (fun h hbuffer => h.take hbuffer) (fun h => h.cancel) hrun
    (Session.stream_spawn s₀ _ o _ _) hstart
  obtain rfl : stream' = stream := Option.some.inj (hid'.symm.trans hid)
  have hgiven : (stream'.given (j.of (s₀.spawn (link.resolving o next).executor o o.subscribes
      (link.resolving o next).streamBuffer).1)).head? = some (.ok data) :=
    List.mem_head?_append_of_mem_head? hfirst
  cases h.lives hcancelled with
  | fresh _ _ hnone =>
    rw [hnone] at hgiven
    cases hgiven
  | failed _ hnot => exact absurd hgiven (hnot data)
  | @opened seen data' hopened =>
    obtain rfl : data = data' := by
      have heq := hgiven.symm.trans hopened.first
      exact Except.ok.inj (Option.some.inj heq)
    have hexecute : Executor.execute stream'.config stream'.operation seen =
        Executor.execute (link.resolving o next).executor o seen := by
      rw [h.config, h.operation]
    have hresponse := hopened.response
    have hdone := hopened.done_iff (c := s.client) h.room
    rw [Stream.response, hexecute] at hresponse
    rw [Stream.targets, hexecute] at hdone
    exact ⟨seen, hopened.pass, hresponse, hdone,
      Executor.targets_ne_nil_of_subscribes hresponse⟩

/-- A session in which updates of one document were requested. -/
def openSession : Session := (Link.request {} watchUser none (.ofClient (.ofStore .empty []))).2

/-- Its stream works, and the consumer takes the first result. -/
def openedSession : Session := ((openSession.run 0).poll 0).2

theorem done_iff_of_request_watchUser :
    ∃ j stream data c, Session.Run Session.Step openSession j openedSession ∧
      openedSession.streams[0]? = some stream ∧ stream.cancelled = false ∧
      (taken (j.of 0)).head? = some (.ok data) ∧ (passes (j.of 0)).head? = some c ∧
      (stream.poll.1 = .done ↔
        stream.step openedSession.client = none ∧ stream.buffer = [] ∧
          ((Executor.execute {} watchUser c).targets = [] ∨
            ∃ e, (taken (j.of 0)).getLast? = some (.error e))) := by
  have hrun : Session.Run Session.Step openSession
      (openSession.runJournal 0 ++ (openSession.run 0).pollJournal 0) openedSession :=
    (Session.Run.single (.run 0)).tail (.poll 0)
  obtain ⟨stream, hstreams, hcancelled⟩ : ∃ stream, openedSession.streams = [stream] ∧
      stream.cancelled = false :=
    List.map_eq_singleton_iff.1 (by decide +kernel)
  have hid : openedSession.streams[0]? = some stream := by rw [hstreams]; rfl
  have htaken : ((taken ((openSession.runJournal 0 ++
      (openSession.run 0).pollJournal 0).of 0)).head?.map Except.isOk) = some true := by
    decide +kernel
  obtain ⟨result, hfirst, hok⟩ := Option.map_eq_some_iff.1 htaken
  cases result with
  | error e => cases hok
  | ok data =>
    obtain ⟨c, hpass, -, hdone, -⟩ := done_iff_of_request (by decide +kernel)
      (fun results hnext => by cases hnext)
      (show Link.request {} watchUser none (.ofClient (.ofStore .empty [])) = (0, openSession)
        from rfl)
      hrun hid hcancelled hfirst
    exact ⟨_, stream, data, c, hrun, hid, hcancelled, hfirst, hpass, hdone⟩

/-- A live operation that asks for updates, but of none of its fields. -/
def bareSubscribe : Operation :=
  ((Operation.empty .query).withDirective
    ((Directive.named "query").withArgument "subscribe" (.literal (.bool true)))).select
    (((Field.leaf "users").withDirective
      ((Directive.named "query").withArgument "rootType" (.literal (.string "collection")))).select
      (Field.leaf "id"))

/-- A session in which it was requested. -/
def bareSession : Session := (Link.request {} bareSubscribe none (.ofClient (.ofStore .empty []))).2

/-- No call fails and nobody gives up the stream; after its first result it is done. -/
theorem done_of_bare_subscribe :
    bareSubscribe.subscribes = true ∧ Client.Quiet (.ofStore .empty []) ∧
      ∃ j s stream, Session.Run Session.Step bareSession j s ∧
        (taken (j.of 0)).map Except.isOk = [true] ∧ s.streams = [stream] ∧
        stream.cancelled = false ∧ stream.poll.1 = .done := by
  refine ⟨by decide +kernel, ⟨rfl, rfl⟩, bareSession.runJournal 0 ++
    (bareSession.run 0).pollJournal 0, ((bareSession.run 0).poll 0).2, ?_⟩
  obtain ⟨stream, hstreams, hstream⟩ : ∃ stream, ((bareSession.run 0).poll 0).2.streams = [stream] ∧
      (stream.cancelled, stream.isEnded, stream.buffer.isEmpty) = (false, true, true) :=
    List.map_eq_singleton_iff.1 (by decide +kernel)
  simp only [Prod.mk.injEq, List.isEmpty_iff] at hstream
  obtain ⟨hcancelled, hended, hbuffer⟩ := hstream
  refine ⟨stream, (Session.Run.single (.run 0)).tail (.poll 0), by decide +kernel, hstreams,
    hcancelled, ?_⟩
  rw [Stream.poll, hbuffer, hended]
  rfl

end LiveDocs
