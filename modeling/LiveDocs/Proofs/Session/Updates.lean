import LiveDocs.Proofs.Session.Run

/-!
# Updates of a live stream

A stream that waits for a notice has passed on the data of its latest pass. As long as no change
waits in its mailbox, the store is still as that pass saw it wherever the stream listens; so if the
pass fetched nothing else, passing once more would give the same data. Main statement:
`last_result_of_listening`, no update is lost.
-/

namespace LiveDocs

namespace Stream

/-! ### What a stream has shown -/

/-- The latest pass of a stream gave these data, and the store is as that pass saw it where the
stream listens, unless a change waits for the stream. -/
structure Shows (front : List Event) (s : Stream) (c : Client) (data : Json) (seen : Client) :
    Prop where
  latest : (passes front).getLast? = some seen
  quiet : seen.Quiet
  response : s.response seen = .ok data
  pending : c.store.pending = seen.store.pending
  alike : ¬ c.store.Told s.mailbox → ∀ target, c.store.Watches s.mailbox target →
    target.ReadsAlike seen.store c.store

/-- What a live stream has shown where it stands between its runs. It never stands between its first
pass and the listen calls that follow. -/
def Current (front : List Event) (s : Stream) (c : Client) : Prop :=
  match s.phase with
  | .fresh => s.buffer = [] ∧ 0 < s.capacity
  | .sending _ (.attach _) => False
  | .sending result .listen => ∃ data seen, result = .ok data ∧ Shows front s c data seen
  | .listening => ∃ data seen, (taken front ++ s.buffer).getLast? = some (.ok data) ∧
      Shows front s c data seen
  | .sending _ .stop => True
  | .ended => True

/-- A stream that resolves an operation without mutations, on a client where no call is to fail. -/
structure Follows (o : Operation) (front : List Event) (s : Stream) (c : Client) : Prop where
  quiet : c.Quiet
  operation : s.phase ≠ .ended → s.operation = o ∧ s.cancelled = false
  current : Current front s c

variable {o : Operation} {front events : List Event} {s : Stream} {c : Client}

/-- What leaves the results and the phase as they are leaves a stream as it stands, if the stream
still shows what it showed. -/
theorem Current.imp {front' : List Event} {s' : Stream} {c' : Client} (h : Current front s c)
    (hphase : s'.phase = s.phase)
    (hfresh : s.phase = .fresh → s'.buffer = s.buffer ∧ s'.capacity = s.capacity)
    (hresults : taken front' ++ s'.buffer = taken front ++ s.buffer)
    (hshows : ∀ {data seen}, Shows front s c data seen → Shows front' s' c' data seen) :
    Current front' s' c' := by
  rw [Current] at h ⊢
  rw [hphase]
  cases hs : s.phase with
  | fresh =>
    simp only [hs] at h ⊢
    rw [(hfresh hs).1, (hfresh hs).2]
    exact h
  | sending result next =>
    cases next with
    | attach targets => simp only [hs] at h
    | stop => trivial
    | listen =>
      simp only [hs] at h ⊢
      obtain ⟨data, seen, hresult, hseen⟩ := h
      exact ⟨data, seen, hresult, hshows hseen⟩
  | listening =>
    simp only [hs] at h ⊢
    obtain ⟨data, seen, hlast, hseen⟩ := h
    exact ⟨data, seen, hresults ▸ hlast, hshows hseen⟩
  | ended => trivial

/-! ### Passes and listen calls -/

theorem executed_of_quiet (ho : s.operation.MutationFree) (hc : c.Quiet) :
    (s.executed c).Quiet ∧ (s.executed c).store = c.store := by
  have hclient : s.executed c =
      { c with log := c.log ++ Executor.calls s.config s.operation c } :=
    Executor.client_execute ho hc
  rw [hclient]
  exact ⟨hc, rfl⟩

/-- A pass shows the store as it is. -/
theorem Shows.of_pass {data : Json} (ho : s.operation.MutationFree) (hc : c.Quiet)
    (hresponse : s.response c = .ok data) :
    Shows (front ++ [.pass c]) s (s.executed c) data c where
  latest := by
    rw [passes_append]
    exact List.getLast?_concat
  quiet := hc
  response := hresponse
  pending := by rw [(executed_of_quiet ho hc).2]
  alike _ target _ := .of_collections (by rw [(executed_of_quiet ho hc).2]) target

/-- Where no call is to fail, a stream listens to all its targets, and no document changes. -/
theorem attach_of_quiet (hc : c.Quiet) (targets : List ListenTarget) :
    (∃ listeners, (s.attach targets c).1 = { s with phase := .listening, listeners }) ∧
      (s.attach targets c).2.Quiet ∧
      (s.attach targets c).2.store.collections = c.store.collections ∧
      (s.attach targets c).2.store.pending = c.store.pending := by
  induction targets generalizing s c with
  | nil => exact ⟨⟨s.listeners, rfl⟩, hc, rfl, rfl⟩
  | cons target rest ih =>
    rcases hlisten : c.perform (.listen target) (Store.listen target s.mailbox) with ⟨e | id, c'⟩
    · rw [hc.perform, Store.listen, Store.guarded_of_failures_nil hc.2] at hlisten
      cases hlisten
    · obtain ⟨hattach, -⟩ := attach_cons_of_ok hlisten rest
      obtain ⟨-, rfl⟩ := perform_listen hlisten
      rw [hattach]
      exact ih hc

/-! ### Steps -/

/-- An abort notice that is passed over tells of no change. -/
theorem Shows.of_receive {data : Json} {seen : Client} {e : StoreError} {store : Store}
    (h : Shows front s c data seen)
    (hnotice : c.store.receive? s.mailbox = some (.error e, store)) :
    Shows front s { c with store } data seen := by
  obtain ⟨hnotices, hstore⟩ := Store.receive?_eq_some hnotice
  have htold : c.store.Told s.mailbox → store.Told s.mailbox := by
    rintro ⟨target, hmem⟩
    rw [hnotices] at hmem
    rcases List.mem_cons.1 hmem with heq | hmem
    · cases heq
    · exact ⟨target, hmem⟩
  refine ⟨h.latest, h.quiet, h.response, ?_, fun hnot target hwatched => ?_⟩
  · rw [hstore]
    exact h.pending
  · have hwatched' : c.store.Watches s.mailbox target := by
      rw [hstore] at hwatched
      exact hwatched
    refine (h.alike (fun hold => hnot (htold hold)) target hwatched').trans ?_
    exact .of_collections (by rw [hstore]) target

theorem Follows.finish {c' : Client} (hc : c'.Quiet) :
    Follows o front (s.finish c').1 (s.finish c').2 := by
  refine ⟨⟨hc.1, ?_⟩, fun hended => absurd rfl hended, trivial⟩
  change ((c'.store.detachAll s.listeners).clear s.mailbox).failures = []
  rw [Store.detachAll_eq]
  exact hc.2

/-- After its first pass a stream goes on as it stands between its runs. -/
theorem Follows.works (ho : o.MutationFree) {r : Stream × Client} (h : Follows o front s c)
    (hfresh : s.phase ≠ .fresh) (hworks : Works s c events r) :
    Follows o (front ++ events) r.1 r.2 ∧ r.1.phase ≠ .fresh := by
  have hcurrent := h.current
  have hopen : s.phase = .listening → s.operation = o ∧ s.cancelled = false := fun hphase =>
    h.operation fun hended => by cases hphase.symm.trans hended
  have hfree : s.phase = .listening → s.operation.MutationFree := fun hphase =>
    (hopen hphase).1 ▸ ho
  have hreceived : ∀ {notice store}, c.store.receive? s.mailbox = some (notice, store) →
      Client.Quiet { c with store } := fun {_ store} hnotice => by
    refine ⟨h.quiet.1, ?_⟩
    have hstore := (Store.receive?_eq_some hnotice).2
    rw [hstore]
    exact h.quiet.2
  cases hworks with
  | stop hphase hcancelled =>
    rw [(h.operation hphase).2] at hcancelled
    cases hcancelled
  -- the first pass is behind the stream
  | first hphase => exact absurd hphase hfresh
  | firstAborted hphase => exact absurd hphase hfresh
  | firstFailed hphase => exact absurd hphase hfresh
  | attach hphase =>
    simp only [Current, hphase] at hcurrent
  | @listen result hphase hcancelled hroom =>
    have hended : s.phase ≠ .ended := fun hended => by cases hphase.symm.trans hended
    simp only [Current, hphase] at hcurrent
    obtain ⟨data, seen, rfl, hshows⟩ := hcurrent
    refine ⟨⟨h.quiet, fun _ => h.operation hended, ?_⟩, fun heq => by cases heq⟩
    rw [List.append_nil]
    refine ⟨data, seen, ?_, hshows.latest, hshows.quiet, hshows.response, hshows.pending,
      hshows.alike⟩
    change (taken front ++ (s.buffer ++ [Except.ok data])).getLast? = _
    rw [← List.append_assoc]
    exact List.getLast?_concat
  | close hphase hcancelled hroom => exact ⟨.finish h.quiet, fun heq => by cases heq⟩
  | @rerun _ store data hphase hcancelled hnotice hresponse =>
    have hquiet := hreceived hnotice
    -- the pass starts on the store as it is once the notice is gone
    have hshows : Shows (front ++ [.pass { c with store }]) s (s.executed { c with store }) data
        { c with store } := .of_pass (hfree hphase) hquiet hresponse
    refine ⟨⟨(executed_of_quiet (hfree hphase) hquiet).1, fun _ => hopen hphase, ?_⟩,
      fun heq => by cases heq⟩
    exact ⟨data, _, rfl, hshows.latest, hshows.quiet, hshows.response, hshows.pending, hshows.alike⟩
  | @rerunAborted _ store e hphase hcancelled hnotice hresponse hbenign =>
    rw [Executor.isBenign_of_response (hfree hphase) (hreceived hnotice) hresponse] at hbenign
    cases hbenign
  | rerunFailed hphase hcancelled hnotice hresponse hbenign =>
    exact ⟨⟨(executed_of_quiet (hfree hphase) (hreceived hnotice)).1, fun _ => hopen hphase,
      trivial⟩, fun heq => by cases heq⟩
  | abortNotice hphase hcancelled hnotice habort =>
    rw [List.append_nil]
    exact ⟨⟨hreceived hnotice, fun _ => hopen hphase, hcurrent.imp rfl (fun _ => ⟨rfl, rfl⟩) rfl
      fun hshows => hshows.of_receive hnotice⟩, hfresh⟩
  | errorNotice hphase hcancelled hnotice habort =>
    exact ⟨⟨hreceived hnotice, fun _ => hopen hphase, trivial⟩, fun heq => by cases heq⟩
  | idle hphase hcancelled hlisteners => exact ⟨.finish h.quiet, fun heq => by cases heq⟩

/-- The first pass ends the stream, fails, or is followed by the listen calls. -/
theorem Follows.first (ho : o.MutationFree) {r : Stream × Client} (h : Follows o front s c)
    (hfresh : s.phase = .fresh) (hworks : Works s c events r) :
    (Follows o (front ++ events) r.1 r.2 ∧ r.1.phase ≠ .fresh) ∨
      ∃ data targets, s.response c = .ok data ∧ events = [.pass c] ∧
        r = (s.send (.ok data) (.attach targets), s.executed c) := by
  have hopen := h.operation fun hended => by cases hfresh.symm.trans hended
  have hquiet := (executed_of_quiet (hopen.1 ▸ ho) h.quiet).1
  have hother : ∀ {p}, s.phase = p → p = .fresh := fun hphase => hphase.symm.trans hfresh
  cases hworks with
  | stop hphase hcancelled =>
    rw [hopen.2] at hcancelled
    cases hcancelled
  | @first data hphase hcancelled hresponse =>
    cases s.live with
    | true => exact .inr ⟨data, s.targets c, hresponse, rfl, rfl⟩
    | false => exact .inl ⟨⟨hquiet, fun _ => hopen, trivial⟩, fun heq => by cases heq⟩
  | firstAborted hphase hcancelled hresponse hbenign =>
    exact .inl ⟨.finish hquiet, fun heq => by cases heq⟩
  | firstFailed hphase hcancelled hresponse hbenign =>
    exact .inl ⟨⟨hquiet, fun _ => hopen, trivial⟩, fun heq => by cases heq⟩
  | attach hphase | listen hphase | close hphase | rerun hphase | rerunAborted hphase
  | rerunFailed hphase | abortNotice hphase | errorNotice hphase | idle hphase =>
    cases hother hphase

/-- Once the listen calls have followed the first pass, the stream has shown the store as it is. -/
theorem Follows.attached (ho : o.MutationFree) (h : Follows o front s c)
    (hfresh : s.phase = .fresh) {data : Json} (hresponse : s.response c = .ok data)
    {targets : List ListenTarget} {r : Stream × Client}
    (hworks : Works (s.send (.ok data) (.attach targets)) (s.executed c) events r) :
    Follows o (front ++ [.pass c] ++ events) r.1 r.2 ∧ r.1.phase ≠ .fresh := by
  have hopen := h.operation fun hended => by cases hfresh.symm.trans hended
  obtain ⟨hquiet, hstore⟩ := executed_of_quiet (s := s) (hopen.1 ▸ ho) h.quiet
  cases hworks with
  | stop hphase hcancelled =>
    rw [show (s.send (.ok data) (.attach targets)).cancelled = s.cancelled from rfl, hopen.2]
      at hcancelled
    cases hcancelled
  | attach hphase hcancelled hroom =>
    cases hphase
    obtain ⟨⟨listeners, hattach⟩, hquiet', hcollections, hpending⟩ :=
      attach_of_quiet (s := (s.send (.ok data) (.attach targets)).sent (.ok data)) hquiet targets
    obtain ⟨htaken, hpasses⟩ := taken_passes_answers s.mailbox targets (s.executed c)
    have halike : ∀ target : ListenTarget, target.ReadsAlike c.store
        (((s.send (.ok data) (.attach targets)).sent (.ok data)).attach targets
          (s.executed c)).2.store :=
      .of_collections (by rw [hcollections, hstore])
    rw [hattach]
    refine ⟨⟨hquiet', fun _ => hopen, data, c, ?_, ?_, h.quiet, hresponse, ?_, fun _ target _ =>
      halike target⟩, fun heq => by cases heq⟩
    · change (taken (front ++ [Event.pass c] ++ answers s.mailbox targets (s.executed c)) ++
        (s.buffer ++ [Except.ok data])).getLast? = _
      rw [← List.append_assoc]
      exact List.getLast?_concat
    · change
        (passes (front ++ [Event.pass c] ++ answers s.mailbox targets (s.executed c))).getLast? = _
      rw [passes_append, hpasses, List.append_nil, passes_append]
      exact List.getLast?_concat
    · rw [hpending, hstore]
  | first hphase | firstAborted hphase | firstFailed hphase | listen hphase | close hphase
  | rerun hphase | rerunAborted hphase | rerunFailed hphase | abortNotice hphase
  | errorNotice hphase | idle hphase => cases hphase

theorem Follows.advanceFor (ho : o.MutationFree) (h : Follows o front s c)
    (hfresh : s.phase ≠ .fresh) (fuel : Nat) :
    Follows o (front ++ eventsFor fuel s c) (s.advanceFor fuel c).1 (s.advanceFor fuel c).2 :=
  (advanceFor_induction (motive := fun front s c => Follows o front s c ∧ s.phase ≠ .fresh)
    ⟨h, hfresh⟩ (fun hmotive hworks => hmotive.1.works ho hmotive.2 hworks) fuel).1

/-- A stream that works until it waits stands as it should between its runs. -/
theorem Follows.advance (ho : o.MutationFree) (h : Follows o front s c) :
    Follows o (front ++ s.advanceEvents c) (s.advance c).1 (s.advance c).2 := by
  by_cases hfresh : s.phase = .fresh
  · obtain ⟨n, hfuel⟩ : ∃ n, s.stepBound c = n + 1 + 1 := ⟨_, rfl⟩
    obtain ⟨r, hstep⟩ := exists_step_of_fresh hfresh c
    obtain ⟨hadvance, hevents⟩ := advanceFor_succ hstep (n + 1)
    rw [Stream.advance, advanceEvents, hfuel, hadvance, hevents, ← List.append_assoc]
    rcases h.first ho hfresh (works_of_step hstep) with
      ⟨hfollows, hother⟩ | ⟨data, targets, hresponse, hpass, rfl⟩
    · exact hfollows.advanceFor ho hother _
    · -- the buffer is empty, so nothing comes between the first pass and the listen calls
      have hcurrent := h.current
      simp only [Current, hfresh] at hcurrent
      have hroom : s.buffer.length < s.capacity := by
        rw [hcurrent.1]
        exact hcurrent.2
      obtain ⟨r, hattach⟩ := exists_step_of_room
        (s := s.send (.ok data) (.attach targets)) rfl hroom (s.executed c)
      obtain ⟨hadvance, hevents⟩ := advanceFor_succ hattach n
      obtain ⟨hfollows, hother⟩ := h.attached ho hfresh hresponse (works_of_step hattach)
      rw [hpass, hadvance, hevents, ← List.append_assoc]
      exact hfollows.advanceFor ho hother _
  · exact h.advanceFor ho hfresh _

/-! ### What others do -/

theorem Follows.take {result : Emission} {rest : List Emission} (h : Follows o front s c)
    (hbuffer : s.buffer = result :: rest) :
    Follows o (front ++ [.taken result]) { s with buffer := rest } c := by
  have hpasses : passes (front ++ [.taken result]) = passes front := by
    rw [passes_append]
    exact List.append_nil _
  have htaken : taken (front ++ [.taken result]) ++ rest = taken front ++ s.buffer := by
    rw [taken_append, hbuffer, List.append_assoc]
    rfl
  refine ⟨h.quiet, h.operation, h.current.imp rfl (fun hphase => ?_) htaken fun hshows =>
    ⟨hpasses ▸ hshows.latest, hshows.quiet, hshows.response, hshows.pending, hshows.alike⟩⟩
  have hcurrent := h.current
  simp only [Current, hphase] at hcurrent
  rw [hcurrent.1] at hbuffer
  cases hbuffer

/-- A write that the stream is not told of is seen nowhere it listens. -/
theorem Follows.write (h : Follows o front s c) {α : Type} {r : Request α} (hr : r.Writes) {a : α}
    {store : Store} (hwrite : r.run c.store = (.ok a, store)) :
    Follows o front s { c with store } := by
  obtain ⟨hfailures, hpending, hlisteners⟩ := Store.keeps_of_writes hr h.quiet.2 hwrite
  refine ⟨⟨h.quiet.1, hfailures⟩, h.operation,
    h.current.imp rfl (fun _ => ⟨rfl, rfl⟩) rfl fun hshows => ?_⟩
  refine ⟨hshows.latest, hshows.quiet, hshows.response, hpending.trans hshows.pending,
    fun hnot target hwatched => ?_⟩
  -- without a notice of this write, none waited before and nothing watched has changed
  obtain ⟨hbefore, halike⟩ := Store.readsAlike_of_not_told hr h.quiet.2 hwrite hnot
  have hwatched' : c.store.Watches s.mailbox target := by
    obtain ⟨l, hl, hl'⟩ := hwatched
    exact ⟨l, hlisteners ▸ hl, hl'⟩
  exact (hshows.alike hbefore target hwatched').trans (halike target hwatched')

end Stream

namespace Session

/-! ### Runs -/

/-- The steps around one stream where nothing fails: others write, the stream works until it waits,
and its consumer looks for results. -/
inductive Calm (id : StreamId) (s : Session) : Journal → Session → Prop where
  | write {α : Type} (r : Request α) (hr : r.Writes) (h : (s.act r.run).1.isOk = true) :
      Calm id s [] (s.act r.run).2
  | run : Calm id s (s.runJournal id) (s.run id)
  | poll : Calm id s (s.pollJournal id) (s.poll id).2

theorem Calm.step {id : StreamId} {s s' : Session} {j : Journal} (h : Calm id s j s') :
    Step s j s' := by
  cases h with
  | write r hr h => exact .ask r hr.not_listens
  | run => exact .run id
  | poll => exact .poll id

variable {o : Operation} {id : StreamId} {s s' : Session} {j j' : Journal}

/-- The stream stands as it should. -/
def Follows (o : Operation) (id : StreamId) (j : Journal) (s : Session) : Prop :=
  ∃ stream, s.streams[id]? = some stream ∧ stream.Follows o (j.of id) s.client

theorem follows_spawn (hquiet : s.client.Quiet) (config : Executor.Config) (live : Bool)
    (buffer : Nat) :
    (s.spawn config o live buffer).2.Follows o (s.spawn config o live buffer).1 [] := by
  refine ⟨_, stream_spawn s config o live buffer, ?_, fun _ => ⟨rfl, rfl⟩, rfl, ?_⟩
  · rw [spawn, client_enqueue]
    exact hquiet
  · exact Nat.lt_of_lt_of_le Nat.zero_lt_one (Nat.le_max_right buffer 1)

/-- The stream that a request opens stands as it should. -/
theorem follows_of_request {link : Link} {next : Option NextLink}
    (hrequest : link.request o next s = (id, s')) (hquiet : s.client.Quiet) :
    s'.Follows o id [] := by
  rcases link.request_cases o next s with h | ⟨results, h⟩
  · have hfollows := follows_spawn (o := o) hquiet (link.resolving o next).executor o.subscribes
      (link.resolving o next).streamBuffer
    rw [hrequest, Link.resolve] at h
    rw [← h] at hfollows
    exact hfollows
  · obtain ⟨rfl, rfl⟩ := Prod.mk.inj (hrequest.symm.trans h)
    exact ⟨_, List.getElem?_concat_length, hquiet, fun hended => absurd rfl hended, trivial⟩

/-- A stream executes its operation as the link that resolves it does. -/
theorem config_of_request {link : Link} {next : Option NextLink}
    (hrequest : link.request o next s = (id, s')) :
    ∃ stream, s'.streams[id]? = some stream ∧
      (stream.phase ≠ .ended → stream.config = (link.resolving o next).executor) := by
  rcases link.request_cases o next s with h | ⟨results, h⟩
  · obtain ⟨rfl, rfl⟩ := Prod.mk.inj (hrequest.symm.trans h)
    exact ⟨_, stream_spawn s _ o _ _, fun _ => rfl⟩
  · obtain ⟨rfl, rfl⟩ := Prod.mk.inj (hrequest.symm.trans h)
    exact ⟨_, List.getElem?_concat_length, fun hended => absurd rfl hended⟩

theorem config_of_run {config : Executor.Config} {stream : Stream} (hrun : Run Step s j s')
    (hid : s.streams[id]? = some stream) (h : stream.phase ≠ .ended → stream.config = config) :
    ∃ stream', s'.streams[id]? = some stream' ∧
      (stream'.phase ≠ .ended → stream'.config = config) :=
  stream_induction (motive := fun _ stream => stream.phase ≠ .ended → stream.config = config)
    (fun hbefore hworks _ => hworks.config_eq.trans (hbefore hworks.not_ended))
    (fun hbefore _ => hbefore) (fun hbefore => hbefore) hrun hid h

theorem Follows.calm (ho : o.MutationFree) (h : s.Follows o id j) (hstep : Calm id s j' s') :
    s'.Follows o id (j ++ j') := by
  obtain ⟨stream, hid, hfollows⟩ := h
  have hlt := (List.getElem?_eq_some_iff.1 hid).1
  cases hstep with
  | @write α r hr hok =>
    rcases hwrite : r.run s.client.store with ⟨e | a, store⟩
    · have herror : (s.act r.run).1 = .error e := by rw [act, hwrite]
      rw [herror] at hok
      cases hok
    · refine ⟨stream, ?_, ?_⟩
      · rw [streams_act]
        exact hid
      · rw [client_act, hwrite, List.append_nil]
        exact hfollows.write hr hwrite
  | run =>
    obtain ⟨hclient, hstreams, hj⟩ := run_of_some hid
    refine ⟨(stream.advance s.client).1, ?_, ?_⟩
    · rw [hstreams, List.getElem?_set_self hlt]
    · rw [hclient, hj, Journal.of_append, Journal.of_on_self]
      exact hfollows.advance ho
  | poll =>
    cases hbuffer : stream.buffer with
    | nil =>
      obtain ⟨hclient, hstreams, hj⟩ := poll_of_nil hid hbuffer
      refine ⟨stream, by rw [hstreams, hid], ?_⟩
      rw [hclient, hj, List.append_nil]
      exact hfollows
    | cons result rest =>
      obtain ⟨hclient, hstreams, hj⟩ := poll_of_buffer hid hbuffer
      refine ⟨{ stream with buffer := rest }, ?_, ?_⟩
      · rw [hstreams, List.getElem?_set_self hlt]
      · rw [hclient, hj, Journal.of_append, Journal.of_on_self]
        exact hfollows.take hbuffer

theorem Follows.run (ho : o.MutationFree) (h : s.Follows o id []) (hrun : Run (Calm id) s j s') :
    s'.Follows o id j := by
  induction hrun with
  | refl => exact h
  | tail _ hstep ih => exact ih.calm ho hstep

end Session

/-- The targets that the latest pass of a stream fetched. -/
def Stream.fetched (s : Stream) (events : List Event) : List ListenTarget :=
  match (passes events).getLast? with
  | some c => (Executor.calls s.config s.operation c).filterMap Call.target?
  | none => []

/-- No update is lost. Let a request open the stream of an operation without mutations, and let
others write, the stream work and its consumer take results in any order while no call fails. When
the stream waits for a notice and none is there, and its latest pass fetched no other targets than
those it listens to, the last result that it gave is what the operation comes to now. -/
theorem last_result_of_listening {link : Link} {o : Operation} {next : Option NextLink}
    {s₀ s₁ s : Session} {id : StreamId} {j : Journal} (ho : o.MutationFree)
    (hquiet : s₀.client.Quiet) (hrequest : link.request o next s₀ = (id, s₁))
    (hrun : Session.Run (Session.Calm id) s₁ j s) {stream : Stream}
    (hid : s.streams[id]? = some stream) (hlistening : stream.isListening = true)
    (hnotices : s.client.store.notices stream.mailbox = [])
    (hfetched : ∀ target ∈ stream.fetched (j.of id),
      s.client.store.Watches stream.mailbox target) :
    ∃ data, (taken (j.of id) ++ stream.buffer).getLast? = some (.ok data) ∧
      (s.execute (link.resolving o next).executor o).1 = .ok data := by
  have hphase : stream.phase = .listening := by
    rw [Stream.isListening] at hlistening
    split at hlistening
    · assumption
    · cases hlistening
  have hended : stream.phase ≠ .ended := fun hended => by cases hphase.symm.trans hended
  -- it is the stream of the operation, executed as the link does
  obtain ⟨opened, hopened, hopenedConfig⟩ := Session.config_of_request hrequest
  obtain ⟨stream₁, hid₁, hstreamConfig⟩ :=
    Session.config_of_run (hrun.mono Session.Calm.step) hopened hopenedConfig
  obtain rfl : stream₁ = stream := Option.some.inj (hid₁.symm.trans hid)
  obtain ⟨stream₂, hid₂, hfollows⟩ := (Session.follows_of_request hrequest hquiet).run ho hrun
  obtain rfl : stream₂ = stream₁ := Option.some.inj (hid₂.symm.trans hid)
  have hconfig := hstreamConfig hended
  have hoperation := (hfollows.operation hended).1
  -- what it has shown is what it would read now
  have hcurrent := hfollows.current
  simp only [Stream.Current, hphase] at hcurrent
  obtain ⟨data, seen, hlast, hshows⟩ := hcurrent
  refine ⟨data, hlast, ?_⟩
  have hnot : ¬ s.client.store.Told stream₂.mailbox := by
    rintro ⟨target, hmem⟩
    rw [hnotices] at hmem
    cases hmem
  have hresponse : (Executor.execute (link.resolving o next).executor o seen).response =
      .ok data := by
    rw [← hconfig, ← hoperation]
    exact hshows.response
  rw [← hresponse]
  refine Executor.response_of_readsAlike ho hshows.quiet hfollows.quiet hshows.pending
    fun call hcall target htarget => hshows.alike hnot target (hfetched target ?_)
  rw [Stream.fetched, hshows.latest, hconfig, hoperation]
  exact List.mem_filterMap.2 ⟨call, hcall, htarget⟩

/-- A session in which a live operation was requested. -/
def requestedSession : Session :=
  (Link.request {} watchUser none (.ofClient (.ofStore .empty []))).2

/-- Its consumer took the first result. -/
def takenSession : Session := ((requestedSession.run 0).poll 0).2

/-- Someone writes the document. -/
def writeUser : Request Unit := .set (.ofText "users/u1") [("id", .string "u1")] .replace

/-- The stream was told of the write and passed once more. -/
def updatedSession : Session := (takenSession.act writeUser.run).2.run 0

theorem length_streams_updatedSession : updatedSession.streams.length = 1 := by
  decide +kernel

/-- The stream after that. -/
def updatedStream : Stream :=
  updatedSession.streams.get ⟨0, length_streams_updatedSession ▸ Nat.one_pos⟩

theorem last_result_of_listening_watchUser :
    ∃ j data, Session.Run (Session.Calm 0) requestedSession j updatedSession ∧
      (taken (j.of 0) ++ updatedStream.buffer).getLast? = some (.ok data) ∧
      (updatedSession.execute {} watchUser).1 = .ok data := by
  have hrun : Session.Run (Session.Calm 0) requestedSession _ updatedSession :=
    (((Session.Run.single .run).tail .poll).tail
      (.write writeUser trivial (by decide +kernel))).tail .run
  have hid : updatedSession.streams[0]? = some updatedStream :=
    List.getElem?_eq_getElem _
  obtain ⟨data, hlast, hresponse⟩ := last_result_of_listening (by decide +kernel)
    (show Client.Quiet (.ofStore .empty []) from ⟨rfl, rfl⟩)
    (show Link.request {} watchUser none (.ofClient (.ofStore .empty [])) = (0, requestedSession)
      from rfl)
    hrun hid (by decide +kernel) (by decide +kernel) (by decide +kernel)
  exact ⟨_, data, hrun, hlast, hresponse⟩

end LiveDocs
