import LiveDocs.Proofs.Session.Completion

/-!
# What a stream delivers

The results of a stream come from its passes: each pass gives its data, its error, or nothing if an
abort signal ended it, and the order of the results is the order of the passes. What is added to
that is one error of the store at most, and an error is the last result. Main statements:
`Tells.works`, where the results of a stream stand after a step; `given_of_notice`, what a notice
leads to; `delivers_of_run`, what the consumer of any stream can rely on, in any run.
-/

namespace LiveDocs

/-! ### Results -/

/-- Data come first, and an error only as the last of the results. -/
def Orderly (results : List Emission) : Prop :=
  ∃ data : List Json, results = data.map .ok ∨ ∃ e, results = data.map .ok ++ [.error e]

/-- The data among some results. -/
def dataOf (results : List Emission) : List Json := results.filterMap Except.toOption

/-- What a pass gives the consumer: its data, its error, or nothing if an abort signal ended it. -/
def passResults (config : Executor.Config) (o : Operation) (c : Client) : List Emission :=
  match (Executor.execute config o c).response with
  | .ok data => [.ok data]
  | .error e => if e.isBenign then [] else [.error e]

/-- What a notice leads to, once it is taken from the queue: the data of another pass, a final
error, or nothing if the notice is an abort signal or one ends the pass. -/
inductive LeadsTo (config : Executor.Config) (o : Operation) (c : Client) :
    Notice → List Emission → Prop where
  | data {target : ListenTarget} {data : Json}
      (hresponse : (Executor.execute config o c).response = .ok data) :
      LeadsTo config o c (.ok target) [.ok data]
  | passAborted {target : ListenTarget} {e : EngineError}
      (hresponse : (Executor.execute config o c).response = .error e)
      (hbenign : e.isBenign = true) : LeadsTo config o c (.ok target) []
  | passFailed {target : ListenTarget} {e : EngineError}
      (hresponse : (Executor.execute config o c).response = .error e)
      (hbenign : e.isBenign = false) : LeadsTo config o c (.ok target) [.error e]
  | aborted {e : StoreError} (habort : e.code.isAbort = true) : LeadsTo config o c (.error e) []
  | failed {e : StoreError} (habort : e.code.isAbort = false) :
      LeadsTo config o c (.error e) [.error (.store e)]

theorem orderly_data (data : List Json) : Orderly (data.map .ok) := ⟨data, .inl rfl⟩

theorem orderly_concat (data : List Json) (e : EngineError) :
    Orderly (data.map .ok ++ [.error e]) := ⟨data, .inr ⟨e, rfl⟩⟩

theorem Orderly.of_prefix {results front : List Emission} (h : Orderly results)
    (hfront : front <+: results) : Orderly front := by
  obtain ⟨data, rfl | ⟨e, rfl⟩⟩ := h
  · obtain ⟨first, -, rfl⟩ := List.prefix_map_iff.1 hfront
    exact orderly_data first
  · rcases List.prefix_concat_iff.1 hfront with rfl | hdata
    · exact orderly_concat data e
    · obtain ⟨first, -, rfl⟩ := List.prefix_map_iff.1 hdata
      exact orderly_data first

/-- The data that passes give are those of the complete ones. -/
theorem dataOf_passResults (config : Executor.Config) (o : Operation) (clients : List Client) :
    dataOf (clients.flatMap (passResults config o)) =
      clients.filterMap fun c => (Executor.execute config o c).response.toOption := by
  rw [dataOf, List.filterMap_flatMap, List.filterMap_eq_flatMap_toList]
  refine List.flatMap_congr fun c _ => ?_
  rw [passResults]
  cases (Executor.execute config o c).response with
  | ok data => rfl
  | error e => cases hbenign : e.isBenign <;> simp [Except.toOption]

namespace Stream

theorem passes_releases (s : Stream) : passes s.releases = [] := by
  simp [passes, releases]

/-! ### The results of a stream -/

/-- Where the results of a stream stand by its phase, given those that its passes gave. Until it
stops they are the same, and all of them are data. -/
def Tells (told results : List Emission) : Phase → Prop
  | .fresh => told = [] ∧ results = []
  | .sending _ (.attach _) | .sending _ .listen | .listening =>
    results = told ∧ ∃ data : List Json, results = data.map .ok
  | .sending _ .stop | .ended =>
    Orderly results ∧ ∃ rest, results = told ++ rest ∧
      (rest = [] ∨ ∃ e, rest = [.error (.store e)])

theorem Tells.orderly {told results : List Emission} {phase : Phase}
    (h : Tells told results phase) : Orderly results := by
  cases phase with
  | fresh =>
    obtain ⟨-, rfl⟩ := h
    exact orderly_data []
  | listening =>
    obtain ⟨-, data, rfl⟩ := h
    exact orderly_data data
  | ended => exact h.1
  | sending result next =>
    cases next with
    | attach | listen =>
      obtain ⟨-, data, rfl⟩ := h
      exact orderly_data data
    | stop => exact h.1

theorem Tells.exists_rest {told results : List Emission} {phase : Phase}
    (h : Tells told results phase) :
    ∃ rest, results = told ++ rest ∧ (rest = [] ∨ ∃ e, rest = [.error (.store e)]) := by
  cases phase with
  | fresh =>
    obtain ⟨rfl, rfl⟩ := h
    exact ⟨[], rfl, .inl rfl⟩
  | listening => exact ⟨[], by rw [h.1, List.append_nil], .inl rfl⟩
  | ended => exact h.2
  | sending result next =>
    cases next with
    | attach | listen => exact ⟨[], by rw [h.1, List.append_nil], .inl rfl⟩
    | stop => exact h.2

/-- An error of the store adds no data to those of the passes. -/
theorem Tells.dataOf_eq {told results : List Emission} {phase : Phase}
    (h : Tells told results phase) : dataOf results = dataOf told := by
  obtain ⟨rest, rfl, rfl | ⟨e, rfl⟩⟩ := h.exists_rest
  · rw [List.append_nil]
  · rw [dataOf, List.filterMap_append]
    exact List.append_nil _

variable {config : Executor.Config} {o : Operation} {front events : List Event} {s : Stream}
  {c : Client} {r : Stream × Client}

/-- What the passes among some events gave. -/
def told (config : Executor.Config) (o : Operation) (events : List Event) : List Emission :=
  (passes events).flatMap (passResults config o)

theorem told_append (config : Executor.Config) (o : Operation) (front events : List Event) :
    told config o (front ++ events) = told config o front ++ told config o events := by
  rw [told, passes_append, List.flatMap_append]
  rfl

theorem told_nil : told config o [] = [] := rfl

theorem told_of_passes_nil (h : passes events = []) : told config o events = [] := by
  rw [told, h]
  rfl

theorem told_pass (s : Stream) (h : passes events = []) :
    told s.config s.operation (.pass c :: events) = passResults s.config s.operation c := by
  have hpasses : passes (.pass c :: events) = [c] := congrArg (c :: ·) h
  rw [told, hpasses, List.flatMap_singleton]

theorem passResults_of_ok {data : Json} (h : s.response c = .ok data) :
    passResults s.config s.operation c = [.ok data] := by
  rw [response] at h
  rw [passResults, h]

theorem passResults_of_error {e : EngineError} (h : s.response c = .error e) :
    passResults s.config s.operation c = if e.isBenign then [] else [.error e] := by
  rw [response] at h
  rw [passResults, h]

/-- The results of a stream go on to stand as they should; those that there are stay. -/
theorem Tells.works (h : Tells (told s.config s.operation front) (s.given front) s.phase)
    (hworks : Works s c events r) (hcancelled : s.cancelled = false) :
    ∃ more, r.1.given (front ++ events) = s.given front ++ more ∧
      Tells (told s.config s.operation (front ++ events)) (s.given front ++ more) r.1.phase := by
  rw [told_append]
  cases hworks with
  | stop _ htrue => exact absurd (htrue.symm.trans hcancelled) (by decide)
  | @first data hphase _ hresponse =>
    rw [hphase] at h
    obtain ⟨htold, hgiven⟩ := h
    refine ⟨[.ok data], given_send_of_fresh hphase _ _ _, ?_⟩
    rw [told_pass s rfl, passResults_of_ok hresponse, htold, hgiven]
    cases hlive : s.live with
    | true => exact ⟨rfl, [data], rfl⟩
    | false => exact ⟨orderly_data [data], [], rfl, .inl rfl⟩
  | @firstAborted e hphase _ hresponse hbenign =>
    rw [hphase] at h
    obtain ⟨htold, hgiven⟩ := h
    refine ⟨[], by rw [given_finish_of_fresh hphase, List.append_nil], ?_⟩
    rw [told_pass s s.passes_releases, passResults_of_error hresponse, if_pos hbenign, htold,
      hgiven]
    exact ⟨orderly_data [], [], rfl, .inl rfl⟩
  | @firstFailed e hphase _ hresponse hbenign =>
    rw [hphase] at h
    obtain ⟨htold, hgiven⟩ := h
    refine ⟨[.error e], given_send_of_fresh hphase _ _ _, ?_⟩
    rw [told_pass s rfl, passResults_of_error hresponse, hbenign, htold, hgiven]
    exact ⟨orderly_concat [] e, [], rfl, .inl rfl⟩
  | @attach result targets hphase _ hroom =>
    rw [hphase] at h
    obtain ⟨hgiven, data, hdata⟩ := h
    obtain ⟨htaken, hpasses⟩ := taken_passes_answers s.mailbox targets c
    rw [told_of_passes_nil hpasses, List.append_nil]
    obtain ⟨phase, ids, hattach, ⟨rfl, -⟩ | ⟨e, rfl⟩⟩ := exists_attach (s.sent result) targets c
    · refine ⟨[], given_append htaken (unsent_of_sending hphase) ?_, ?_⟩
      · rw [hattach]
        exact List.append_assoc _ _ _
      · rw [hattach, List.append_nil]
        exact ⟨hgiven, data, hdata⟩
    · refine ⟨[.error (.store e)], given_append htaken (unsent_of_sending hphase) ?_, ?_⟩
      · rw [hattach]
        exact List.append_assoc _ _ _
      · -- the refusal is no result of a pass
        rw [hattach, ← hgiven, hdata]
        exact ⟨orderly_concat data _, _, rfl, .inr ⟨e, rfl⟩⟩
  | @listen result hphase _ hroom =>
    rw [hphase] at h
    refine ⟨[], given_append rfl (unsent_of_sending hphase) (List.append_assoc _ _ _), ?_⟩
    rw [told_nil, List.append_nil, List.append_nil]
    exact h
  | @close result hphase _ hroom =>
    rw [hphase] at h
    refine ⟨[], by rw [given_finish_of_sending hphase, List.append_nil], ?_⟩
    rw [told_of_passes_nil s.passes_releases, List.append_nil, List.append_nil]
    exact h
  | @rerun _ store data' hphase _ hnotice hresponse =>
    rw [hphase] at h
    obtain ⟨hgiven, data, hdata⟩ := h
    refine ⟨[.ok data'], given_append rfl (unsent_of_listening hphase) rfl, ?_⟩
    rw [told_pass s rfl, passResults_of_ok hresponse, hgiven]
    refine ⟨rfl, data ++ [data'], ?_⟩
    rw [← hgiven, hdata, List.map_append]
    rfl
  | @rerunAborted _ store e hphase _ hnotice hresponse hbenign =>
    refine ⟨[], given_append rfl rfl (congrArg _ (List.append_nil _).symm), ?_⟩
    rw [told_pass s rfl, passResults_of_error hresponse, if_pos hbenign, List.append_nil,
      List.append_nil]
    exact h
  | @rerunFailed _ store e hphase _ hnotice hresponse hbenign =>
    rw [hphase] at h
    obtain ⟨hgiven, data, hdata⟩ := h
    refine ⟨[.error e], given_append rfl (unsent_of_listening hphase) rfl, ?_⟩
    rw [told_pass s rfl, passResults_of_error hresponse, hbenign, ← hgiven, hdata]
    exact ⟨orderly_concat data e, [], (List.append_nil _).symm, .inl rfl⟩
  | abortNotice hphase =>
    refine ⟨[], given_append rfl rfl (congrArg _ (List.append_nil _).symm), ?_⟩
    rw [told_nil, List.append_nil, List.append_nil]
    exact h
  | @errorNotice e store hphase _ hnotice habort =>
    rw [hphase] at h
    obtain ⟨hgiven, data, hdata⟩ := h
    refine ⟨[.error (.store e)], given_append rfl (unsent_of_listening hphase) rfl, ?_⟩
    rw [told_nil, List.append_nil, ← hgiven, hdata]
    exact ⟨orderly_concat data _, _, rfl, .inr ⟨e, rfl⟩⟩
  | idle hphase =>
    rw [hphase] at h
    obtain ⟨hgiven, data, hdata⟩ := h
    refine ⟨[], given_append s.taken_releases (unsent_of_listening hphase) rfl, ?_⟩
    rw [told_of_passes_nil s.passes_releases, List.append_nil, List.append_nil, ← hgiven, hdata]
    exact ⟨orderly_data data, [], (List.append_nil _).symm, .inl rfl⟩

/-- What the consumer took is in order, and its data are those of the first complete passes. -/
structure Delivered (config : Executor.Config) (o : Operation) (front : List Event) : Prop where
  orderly : Orderly (taken front)
  complete : dataOf (taken front) <+: dataOf (told config o front)

/-- The consumer has taken the first of the results. -/
theorem Tells.delivered {phase : Phase} (h : Tells (told config o front) (s.given front) phase) :
    Delivered config o front := by
  have hfirst : taken front <+: s.given front := List.prefix_append _ _
  refine ⟨h.orderly.of_prefix hfirst, ?_⟩
  rw [← h.dataOf_eq]
  exact hfirst.filterMap _

/-- What is known of a stream of an operation. One that was given up holds no results. -/
structure Tracked (config : Executor.Config) (o : Operation) (front : List Event) (s : Stream) :
    Prop where
  delivered : Delivered config o front
  tells : s.cancelled = false → Tells (told config o front) (s.given front) s.phase
  buffer : s.cancelled = true → s.buffer = []
  config : s.config = config
  operation : s.operation = o

theorem Tracked.works (h : Tracked config o front s) (hworks : Works s c events r) :
    Tracked config o (front ++ events) r.1 ∧
      (s.cancelled = false → s.given front <+: r.1.given (front ++ events)) := by
  obtain ⟨hdelivered, htells, hbuffer, rfl, rfl⟩ := h
  cases hcancelled : s.cancelled with
  | true =>
    obtain ⟨rfl, rfl⟩ := hworks.of_cancelled hcancelled
    have htaken : taken (front ++ s.releases) = taken front := by
      rw [taken_append, s.taken_releases, List.append_nil]
    have htold : told s.config s.operation (front ++ s.releases) =
        told s.config s.operation front := by
      rw [told_append, told_of_passes_nil s.passes_releases, List.append_nil]
    have hsame : Delivered s.config s.operation (front ++ s.releases) :=
      ⟨htaken ▸ hdelivered.orderly, htaken ▸ htold ▸ hdelivered.complete⟩
    constructor
    · refine ⟨hsame, fun hopen => ?_, fun _ => hbuffer hcancelled, rfl, rfl⟩
      cases hcancelled.symm.trans hopen
    · intro hopen
      cases hopen
  | false =>
    obtain ⟨more, hgiven, hstands⟩ := (htells hcancelled).works hworks hcancelled
    rw [← hgiven] at hstands
    have hoperation : r.1.operation = s.operation := by
      obtain ⟨phase, buffer, listeners, hr⟩ := hworks.exists_eq
      rw [hr]
    have hopen : r.1.cancelled = false := hworks.cancelled_eq.trans hcancelled
    constructor
    · refine ⟨hstands.delivered, fun _ => hstands, fun htrue => ?_, hworks.config_eq, hoperation⟩
      cases hopen.symm.trans htrue
    · intro _
      rw [hgiven]
      exact List.prefix_append _ _

theorem Tracked.take {result : Emission} {rest : List Emission} (h : Tracked config o front s)
    (hbuffer : s.buffer = result :: rest) :
    Tracked config o (front ++ [.taken result]) { s with buffer := rest } := by
  have hopen : s.cancelled = false := by
    rw [Bool.eq_false_iff]
    intro htrue
    rw [h.buffer htrue] at hbuffer
    cases hbuffer
  have hnone : told config o [.taken result] = [] := told_of_passes_nil rfl
  have htold : told config o (front ++ [.taken result]) = told config o front := by
    rw [told_append, hnone, List.append_nil]
  have htells : Tells (told config o (front ++ [.taken result]))
      (({ s with buffer := rest } : Stream).given (front ++ [.taken result])) s.phase := by
    rw [htold, given_take hbuffer]
    exact h.tells hopen
  refine ⟨htells.delivered, fun _ => htells, fun htrue => ?_, h.config, h.operation⟩
  cases hopen.symm.trans htrue

theorem Tracked.cancel (h : Tracked config o front s) : Tracked config o front s.cancel :=
  ⟨h.delivered, (fun hopen => by cases hopen), fun _ => rfl, h.config, h.operation⟩

/-! ### Notices -/

/-- A listening stream takes the first notice from its queue, and nothing but what the notice leads
to is added to its results. -/
theorem given_of_notice {notice : Notice} {store : Store} (front : List Event)
    (hphase : s.phase = .listening) (hcancelled : s.cancelled = false)
    (hnotice : c.store.receive? s.mailbox = some (notice, store)) :
    ∃ r more, s.step c = some r ∧ r.1.given (front ++ s.events c) = s.given front ++ more ∧
      LeadsTo s.config s.operation { c with store } notice more := by
  have hstep : s.step c = some (s.take notice { c with store }) := by
    rw [step, hphase]
    simp [hcancelled, hnotice]
  cases notice with
  | ok target =>
    have hevents : s.events c = [.pass { c with store }] := by
      rw [events, hphase]
      simp [hcancelled, hnotice]
    rw [hevents]
    cases hresponse : (Executor.execute s.config s.operation { c with store }).response with
    | ok data =>
      refine ⟨_, [.ok data], hstep, ?_, .data hresponse⟩
      rw [Stream.take, nextPass, hresponse]
      exact given_append rfl (unsent_of_listening hphase) rfl
    | error e =>
      cases hbenign : e.isBenign with
      | true =>
        refine ⟨_, [], hstep, ?_, .passAborted hresponse hbenign⟩
        simp only [Stream.take, nextPass, hresponse, hbenign, if_true]
        exact given_append rfl rfl (congrArg _ (List.append_nil _).symm)
      | false =>
        refine ⟨_, [.error e], hstep, ?_, .passFailed hresponse hbenign⟩
        simp only [Stream.take, nextPass, hresponse, hbenign, Bool.false_eq_true, if_false]
        exact given_append rfl (unsent_of_listening hphase) rfl
  | error e =>
    have hevents : s.events c = [] := by
      rw [events, hphase]
      simp [hcancelled, hnotice]
    rw [hevents]
    cases habort : e.code.isAbort with
    | true =>
      refine ⟨_, [], hstep, ?_, .aborted habort⟩
      simp only [Stream.take, habort, if_true]
      exact given_append rfl rfl (congrArg _ (List.append_nil _).symm)
    | false =>
      refine ⟨_, [.error (.store e)], hstep, ?_, .failed habort⟩
      simp only [Stream.take, habort, Bool.false_eq_true, if_false]
      exact given_append rfl (unsent_of_listening hphase) rfl

/-! ### Plain operations -/

/-- The results of a plain operation by the phase of its stream. It never listens. -/
def Few (results : List Emission) : Phase → Prop
  | .fresh => results = []
  | .sending _ .stop | .ended => results.length ≤ 1
  | .sending _ (.attach _) | .sending _ .listen | .listening => False

theorem Few.length_le {results : List Emission} {phase : Phase} (h : Few results phase) :
    results.length ≤ 1 := by
  cases phase with
  | fresh =>
    obtain rfl : results = [] := h
    exact Nat.zero_le 1
  | ended => exact h
  | listening => exact h.elim
  | sending result next =>
    cases next with
    | stop => exact h
    | attach | listen => exact h.elim

theorem Few.of_sublist {results fewer : List Emission} {phase : Phase} (h : Few results phase)
    (hsub : fewer.Sublist results) : Few fewer phase := by
  have hlength : fewer.length ≤ 1 := Nat.le_trans hsub.length_le h.length_le
  cases phase with
  | fresh =>
    obtain rfl : results = [] := h
    exact List.sublist_nil.1 hsub
  | ended => exact hlength
  | listening => exact h.elim
  | sending result next =>
    cases next with
    | stop => exact hlength
    | attach | listen => exact h.elim

/-- A stream of a plain operation gives one result at most, and attaches no listener. -/
structure Plain (front : List Event) (s : Stream) : Prop where
  live : s.live = false
  attached : ∀ id, .attached id ∉ front
  results : Few (s.given front) s.phase

theorem Plain.works (h : Plain front s) (hworks : Works s c events r) :
    Plain (front ++ events) r.1 := by
  obtain ⟨hlive, hattached, hresults⟩ := h
  have hreleases : ∀ id, .attached id ∉ front ++ s.releases := by
    simpa [releases] using hattached
  have hpass : ∀ id, .attached id ∉ front ++ [.pass c] := by
    simpa using hattached
  cases hworks with
  | stop =>
    refine ⟨hlive, hreleases, ?_⟩
    have hfirst : taken front ++ s.buffer <+: s.given front := by
      rw [given, ← List.append_assoc]
      exact List.prefix_append _ _
    change ((s.finish c).1.given (front ++ s.releases)).length ≤ 1
    rw [given, taken_append, s.taken_releases, List.append_nil, buffer_finish, unsent_finish,
      List.append_nil]
    exact Nat.le_trans hfirst.length_le hresults.length_le
  | first hphase =>
    rw [hphase] at hresults
    have hgiven : s.given front = [] := hresults
    rw [hlive, if_neg Bool.false_ne_true]
    refine ⟨hlive, hpass, ?_⟩
    rw [given_send_of_fresh hphase, hgiven]
    exact Nat.le_refl 1
  | firstAborted hphase =>
    rw [hphase] at hresults
    have hgiven : s.given front = [] := hresults
    refine ⟨hlive, by simpa [releases] using hattached, ?_⟩
    rw [given_finish_of_fresh hphase, hgiven]
    exact Nat.zero_le 1
  | firstFailed hphase =>
    rw [hphase] at hresults
    have hgiven : s.given front = [] := hresults
    refine ⟨hlive, hpass, ?_⟩
    rw [given_send_of_fresh hphase, hgiven]
    exact Nat.le_refl 1
  | close hphase =>
    refine ⟨hlive, hreleases, ?_⟩
    rw [given_finish_of_sending hphase]
    exact hresults.length_le
  | _ hphase =>
    rw [hphase] at hresults
    exact hresults.elim

theorem Plain.take {result : Emission} {rest : List Emission} (h : Plain front s)
    (hbuffer : s.buffer = result :: rest) :
    Plain (front ++ [.taken result]) { s with buffer := rest } := by
  refine ⟨h.live, by simpa using h.attached, ?_⟩
  rw [given_take hbuffer]
  exact h.results

theorem Plain.cancel (h : Plain front s) : Plain front s.cancel := by
  have hsub : (s.cancel.given front).Sublist (s.given front) :=
    (List.Sublist.refl _).append (List.sublist_append_right s.buffer s.unsent)
  exact ⟨h.live, h.attached, h.results.of_sublist hsub⟩

/-! ### Streams that were given up -/

/-- A stream that was given up does nothing any more but release its listeners. -/
structure Silent (front : List Event) (s : Stream) : Prop where
  passes : passes front = []
  taken : taken front = []
  cancelled : s.cancelled = true
  buffer : s.buffer = []

theorem Silent.works (h : Silent front s) (hworks : Works s c events r) :
    Silent (front ++ events) r.1 := by
  obtain ⟨rfl, rfl⟩ := hworks.of_cancelled h.cancelled
  refine ⟨?_, ?_, h.cancelled, h.buffer⟩
  · rw [passes_append, h.passes, s.passes_releases, List.append_nil]
  · rw [taken_append, h.taken, s.taken_releases, List.append_nil]

end Stream

/-! ### Streams of operations -/

/-- What the consumer of an operation can rely on, whatever has happened so far. The results that it
took are in order, a plain operation gives one of them at most and listens to nothing, and their
data are those of the first complete passes. As long as the stream is not given up, its results are
what its passes gave, with one error of the store at most behind it; none of them is lost later on;
and each notice that is taken from the queue leads to what a notice may lead to. Once it is given
up, no pass is made and nothing is delivered. -/
structure Session.Delivers (s : Session) (config : Executor.Config) (o : Operation) (live : Bool)
    (id : StreamId) (j : Journal) (stream : Stream) : Prop where
  orderly : Orderly (taken (j.of id))
  plain : live = false → (taken (j.of id)).length ≤ 1 ∧ ∀ n, .attached n ∉ j.of id
  complete : dataOf (taken (j.of id)) <+:
    (passes (j.of id)).filterMap fun c => (Executor.execute config o c).response.toOption
  given : stream.cancelled = false → Orderly (stream.given (j.of id)) ∧
    ∃ rest, stream.given (j.of id) = (passes (j.of id)).flatMap (passResults config o) ++ rest ∧
      (rest = [] ∨ ∃ e, rest = [.error (.store e)])
  kept : ∀ {j' s' later}, Session.Run Session.Step s j' s' → s'.streams[id]? = some later →
    later.cancelled = false → stream.given (j.of id) <+: later.given ((j ++ j').of id)
  notice : ∀ {notice store}, stream.phase = .listening → stream.cancelled = false →
    s.client.store.receive? stream.mailbox = some (notice, store) →
    ∃ after more, (s.work id).streams[id]? = some after ∧
      after.given ((j ++ s.workJournal id).of id) = stream.given (j.of id) ++ more ∧
      LeadsTo config o { s.client with store } notice more
  cancelled : ∀ {j' s'}, Session.Run Session.Step (s.drop id) j' s' →
    passes (j'.of id) = [] ∧ taken (j'.of id) = []

namespace Session

variable {s s' : Session} {id : StreamId} {j : Journal} {stream : Stream}
  {config : Executor.Config} {o : Operation}

/-- Results that were given stay, unless the stream is given up. -/
theorem given_of_run {j' : Journal} {later : Stream} (h : stream.Tracked config o (j.of id))
    (hid : s.streams[id]? = some stream) (hrun : Run Step s j' s')
    (hlater : s'.streams[id]? = some later) (hopen : later.cancelled = false) :
    stream.given (j.of id) <+: later.given ((j ++ j').of id) := by
  have hstart : stream.Tracked config o (j.of id ++ []) ∧ (stream.cancelled = false →
      stream.given (j.of id) <+: stream.given (j.of id ++ [])) := by
    rw [List.append_nil]
    exact ⟨h, fun _ => List.prefix_rfl⟩
  obtain ⟨later', hlater', -, hkept⟩ := stream_induction
    (motive := fun events st => st.Tracked config o (j.of id ++ events) ∧
      (st.cancelled = false → stream.given (j.of id) <+: st.given (j.of id ++ events)))
    (fun ⟨htracked, hkept⟩ hworks => by
      obtain ⟨htracked', hgrows⟩ := htracked.works hworks
      rw [List.append_assoc] at htracked' hgrows
      refine ⟨htracked', fun hopen => ?_⟩
      rw [hworks.cancelled_eq] at hopen
      exact (hkept hopen).trans (hgrows hopen))
    (fun ⟨htracked, hkept⟩ hbuffer => by
      rw [← List.append_assoc, Stream.given_take hbuffer]
      exact ⟨htracked.take hbuffer, hkept⟩)
    (fun ⟨htracked, _⟩ => ⟨htracked.cancel, (fun hopen => by cases hopen)⟩) hrun hid hstart
  obtain rfl : later' = later := Option.some.inj (hlater'.symm.trans hlater)
  rw [Journal.of_append]
  exact hkept hopen

/-- The next notice of a listening stream leads to what it may lead to. -/
theorem work_of_notice {notice : Notice} {store : Store} (h : stream.Tracked config o (j.of id))
    (hid : s.streams[id]? = some stream) (hphase : stream.phase = .listening)
    (hcancelled : stream.cancelled = false)
    (hnotice : s.client.store.receive? stream.mailbox = some (notice, store)) :
    ∃ after more, (s.work id).streams[id]? = some after ∧
      after.given ((j ++ s.workJournal id).of id) = stream.given (j.of id) ++ more ∧
      LeadsTo config o { s.client with store } notice more := by
  obtain ⟨r, more, hstep, hgiven, hleads⟩ :=
    Stream.given_of_notice (j.of id) hphase hcancelled hnotice
  rw [h.config, h.operation] at hleads
  obtain ⟨-, hstreams, hjournal⟩ := work_of_step hid hstep
  have hlt := (List.getElem?_eq_some_iff.1 hid).1
  refine ⟨r.1, more, ?_, ?_, hleads⟩
  · rw [hstreams, List.getElem?_set_self hlt]
  · rw [hjournal, Journal.of_append, Journal.of_on_self]
    exact hgiven

/-- A stream that was given up makes no pass and delivers nothing. -/
theorem silent_of_drop {j' : Journal} (hid : s.streams[id]? = some stream)
    (hrun : Run Step (s.drop id) j' s') : passes (j'.of id) = [] ∧ taken (j'.of id) = [] := by
  have hlt := (List.getElem?_eq_some_iff.1 hid).1
  have hdropped : (s.drop id).streams[id]? = some stream.cancel := by
    rw [(drop_of_some hid).2, List.getElem?_set_self hlt]
  obtain ⟨later, -, hsilent⟩ := stream_induction (motive := Stream.Silent)
    (fun h hworks => h.works hworks)
    (fun h hbuffer => by
      rw [h.buffer] at hbuffer
      cases hbuffer)
    (fun h => ⟨h.passes, h.taken, rfl, rfl⟩) hrun hdropped ⟨rfl, rfl, rfl, rfl⟩
  exact ⟨hsilent.passes, hsilent.taken⟩

end Session

/-- The results of a stream, in any run. -/
theorem delivers_of_run {s₀ s₁ s : Session} {config : Executor.Config} {o : Operation}
    {live : Bool} {buffer : Nat} {id : StreamId} {j : Journal}
    (hspawn : s₀.spawn config o live buffer = (id, s₁))
    (hrun : Session.Run Session.Step s₁ j s) :
    ∃ stream, s.streams[id]? = some stream ∧ s.Delivers config o live id j stream := by
  obtain ⟨rfl, rfl⟩ := Prod.mk.inj hspawn
  have hstart : Stream.Tracked config o [] (Stream.start config o live buffer s₀.mailboxes) :=
    ⟨⟨orderly_data [], List.nil_prefix⟩, fun _ => ⟨rfl, rfl⟩, fun _ => rfl, rfl, rfl⟩
  obtain ⟨stream, hid, htracked⟩ := Session.stream_induction
    (motive := Stream.Tracked config o) (fun h hworks => (h.works hworks).1)
    (fun h hbuffer => h.take hbuffer) (fun h => h.cancel) hrun
    (Session.stream_spawn s₀ config o live buffer) hstart
  refine ⟨stream, hid, ?_⟩
  refine
    { orderly := htracked.delivered.orderly
      plain := fun hplain => ?_
      complete := ?_
      given := fun hopen => ⟨(htracked.tells hopen).orderly, (htracked.tells hopen).exists_rest⟩
      kept := fun hrun' hlater hopen => Session.given_of_run htracked hid hrun' hlater hopen
      notice := fun hphase hopen hnotice =>
        Session.work_of_notice htracked hid hphase hopen hnotice
      cancelled := fun hrun' => Session.silent_of_drop hid hrun' }
  · subst hplain
    obtain ⟨stream', hid', hfew⟩ := Session.stream_induction (motive := Stream.Plain)
      (fun h hworks => h.works hworks) (fun h hbuffer => h.take hbuffer) (fun h => h.cancel) hrun
      (Session.stream_spawn s₀ config o false buffer)
      ⟨rfl, fun _ => List.not_mem_nil, rfl⟩
    have htaken := List.prefix_append (taken (j.of (s₀.spawn config o false buffer).1))
      (stream'.buffer ++ stream'.unsent)
    exact ⟨Nat.le_trans htaken.length_le hfew.results.length_le, hfew.attached⟩
  · rw [← dataOf_passResults]
    exact htracked.delivered.complete

/-- A session in which a stream was opened for a live operation. -/
def spawnedSession : Session :=
  ((Session.ofClient (.ofStore .empty [])).spawn {} watchUser true 4).2

/-- After the first pass the listeners of the store fail, and the stream takes their notice. -/
def offlineSession : Session :=
  ((spawnedSession.run 0).act fun store =>
    ((), store.failListeners ⟨.unavailable, "offline", none⟩)).2.run 0

/-- The consumer takes the data of the pass and then the error. -/
theorem delivers_of_run_watchUser :
    ∃ j stream, Session.Run Session.Step spawnedSession j ((offlineSession.poll 0).2.poll 0).2 ∧
      (taken (j.of 0)).map Except.isOk = [true, false] ∧
      ((offlineSession.poll 0).2.poll 0).2.Delivers {} watchUser true 0 j stream := by
  have hrun : Session.Run Session.Step spawnedSession _ ((offlineSession.poll 0).2.poll 0).2 :=
    ((((Session.Run.single (.run 0)).tail (.failListeners _)).tail (.run 0)).tail (.poll 0)).tail
      (.poll 0)
  obtain ⟨stream, -, hdelivers⟩ := delivers_of_run
    (show (Session.ofClient (.ofStore .empty [])).spawn {} watchUser true 4 = (0, spawnedSession)
      from rfl) hrun
  exact ⟨_, stream, hrun, by decide +kernel, hdelivers⟩

end LiveDocs
