import LiveDocs.Proofs.Pass.Exports
import LiveDocs.Proofs.Session.Queue
import Mathlib.Algebra.Order.Ring.Nat

/-!
# Sessions come to rest

Live streams may write to what they listen to, so that each pass of one sends notices to all of
them. Their work ends nevertheless when no consumer takes results: every step uses up a place in
some buffer, or some of the trouble ahead (`Stream.Works.spends`). A schedule says which stream
takes the next step, in any order; letting the queued streams run until all of them wait is one of
these. Main statements: `Schedule.length_le`, a bound on the steps of every schedule;
`Attentive.atRest_settle`, the bound on the runs is enough; `comes_to_rest`.
-/

namespace LiveDocs

namespace Session

variable {s s' t : Session} {id : StreamId} {ids ids' : List StreamId} {stream : Stream}

/-! ### Schedules -/

/-- All streams rest. -/
def AtRest (s : Session) : Prop := ∀ stream ∈ s.streams, stream.Rests s.client

/-- The streams with these numbers take a step of their work, one after the other, and nothing else
happens. -/
inductive Schedule : List StreamId → Session → Session → Prop where
  | nil {s : Session} : Schedule [] s s
  | cons {s s' : Session} {id : StreamId} {ids : List StreamId} {stream : Stream}
      {r : Stream × Client} (hid : s.streams[id]? = some stream)
      (hstep : stream.step s.client = some r) (hrest : Schedule ids (s.work id) s') :
      Schedule (id :: ids) s s'

theorem Schedule.append (h : Schedule ids s s') (h' : Schedule ids' s' t) :
    Schedule (ids ++ ids') s t := by
  induction h with
  | nil => exact h'
  | cons hid hstep _ ih => exact .cons hid hstep (ih h')

/-- The work depends on the client and the streams only. -/
theorem Schedule.exists_of_same (h : Schedule ids s s') (hclient : t.client = s.client)
    (hstreams : t.streams = s.streams) :
    ∃ t', Schedule ids t t' ∧ t'.client = s'.client ∧ t'.streams = s'.streams := by
  induction h generalizing t with
  | nil => exact ⟨t, .nil, hclient, hstreams⟩
  | @cons s s' id ids stream r hid hstep _ ih =>
    have hid' : t.streams[id]? = some stream := hstreams ▸ hid
    have hstep' : stream.step t.client = some r := hclient ▸ hstep
    obtain ⟨hclientWork, hstreamsWork, -⟩ := work_of_step hid hstep
    obtain ⟨hclientWork', hstreamsWork', -⟩ := work_of_step hid' hstep'
    obtain ⟨t', hschedule, hsame⟩ := ih (hclientWork'.trans hclientWork.symm)
      (by rw [hstreamsWork', hstreamsWork, hstreams])
    exact ⟨t', .cons hid' hstep' hschedule, hsame⟩

theorem exists_step_of_not_atRest (h : ¬ s.AtRest) :
    ∃ (id : StreamId) (stream : Stream) (r : Stream × Client),
      s.streams[id]? = some stream ∧ stream.step s.client = some r := by
  rw [AtRest] at h
  push Not at h
  obtain ⟨stream, hmem, hnot⟩ := h
  obtain ⟨id, hid⟩ := List.mem_iff_getElem?.1 hmem
  rw [Stream.rests_iff] at hnot
  obtain ⟨r, hstep⟩ := Option.ne_none_iff_exists'.1 hnot
  exact ⟨id, stream, r, hid, hstep⟩

/-! ### The bound on the steps -/

/-- What is counted of the streams changes with the one that is replaced. -/
theorem sum_map_set {streams : List Stream} (f : Stream → Nat) (hid : streams[id]? = some stream)
    (stream' : Stream) :
    ((streams.set id stream').map f).sum + f stream = (streams.map f).sum + f stream' := by
  induction streams generalizing id with
  | nil => cases hid
  | cons head rest ih =>
    cases id with
    | zero =>
      obtain rfl : head = stream := Option.some.inj hid
      simp only [List.set_cons_zero, List.map_cons, List.sum_cons]
      omega
    | succ id =>
      have hrest := ih hid
      simp only [List.set_cons_succ, List.map_cons, List.sum_cons]
      omega

/-- A bound on the steps that the streams of a session can take. -/
def effort (s : Session) : Nat := (s.streams.map Stream.effort).sum + 2 * s.client.trouble

/-- Every step of a stream lowers the bound. -/
theorem effort_work_lt {r : Stream × Client} (hid : s.streams[id]? = some stream)
    (hstep : stream.step s.client = some r) : (s.work id).effort < s.effort := by
  obtain ⟨hclient, hstreams, -⟩ := work_of_step hid hstep
  have hlt := Stream.effort_lt hstep
  have hsum := sum_map_set Stream.effort hid r.1
  rw [effort, hclient, hstreams, effort]
  omega

theorem Schedule.length_le (h : Schedule ids s s') : ids.length + s'.effort ≤ s.effort := by
  induction h with
  | nil => simp
  | cons hid hstep _ ih =>
    have hlt := effort_work_lt hid hstep
    rw [List.length_cons]
    omega

/-- Whatever the streams did, they can go on until all of them rest. -/
theorem exists_schedule_atRest (s : Session) : ∃ ids s', Schedule ids s s' ∧ s'.AtRest := by
  induction heffort : s.effort using Nat.strongRecOn generalizing s with
  | ind effort ih =>
    by_cases hrest : s.AtRest
    · exact ⟨[], s, .nil, hrest⟩
    · obtain ⟨id, stream, r, hid, hstep⟩ := exists_step_of_not_atRest hrest
      have hlt := effort_work_lt hid hstep
      obtain ⟨ids, s', hschedule, hrest'⟩ := ih _ (heffort ▸ hlt) (s.work id) rfl
      exact ⟨id :: ids, s', .cons hid hstep hschedule, hrest'⟩

/-! ### The bound on the runs -/

/-- The streams that are queued although they have nothing to do. -/
def restingQueued (s : Session) : List StreamId :=
  s.ready.filter fun id => s.streams[id]?.all fun stream => (stream.step s.client).isNone

theorem mem_restingQueued :
    id ∈ s.restingQueued ↔
      id ∈ s.ready ∧ ∀ stream, s.streams[id]? = some stream → stream.Rests s.client := by
  rw [restingQueued, List.mem_filter, Option.all_eq_true]
  refine and_congr_right fun _ => forall₂_congr fun stream _ => ?_
  rw [Option.isNone_iff_eq_none, Stream.rests_iff]

theorem Attentive.nodup_restingQueued (h : s.Attentive) : s.restingQueued.Nodup :=
  h.nodup.filter _

/-- A bound on the runs of queued streams: each of them uses up a place or some trouble, or finds
that there is nothing to do. -/
def debt (s : Session) : Nat :=
  (s.streams.map Stream.places).sum + s.client.trouble + s.restingQueued.length

/-- After a run, a stream that is queued and rests was queued before, and it is another one. -/
theorem Attentive.of_mem_restingQueued_run (h : s.Attentive) {other : StreamId}
    (hother : other ∈ (s.run id).restingQueued) : other ∈ s.ready ∧ other ≠ id := by
  obtain ⟨hready, hrests⟩ := mem_restingQueued.1 hother
  have hleft : other ∈ s.ready.erase id := by
    cases hid : s.streams[id]? with
    | none =>
      simp only [Session.run, hid] at hready
      exact hready
    | some stream =>
      simp only [Session.run, hid] at hready hrests
      refine (mem_ready_wakeNotified.1 hready).resolve_right fun hnotified => ?_
      -- a stream that was woken has something to do
      obtain ⟨found, hfound, hnot⟩ := exists_of_mem_notified hnotified
      rw [streams_wakeNotified, client_wakeNotified] at hrests
      exact hnot (hrests found hfound)
  obtain ⟨hne, hmem⟩ := (h.nodup.mem_erase_iff).1 hleft
  exact ⟨hmem, hne⟩

/-- A run of a stream that rests changes nothing but the queue. -/
theorem run_of_rests (h : ∀ stream, s.streams[id]? = some stream → stream.Rests s.client) :
    (s.run id).client = s.client ∧ (s.run id).streams = s.streams := by
  cases hid : s.streams[id]? with
  | none =>
    obtain ⟨hclient, hstreams, -⟩ := run_of_none hid
    exact ⟨hclient, hstreams⟩
  | some stream =>
    obtain ⟨hclient, hstreams, -⟩ := run_of_some hid
    rw [Stream.advance_of_rests (h stream hid)] at hclient hstreams
    exact ⟨hclient, hstreams.trans (set_streams_self hid)⟩

theorem Attentive.debt_run_lt_of_rests (h : s.Attentive) (hid : id ∈ s.restingQueued) :
    (s.run id).debt < s.debt := by
  obtain ⟨hclient, hstreams⟩ := run_of_rests (mem_restingQueued.1 hid).2
  have hsubset : (s.run id).restingQueued ⊆ s.restingQueued.erase id := fun other hother => by
    obtain ⟨hready, hne⟩ := h.of_mem_restingQueued_run hother
    have hrests := (mem_restingQueued.1 hother).2
    rw [hstreams, hclient] at hrests
    exact (List.mem_erase_of_ne hne).2 (mem_restingQueued.2 ⟨hready, hrests⟩)
  have hlength := (h.run id).nodup_restingQueued.length_le_of_subset hsubset
  have hpositive := List.length_pos_of_mem hid
  rw [List.length_erase_of_mem hid] at hlength
  rw [debt, hclient, hstreams, debt]
  omega

theorem Attentive.debt_run_lt_of_not_rests (h : s.Attentive) (hid : s.streams[id]? = some stream)
    (hnot : ¬ stream.Rests s.client) : (s.run id).debt < s.debt := by
  obtain ⟨hclient, hstreams, -⟩ := run_of_some hid
  have hspent := Stream.advance_spends hnot
  have hsum := sum_map_set Stream.places hid (stream.advance s.client).1
  have hsubset : (s.run id).restingQueued ⊆ s.restingQueued := fun other hother => by
    obtain ⟨hready, hne⟩ := h.of_mem_restingQueued_run hother
    have hrests := (mem_restingQueued.1 hother).2
    rw [hstreams, hclient] at hrests
    refine mem_restingQueued.2 ⟨hready, fun stream' hother' => ?_⟩
    have hkept := hrests stream' ((List.getElem?_set_ne hne.symm).trans hother')
    exact Stream.rests_of_advance (fun hmailbox => hne (eq_of_mailbox h.apart hother' hid hmailbox))
      hkept
  have hlength := (h.run id).nodup_restingQueued.length_le_of_subset hsubset
  rw [debt, hclient, hstreams, debt]
  omega

/-- Every run of a queued stream lowers the bound. -/
theorem Attentive.debt_run_lt (h : s.Attentive) (hid : id ∈ s.ready) :
    (s.run id).debt < s.debt := by
  by_cases hrests : id ∈ s.restingQueued
  · exact h.debt_run_lt_of_rests hrests
  · rw [mem_restingQueued] at hrests
    push Not at hrests
    obtain ⟨stream, hstream, hnot⟩ := hrests hid
    exact h.debt_run_lt_of_not_rests hstream hnot

theorem Attentive.atRest (h : s.Attentive) (hready : s.ready = []) : s.AtRest := by
  intro stream hmem
  obtain ⟨id, hid⟩ := List.mem_iff_getElem?.1 hmem
  by_contra hnot
  have hqueued := h.queued hid hnot
  rw [hready] at hqueued
  cases hqueued

theorem Attentive.atRest_settleFor (h : s.Attentive) {fuel : Nat} (hfuel : s.debt < fuel) :
    (settleFor fuel s).AtRest := by
  induction fuel generalizing s with
  | zero => exact absurd hfuel (Nat.not_lt_zero _)
  | succ fuel ih =>
    rw [settleFor]
    cases hready : s.ready with
    | nil => exact h.atRest hready
    | cons id rest =>
      have hmem : id ∈ s.ready := by
        rw [hready]
        exact List.mem_cons_self
      have hlt := h.debt_run_lt hmem
      rw [runNext_eq_run hready]
      exact ih (h.run id) (by omega)

theorem debt_lt_settleBound (s : Session) : s.debt < s.settleBound := by
  have hplaces : ∀ (streams : List Stream) (n : Nat),
      n + (streams.map Stream.places).sum ≤ streams.foldl (· + ·.capacity + 2) n := by
    intro streams
    induction streams with
    | nil => exact fun n => Nat.le_refl _
    | cons stream rest ih =>
      intro n
      have hstream := stream.places_le
      have hroom : stream.room ≤ stream.capacity := Nat.sub_le _ _
      have hrest := ih (n + stream.capacity + 2)
      rw [List.map_cons, List.sum_cons, List.foldl_cons]
      omega
  have hstreams := hplaces s.streams 0
  have hqueued : s.restingQueued.length ≤ s.ready.length := List.length_filter_le _ _
  have hnotices := s.client.store.errorNotices_le
  rw [debt, settleBound, Client.trouble]
  omega

/-- Where every stream that has something to do is queued, all streams rest after the queued ones
have run until they wait: the bound on the runs is enough. -/
theorem Attentive.atRest_settle (h : s.Attentive) : s.settle.AtRest :=
  h.atRest_settleFor (debt_lt_settleBound s)

/-! ### Letting the queued streams run -/

/-- Steps of one stream are a schedule, less those for which there was nothing to do. -/
theorem exists_schedule_of_working {j : Journal} (h : Run (Working id) s j s') :
    ∃ ids, Schedule ids s s' := by
  induction h with
  | refl => exact ⟨[], .nil⟩
  | @tail _ _ between _ _ hlast ih =>
    obtain ⟨ids, hschedule⟩ := ih
    cases hlast
    rcases work_cases between id with ⟨hsame, -⟩ | ⟨stream, r, hid, hstep, -⟩
    · rw [hsame]
      exact ⟨ids, hschedule⟩
    · exact ⟨ids ++ [id], hschedule.append (.cons hid hstep .nil)⟩

theorem exists_schedule_run (s : Session) (id : StreamId) :
    ∃ ids s', Schedule ids s s' ∧ s'.client = (s.run id).client ∧
      s'.streams = (s.run id).streams := by
  obtain ⟨s', hworking, hclient, hstreams⟩ := working_run s id
  obtain ⟨ids, hschedule⟩ := exists_schedule_of_working hworking
  exact ⟨ids, s', hschedule, hclient, hstreams⟩

theorem exists_schedule_settleFor (fuel : Nat) (s : Session) :
    ∃ ids s', Schedule ids s s' ∧ s'.client = (settleFor fuel s).client ∧
      s'.streams = (settleFor fuel s).streams := by
  induction fuel generalizing s with
  | zero => exact ⟨[], s, .nil, rfl, rfl⟩
  | succ fuel ih =>
    rw [settleFor]
    cases hready : s.ready with
    | nil => exact ⟨[], s, .nil, rfl, rfl⟩
    | cons id rest =>
      obtain ⟨ids, between, hrun, hclient, hstreams⟩ := exists_schedule_run s id
      obtain ⟨ids', s', hsettle, hclient', hstreams'⟩ := ih (s.run id)
      obtain ⟨last, hlast, hclientLast, hstreamsLast⟩ :=
        hsettle.exists_of_same hclient hstreams
      rw [runNext_eq_run hready]
      exact ⟨ids ++ ids', last, hrun.append hlast, hclientLast.trans hclient',
        hstreamsLast.trans hstreams'⟩

end Session

/-! ### Coming to rest -/

/-- The streams of a session always come to rest while nobody takes their results, whatever their
operations write. Every schedule of their work has a bounded number of steps; one to which no step
can be added ends with all streams at rest, and every other can be continued to such an end. In a
session that came of a client, letting the queued streams run is one of these schedules, and all
streams rest after it. -/
theorem comes_to_rest (s : Session) :
    (∀ ids s', Session.Schedule ids s s' →
      ids.length ≤ s.effort ∧
      ((∀ id s'', ¬ Session.Schedule [id] s' s'') → s'.AtRest) ∧
      ∃ ids' s'', Session.Schedule ids' s' s'' ∧ s''.AtRest) ∧
    ∀ c j, Session.Run Session.Step (.ofClient c) j s →
      s.settle.AtRest ∧ ∃ ids s', Session.Schedule ids s s' ∧
        s'.client = s.settle.client ∧ s'.streams = s.settle.streams := by
  refine ⟨fun ids s' hschedule => ⟨?_, fun hstuck => ?_, s'.exists_schedule_atRest⟩,
    fun c j hrun => ⟨?_, Session.exists_schedule_settleFor _ s⟩⟩
  · have hlength := hschedule.length_le
    omega
  · by_contra hnot
    obtain ⟨id, stream, r, hid, hstep⟩ := Session.exists_step_of_not_atRest hnot
    exact hstuck id _ (.cons hid hstep .nil)
  · exact (Session.attentive_of_run hrun).atRest_settle

/-- A live operation that lists all users and writes one of them. -/
def renameUser : Operation :=
  Executor.usersOperation
    [.mk "users" none []
      [Executor.usersQuery.withArgument "subscribe" (.literal (.bool true))] [.leaf "name"],
    .mk "renameUser" none []
      [⟨"mutation", [("mutationType", .literal (.string "set")),
        ("path", .literal (.string "users/u1")), ("rootType", .literal (.string "document")),
        ("type", .literal (.string "User")),
        ("dataArg", .literal (.object [("name", .string "Grace")]))]⟩]
      [.leaf "name"]]

/-- A session with two streams of the operation, with room for two results and for one. -/
def renamingSession : Session :=
  (((Session.ofClient Executor.userClient).spawn {} renameUser true 2).2.spawn {} renameUser true
    1).2

/-- Each pass of one stream is a notice for both, but after twelve steps at most they rest, with
full buffers and notices that nobody takes. -/
theorem comes_to_rest_renameUser :
    (∀ ids s', Session.Schedule ids renamingSession s' → ids.length ≤ 12) ∧
      renamingSession.settle.AtRest ∧
      renamingSession.settle.streams.map (·.buffer.length) = [2, 1] ∧
      renamingSession.settle.client.store.mail.length = 4 := by
  obtain ⟨hschedules, hsettle⟩ := comes_to_rest renamingSession
  have heffort : renamingSession.effort = 12 := by decide +kernel
  have hrun : Session.Run Session.Step (.ofClient Executor.userClient) [] renamingSession :=
    (Session.Run.single (Session.Step.spawn {} renameUser true 2)).tail
      (Session.Step.spawn {} renameUser true 1)
  refine ⟨fun ids s' hschedule => ?_, (hsettle _ _ hrun).1, by decide +kernel, by decide +kernel⟩
  rw [← heffort]
  exact (hschedules ids s' hschedule).1

end LiveDocs
