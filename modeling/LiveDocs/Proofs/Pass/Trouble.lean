import LiveDocs.Proofs.Pass.Reading
import LiveDocs.Proofs.Store.Notices

/-!
# What can still go wrong

A client has a finite amount of trouble ahead: the failures that its store was told to answer with,
the faults whose calls were not made yet, and the notices of errors that wait in the mail. No
request adds to it, since a write announces changes and no errors. An abort signal uses up a part of
it, since a store that was not told to fail sends none. So does a pass that ends in an abort signal,
however much it writes. Main statements: `trouble_run_le` and `trouble_run_lt`.
-/

namespace LiveDocs

/-! ### Notices of errors -/

namespace Store

variable {s s' : Store} {box : Mailbox}

/-- The number of notices of errors that wait. -/
def errorNotices (s : Store) : Nat := s.mail.countP fun entry => !entry.2.isOk

theorem errorNotices_le (s : Store) : s.errorNotices ≤ s.mail.length := List.countP_le_length

/-- A request announces no errors. -/
theorem errorNotices_run {α : Type} (r : Request α) (s : Store) :
    (r.run s).2.errorNotices = s.errorNotices := by
  obtain ⟨told, -, hmail⟩ := exists_mail_run r s
  have htold : (told.map Listener.notice).countP (fun entry => !entry.2.isOk) = 0 := by
    refine List.countP_eq_zero.2 fun entry hentry => ?_
    obtain ⟨l, -, rfl⟩ := List.mem_map.1 hentry
    exact Bool.false_ne_true
  rw [errorNotices, hmail, List.countP_append, htold, Nat.add_zero, errorNotices]

/-- A notice of an error that is collected does not wait any longer. -/
theorem errorNotices_of_receive {notice : Notice} (h : s.receive? box = some (notice, s')) :
    s.errorNotices = s'.errorNotices + if notice.isOk then 0 else 1 := by
  rw [errorNotices, (mail_perm_of_receive h).countP_eq, List.countP_cons, errorNotices]
  cases notice.isOk with
  | true => rfl
  | false => rfl

theorem errorNotices_clear_le (s : Store) (ids : List Nat) (box : Mailbox) :
    ((s.detachAll ids).clear box).errorNotices ≤ s.errorNotices := by
  have hmail : (s.detachAll ids).mail = s.mail := by rw [detachAll_eq]
  rw [errorNotices, clear, hmail]
  exact List.Sublist.countP_le List.filter_sublist

end Store

/-! ### Faults -/

namespace Client

variable {α : Type} {c : Client} {call : Call} {run : Store → Answer α}

/-- The faults whose calls were not made yet. -/
def waiting (c : Client) : List Fault := c.faults.filter fun f => c.count f.kind < f.nth

theorem count_perform (call : Call) (run : Store → Answer α) (c : Client) (kind : CallKind) :
    (c.perform call run).2.count kind = c.count kind + if call.kind = kind then 1 else 0 := by
  rw [count, log_perform, List.filter_append, List.length_append, count]
  by_cases hkind : call.kind = kind
  · simp [hkind]
  · simp [hkind]

theorem faults_perform (call : Call) (run : Store → Answer α) (c : Client) :
    (c.perform call run).2.faults = c.faults := by
  rw [perform]
  split <;> rfl

/-- Faults stop waiting as calls are made, and none begins to wait. -/
theorem waiting_perform (call : Call) (run : Store → Answer α) (c : Client) :
    (c.perform call run).2.waiting =
      c.waiting.filter fun f => (c.perform call run).2.count f.kind < f.nth := by
  rw [waiting, faults_perform, waiting, List.filter_filter]
  refine List.filter_congr fun f _ => ?_
  have hcount := c.count_perform call run f.kind
  by_cases hlater : (c.perform call run).2.count f.kind < f.nth
  · have hwaits : c.count f.kind < f.nth := by omega
    simp [hlater, hwaits]
  · simp [hlater]

theorem length_waiting_perform_le (call : Call) (run : Store → Answer α) (c : Client) :
    (c.perform call run).2.waiting.length ≤ c.waiting.length := by
  rw [waiting_perform]
  exact List.length_filter_le _ _

/-- A fault that catches a call waited for it, and waits no longer. -/
theorem length_waiting_perform_lt {fault : Fault} (h : c.fault? call.kind = some fault) :
    (c.perform call run).2.waiting.length < c.waiting.length := by
  have hmem := List.mem_of_find?_eq_some h
  have hcatches := List.find?_some h
  rw [Bool.and_eq_true, beq_iff_eq, beq_iff_eq] at hcatches
  obtain ⟨hkind, hnth⟩ := hcatches
  have hcount := c.count_perform call run fault.kind
  rw [if_pos hkind.symm, hkind] at hcount
  have hwaits : fault ∈ c.waiting := by
    refine List.mem_filter.2 ⟨hmem, decide_eq_true ?_⟩
    rw [hkind, hnth]
    exact Nat.lt_succ_self _
  have hpassed : ¬ (c.perform call run).2.count fault.kind < fault.nth := by
    rw [hkind, hcount, hnth]
    exact Nat.lt_irrefl _
  rw [waiting_perform, List.length_filter_lt_length_iff_exists]
  exact ⟨fault, hwaits, by rwa [decide_eq_true_iff]⟩

/-! ### Trouble -/

/-- What can still go wrong on a client by itself. -/
def trouble (c : Client) : Nat := c.pendingFailures + c.store.errorNotices

theorem trouble_eq (c : Client) :
    c.trouble = c.store.failures.length + c.waiting.length + c.store.errorNotices := rfl

theorem trouble_perform_of_fault {fault : Fault} (h : c.fault? call.kind = some fault) :
    (c.perform call run).2.trouble < c.trouble := by
  have hwaiting : (c.perform call run).2.waiting.length < c.waiting.length :=
    length_waiting_perform_lt h
  have hstore := store_perform_of_fault h run
  rw [trouble_eq, trouble_eq, hstore]
  omega

/-- A call that reaches the store uses up a failure, if one is queued. -/
theorem trouble_perform_of_reaches (r : Request α) (h : c.fault? r.call.kind = none) :
    (c.perform r.call r.run).2.trouble ≤ c.trouble ∧
      (c.store.failures ≠ [] → (c.perform r.call r.run).2.trouble < c.trouble) := by
  have hwaiting := c.length_waiting_perform_le r.call r.run
  have hstore : (c.perform r.call r.run).2.store = (r.run c.store).2 := by rw [perform, h]
  have hfailures := r.failures_run c.store
  have hnotices := Store.errorNotices_run r c.store
  rw [trouble_eq, trouble_eq, hstore, hfailures, hnotices, List.length_tail]
  refine ⟨by omega, fun hqueued => ?_⟩
  have hpositive := List.length_pos_iff.2 hqueued
  omega

/-- No request adds to the trouble. -/
theorem trouble_perform_le (r : Request α) (c : Client) :
    (c.perform r.call r.run).2.trouble ≤ c.trouble := by
  cases hfault : c.fault? r.call.kind with
  | some fault => exact Nat.le_of_lt (trouble_perform_of_fault hfault)
  | none => exact (trouble_perform_of_reaches r hfault).1

/-- A request that is answered with an abort signal uses up a part of it. -/
theorem trouble_perform_lt {r : Request α} {e : StoreError}
    (h : (c.perform r.call r.run).1 = .error e) (habort : e.code.isAbort = true) :
    (c.perform r.call r.run).2.trouble < c.trouble := by
  cases hfault : c.fault? r.call.kind with
  | some fault => exact trouble_perform_of_fault hfault
  | none =>
    refine (trouble_perform_of_reaches r hfault).2 fun hquiet => ?_
    -- the store itself sends no abort signals
    have hanswer : (r.run c.store).1 = .error e := by
      rw [perform, hfault] at h
      exact h
    rw [Request.not_isAbort_of_run hquiet hanswer] at habort
    cases habort

end Client

/-! ### Passes -/

namespace Pass

variable {allowed : Requests} {α : Type} {p : Pass α}

/-- No pass adds to the trouble, whatever it writes. -/
theorem trouble_run_le (hp : Makes allowed p) (state : PassState) :
    (p.run state).2.client.trouble ≤ state.client.trouble :=
  client_run (R := fun c c' => c'.trouble ≤ c.trouble) (fun _ => Nat.le_refl _)
    (fun h h' => Nat.le_trans h' h) (fun r _ c => c.trouble_perform_le r) hp state

/-- A pass that ends in an abort signal uses up a part of it. -/
theorem trouble_run_lt (hp : Makes allowed p) (state : PassState) {e : EngineError}
    (h : (p.run state).1 = .error e) (hbenign : e.isBenign = true) :
    (p.run state).2.client.trouble < state.client.trouble := by
  induction hp generalizing state with
  | result r hfails =>
    rw [hfails e h] at hbenign
    cases hbenign
  | record target => cases h
  | request r hr =>
    rw [run_request] at h ⊢
    rcases hanswer : (state.client.perform r.call r.run).1 with cause | a
    · rw [hanswer] at h
      obtain rfl : EngineError.store cause = e := Except.error.inj h
      exact Client.trouble_perform_lt hanswer hbenign
    · rw [hanswer] at h
      cases h
  | @bind _ _ p f hp hf ihp ihf =>
    -- the signal came in the first part or in the second
    rcases hrun : p.run state with ⟨cause | a, state'⟩
    · rw [run_bind_error hrun] at h ⊢
      have hcause : (p.run state).1 = .error e := by rw [hrun, Except.error.inj h]
      have hfirst := ihp state hcause
      rw [hrun] at hfirst
      exact hfirst
    · rw [run_bind_ok hrun] at h ⊢
      have hfirst := trouble_run_le hp state
      rw [hrun] at hfirst
      exact Nat.lt_of_lt_of_le (ihf a state' h) hfirst

end Pass

end LiveDocs
