import LiveDocs.Proofs.Pass.Requests
import LiveDocs.Proofs.Store.Listeners

/-!
# Passes that read

Whatever holds of each request that a pass makes, and is kept along a sequence of requests, holds of
the pass. A pass that makes reads only, on a client where no call is to fail, leaves the store as it
is, and its result depends on nothing but what it fetched. Main statements: `client_run`, the
induction; `keepsListeners_execute`, executing an operation attaches and releases no listener;
`onlyReads_execute`, an operation without mutations changes nothing but the log, whatever fails;
`response_of_readsAlike`, stores that agree on what an operation fetched give the same response.
-/

namespace LiveDocs

namespace Pass

variable {allowed : Requests} {α β : Type}

/-! ### Running passes -/

theorem run_bind_ok {p : Pass α} {state state' : PassState} {a : α}
    (h : p.run state = (.ok a, state')) (f : α → Pass β) :
    (p >>= f).run state = (f a).run state' := by
  change (ExceptT.bindCont f (p.run state).1) (p.run state).2 = _
  rw [h]
  rfl

theorem run_bind_error {p : Pass α} {state state' : PassState} {e : EngineError}
    (h : p.run state = (.error e, state')) (f : α → Pass β) :
    (p >>= f).run state = (.error e, state') := by
  change (ExceptT.bindCont f (p.run state).1) (p.run state).2 = _
  rw [h]
  rfl

theorem run_request (r : Request α) (state : PassState) :
    r.pass.run state =
      ((state.client.perform r.call r.run).1.mapError .store,
        { state with client := (state.client.perform r.call r.run).2 }) := rfl

/-- A relation between clients that every request keeps is kept by a pass. -/
theorem client_run {R : Client → Client → Prop} (hrefl : ∀ c, R c c)
    (htrans : ∀ {c c' c''}, R c c' → R c' c'' → R c c'')
    (hrequest : ∀ {α : Type} (r : Request α), allowed α r → ∀ c, R c (c.perform r.call r.run).2)
    {p : Pass α} (hp : Makes allowed p) (state : PassState) :
    R state.client (p.run state).2.client := by
  induction hp generalizing state with
  | result r h => exact hrefl _
  | record target => exact hrefl _
  | request r h => exact hrequest r h state.client
  | @bind _ _ p f _ _ ihp ihf =>
    -- the second part runs on what the first one left, or not at all
    have hfirst := ihp state
    rcases hrun : p.run state with ⟨e | a, state'⟩
    · rw [hrun] at hfirst
      rw [run_bind_error hrun]
      exact hfirst
    · rw [hrun] at hfirst
      rw [run_bind_ok hrun]
      exact htrans hfirst (ihf a state')

end Pass

/-! ### Listeners -/

/-- A call either does not reach the store, or the store runs it. -/
theorem Client.store_perform {α : Type} (call : Call) (run : Store → Answer α) (c : Client) :
    (c.perform call run).2.store = c.store ∨
      (c.perform call run).2.store = (run c.store).2 := by
  rw [perform]
  split
  · exact .inl rfl
  · exact .inr rfl

/-- Executing an operation attaches and releases no listener. -/
theorem Executor.keepsListeners_execute (config : Config) (o : Operation) (c : Client) :
    c.store.KeepsListeners (execute config o c).client.store := by
  refine Pass.client_run (R := fun c c' => c.store.KeepsListeners c'.store) (fun c => .refl _)
    (fun h h' => h.trans h') (fun r hr c => ?_) (makes_documents config o) ⟨c, []⟩
  have hlistens : ¬ r.Listens := hr.elim Request.Reads.not_listens Request.Writes.not_listens
  rcases c.store_perform r.call r.run with hstore | hstore
  · rw [hstore]
    exact .refl _
  · rw [hstore]
    exact r.keepsListeners_run hlistens c.store

/-! ### What a pass fetches -/

/-- No call is to fail. -/
def Client.Quiet (c : Client) : Prop := c.faults = [] ∧ c.store.failures = []

theorem Client.Quiet.perform {α : Type} {c : Client} (hc : c.Quiet) (call : Call)
    (run : Store → Answer α) :
    c.perform call run = ((run c.store).1,
      { c with log := c.log ++ [call], store := (run c.store).2 }) := by
  rw [Client.perform, fault?, hc.1]
  rfl

namespace Request

variable {α : Type} {r : Request α}

/-- A read leaves the store as it is, but for a queued failure that it uses up. -/
theorem store_run_reads (hr : r.Reads) (s : Store) :
    (r.run s).2 = { s with failures := s.failures.tail } := by
  cases hfailures : s.failures with
  | nil => rw [store_run_of_reads hr hfailures, List.tail_nil, ← hfailures]
  | cons e rest => rw [run_of_failures_cons r hfailures, List.tail_cons]

theorem kind_call_of_reads (hr : r.Reads) :
    r.call.kind = .getDocument ∨ r.call.kind = .getQuery := by
  cases r with
  | getDocument d source => exact .inl rfl
  | getQuery q source => exact .inr rfl
  | add | set | update | delete | listen => exact hr.elim

end Request

/-- These calls lead from one client to the other and only read: everything is as it was, but for
the log and for the queued failures that were used up. -/
structure Client.OnlyReads (c : Client) (calls : List Call) (c' : Client) : Prop where
  kind_of_mem : ∀ call ∈ calls, call.kind = .getDocument ∨ call.kind = .getQuery
  frame : ∃ failures, failures <:+ c.store.failures ∧
    c' = { c with log := c.log ++ calls, store := { c.store with failures } }

namespace Client.OnlyReads

variable {c c' c'' : Client} {calls calls' : List Call}

theorem refl (c : Client) : c.OnlyReads [] c :=
  ⟨List.forall_mem_nil _, c.store.failures, List.suffix_refl _, by rw [List.append_nil]⟩

theorem trans (h : c.OnlyReads calls c') (h' : c'.OnlyReads calls' c'') :
    c.OnlyReads (calls ++ calls') c'' := by
  obtain ⟨hkinds, failures, hfailures, rfl⟩ := h
  obtain ⟨hkinds', failures', hfailures', rfl⟩ := h'
  exact ⟨List.forall_mem_append.2 ⟨hkinds, hkinds'⟩, failures', hfailures'.trans hfailures,
    by rw [List.append_assoc]⟩

/-- A call that a fault catches does not reach the store, and any other uses up a failure. -/
theorem perform {α : Type} {r : Request α} (hr : r.Reads) (c : Client) :
    c.OnlyReads [r.call] (c.perform r.call r.run).2 where
  kind_of_mem := List.forall_mem_singleton.2 (Request.kind_call_of_reads hr)
  frame := by
    rw [Client.perform]
    split
    · exact ⟨c.store.failures, List.suffix_refl _, rfl⟩
    · exact ⟨c.store.failures.tail, List.tail_suffix _, by rw [← Request.store_run_reads hr]⟩

theorem log_eq (h : c.OnlyReads calls c') : c'.log = c.log ++ calls := by
  obtain ⟨-, failures, -, rfl⟩ := h
  rfl

end Client.OnlyReads

namespace Pass

variable {α β : Type}

/-- The calls that a pass makes. -/
def calls (p : Pass α) (state : PassState) : List Call :=
  (p.run state).2.client.log.drop state.client.log.length

/-- The log of a client only grows. -/
theorem log_run {allowed : Requests} {p : Pass α} (hp : Makes allowed p) (state : PassState) :
    (p.run state).2.client.log = state.client.log ++ p.calls state := by
  have hlog : ∃ calls, (p.run state).2.client.log = state.client.log ++ calls := by
    refine client_run (R := fun c c' => ∃ calls, c'.log = c.log ++ calls) ?_ ?_ ?_ hp state
    · exact fun c => ⟨[], (List.append_nil _).symm⟩
    · rintro c c' c'' ⟨calls, h⟩ ⟨calls', h'⟩
      exact ⟨calls ++ calls', by rw [h', h, List.append_assoc]⟩
    · exact fun r _ c => ⟨[r.call], c.log_perform ..⟩
  obtain ⟨calls, hcalls⟩ := hlog
  rw [Pass.calls, hcalls, List.drop_left]

theorem calls_request (r : Request α) (state : PassState) : r.pass.calls state = [r.call] := by
  rw [calls, run_request, Client.log_perform, List.drop_left]

theorem calls_bind_ok {allowed : Requests} {p : Pass α} (hp : Makes allowed p)
    {state state' : PassState} {a : α} (h : p.run state = (.ok a, state')) (f : α → Pass β)
    (hf : Makes allowed (f a)) :
    (p >>= f).calls state = p.calls state ++ (f a).calls state' := by
  have hlog := log_run hp state
  rw [h] at hlog
  rw [calls, run_bind_ok h, log_run hf, hlog, List.append_assoc, List.drop_left]

theorem calls_bind_error {p : Pass α} {state state' : PassState} {e : EngineError}
    (h : p.run state = (.error e, state')) (f : α → Pass β) :
    (p >>= f).calls state = p.calls state := by
  rw [calls, run_bind_error h, calls, h]

/-- A pass that reads leads from its client to one from which documents were only read, wherever it
ends. -/
theorem onlyReads_run {p : Pass α} (hp : Makes Requests.reads p) (state : PassState) :
    state.client.OnlyReads (p.calls state) (p.run state).2.client := by
  have hreads : ∃ calls, state.client.OnlyReads calls (p.run state).2.client := by
    refine client_run (R := fun c c' => ∃ calls, c.OnlyReads calls c')
      (fun c => ⟨[], .refl c⟩) ?_ (fun r hr c => ⟨[r.call], .perform hr c⟩) hp state
    rintro c c' c'' ⟨calls, h⟩ ⟨calls', h'⟩
    exact ⟨calls ++ calls', h.trans h'⟩
  obtain ⟨calls, h⟩ := hreads
  have heq : p.calls state = calls := by
    rw [Pass.calls, h.log_eq, List.drop_left]
  rw [heq]
  exact h

/-- On a client where no call is to fail, it adds to the log and does nothing else. -/
theorem client_run_of_reads {p : Pass α} (hp : Makes Requests.reads p) {state : PassState}
    (hquiet : state.client.Quiet) :
    (p.run state).2.client =
      { state.client with log := state.client.log ++ p.calls state } := by
  obtain ⟨failures, hfailures, hclient⟩ := (onlyReads_run hp state).frame
  rw [hquiet.2, List.suffix_nil] at hfailures
  rw [hclient, hfailures, ← hquiet.2]

/-- The result of a pass that reads depends on nothing but what it fetched. -/
theorem run_of_readsAlike {p : Pass α} (hp : Makes Requests.reads p) {state state' : PassState}
    (hquiet : state.client.Quiet) (hquiet' : state'.client.Quiet)
    (hpending : state'.client.store.pending = state.client.store.pending)
    (h : ∀ call ∈ p.calls state, ∀ target, call.target? = some target →
      target.ReadsAlike state.client.store state'.client.store) :
    (p.run state').1 = (p.run state).1 := by
  induction hp generalizing state state' with
  | result r hr => rfl
  | record target => rfl
  | request r hr =>
    rw [calls_request] at h
    rw [run_request, run_request, hquiet.perform, hquiet'.perform]
    refine congrArg (Except.mapError EngineError.store) ?_
    exact r.run_of_readsAlike hr hquiet.2 hquiet'.2 hpending (h r.call (List.mem_singleton_self _))
  | @bind _ _ p f hp hf ihp ihf =>
    have hclient := client_run_of_reads hp hquiet
    have hclient' := client_run_of_reads hp hquiet'
    -- both runs of the first part come to the same result
    rcases hrun : p.run state with ⟨e | a, next⟩
    · rw [calls_bind_error hrun] at h
      have hfirst := ihp hquiet hquiet' hpending h
      rcases hrun' : p.run state' with ⟨e' | a', next'⟩
      · rw [run_bind_error hrun, run_bind_error hrun']
        rw [hrun, hrun'] at hfirst
        exact congrArg Except.error (Except.error.inj hfirst)
      · rw [hrun, hrun'] at hfirst
        cases hfirst
    · rw [calls_bind_ok hp hrun f (hf a)] at h
      have hfirst := ihp hquiet hquiet' hpending fun call hcall =>
        h call (List.mem_append_left _ hcall)
      rcases hrun' : p.run state' with ⟨e' | a', next'⟩
      · rw [hrun, hrun'] at hfirst
        cases hfirst
      · rw [hrun, hrun'] at hfirst
        obtain rfl : a' = a := Except.ok.inj hfirst
        rw [hrun] at hclient
        rw [hrun'] at hclient'
        rw [run_bind_ok hrun, run_bind_ok hrun']
        -- the first part left both stores as they were
        refine ihf a' (by rw [hclient]; exact hquiet) (by rw [hclient']; exact hquiet')
          (by rw [hclient, hclient']; exact hpending) fun call hcall target htarget => ?_
        rw [hclient, hclient']
        exact h call (List.mem_append_right _ hcall) target htarget

/-- A pass that reads, on a client where no call is to fail, ends in no abort signal. -/
theorem isBenign_of_run {p : Pass α} (hp : Makes Requests.reads p) {state : PassState}
    (hquiet : state.client.Quiet) {e : EngineError} (h : (p.run state).1 = .error e) :
    e.isBenign = false := by
  induction hp generalizing state with
  | result r hr => exact hr e h
  | record target => cases h
  | request r hr =>
    rw [run_request, hquiet.perform] at h
    cases hanswer : (r.run state.client.store).1 with
    | ok a =>
      simp only [hanswer, Except.mapError] at h
      cases h
    | error cause =>
      simp only [hanswer, Except.mapError] at h
      obtain rfl := Except.error.inj h
      exact r.not_isAbort_of_run hquiet.2 hanswer
  | @bind _ _ p f hp hf ihp ihf =>
    have hclient := client_run_of_reads hp hquiet
    rcases hrun : p.run state with ⟨e' | a, next⟩
    · rw [run_bind_error hrun] at h
      obtain rfl := Except.error.inj h
      exact ihp hquiet (by rw [hrun])
    · rw [run_bind_ok hrun] at h
      rw [hrun] at hclient
      exact ihf a (by rw [hclient]; exact hquiet) h

end Pass

namespace Executor

/-- The calls that executing an operation makes. -/
def calls (config : Config) (o : Operation) (c : Client) : List Call :=
  (pass config o).calls ⟨c, []⟩

variable {config : Config} {o : Operation} {c c' : Client}

/-- An operation of which no field is planned as a mutation only reads, wherever its pass ends and
whichever calls fail: the documents, the pending values, the listeners and the counters stay as they
are. -/
theorem onlyReads_execute (config : Config) (ho : o.MutationFree) (c : Client) :
    c.OnlyReads (calls config o c) (execute config o c).client :=
  Pass.onlyReads_run (makes_reads config ho) ⟨c, []⟩

/-- A mutation whose field carries both `@mutation` and `@query`: the field counts as a query. -/
def queryingMutation : Operation :=
  { Operation.empty .mutation with
    selection := [.mk "users" none []
      [(Directive.named "mutation").withArgument "mutationType" (.literal (.string "add")),
        (Directive.named "query").withArgument "rootType" (.literal (.string "collection"))]
      [.leaf "id"]] }

/-- A client whose next call is going to fail. -/
def interruptedClient : Client := .ofStore (Store.empty.failNext (.notFound "interrupted")) []

/-- Its pass fails at the query, and the failure is all that is gone from the store. -/
theorem onlyReads_execute_queryingMutation :
    queryingMutation.MutationFree ∧
      (execute {} queryingMutation interruptedClient).response.isOk = false ∧
      (calls {} queryingMutation interruptedClient).map Call.kind = [.getQuery] ∧
      interruptedClient.OnlyReads (calls {} queryingMutation interruptedClient)
        (execute {} queryingMutation interruptedClient).client := by
  have ho : queryingMutation.MutationFree := by decide +kernel
  exact ⟨ho, by decide +kernel, by decide +kernel, onlyReads_execute {} ho interruptedClient⟩

theorem client_execute (ho : o.MutationFree) (hc : c.Quiet) :
    (execute config o c).client = { c with log := c.log ++ calls config o c } :=
  Pass.client_run_of_reads (makes_reads config ho) hc

theorem isBenign_of_response (ho : o.MutationFree) (hc : c.Quiet) {e : EngineError}
    (h : (execute config o c).response = .error e) : e.isBenign = false :=
  Pass.isBenign_of_run (makes_reads config ho) hc h

/-- An operation without mutations gives the same response on stores that are alike at all targets
it fetched. -/
theorem response_of_readsAlike (ho : o.MutationFree) (hc : c.Quiet) (hc' : c'.Quiet)
    (hpending : c'.store.pending = c.store.pending)
    (h : ∀ call ∈ calls config o c, ∀ target, call.target? = some target →
      target.ReadsAlike c.store c'.store) :
    (execute config o c').response = (execute config o c).response :=
  Pass.run_of_readsAlike (makes_reads config ho) hc hc' hpending h

end Executor

end LiveDocs
