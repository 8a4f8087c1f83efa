import LiveDocs.Proofs.Pass.Exports
import LiveDocs.Proofs.Pass.Targets

/-!
# Faithful tracking

A pass records the targets to listen to on its way. Recording them does not show in anything else:
the pass with every recording left out comes to the same, by the same calls. And what is recorded is
what was fetched where updates are asked for. `Visits` follows a pass through the fields in which it
reaches the store, and says which calls were made for each; the targets of those that ask for
updates, each where it comes up first, are the recorded ones. Main statements: `Erases.run`, leaving
out the recordings changes nothing else; `tracked_of_execute`.
-/

namespace LiveDocs

namespace Pass

variable {α β : Type}

/-! ### Without recording -/

/-- The second pass is put together as the first one is, with every recording left out. -/
inductive Erases : {α : Type} → Pass α → Pass α → Prop where
  | result {α : Type} (r : Except EngineError α) : Erases (Pass.ofExcept r) (Pass.ofExcept r)
  | record (target : ListenTarget) : Erases (Pass.record target) (pure ())
  | request {α : Type} (r : Request α) : Erases r.pass r.pass
  | bind {α β : Type} {p p' : Pass α} {f f' : α → Pass β} (hp : Erases p p')
      (hf : ∀ a, Erases (f a) (f' a)) : Erases (p >>= f) (p' >>= f')

/-- It comes to the same and does the same to the client, and it leaves the targets alone. -/
theorem Erases.run {p p' : Pass α} (h : Erases p p') (state : PassState)
    (targets : List ListenTarget) :
    p'.run ⟨state.client, targets⟩ = ((p.run state).1, ⟨(p.run state).2.client, targets⟩) := by
  induction h generalizing state with
  | result r => rfl
  | record target => rfl
  | request r => rfl
  | @bind _ _ p p' f f' _ _ ihp ihf =>
    have hfirst := ihp state
    rcases hrun : p.run state with ⟨e | a, between⟩
    · rw [hrun] at hfirst
      rw [run_bind_error hrun, run_bind_error hfirst]
    · rw [hrun] at hfirst
      rw [run_bind_ok hrun, run_bind_ok hfirst]
      exact ihf a between

/-- The recordings can be left out of every pass. -/
theorem exists_erases {allowed : Requests} {p : Pass α} (hp : Makes allowed p) :
    ∃ p', Erases p p' := by
  induction hp with
  | result r _ => exact ⟨_, .result r⟩
  | record target => exact ⟨_, .record target⟩
  | request r _ => exact ⟨_, .request r⟩
  | bind _ _ ihp ihf =>
    obtain ⟨p', hp'⟩ := ihp
    choose f' hf' using ihf
    exact ⟨p' >>= f', hp'.bind hf'⟩

/-! ### Passes that record nothing -/

/-- A pass that records nothing. -/
def Unrecorded (p : Pass α) : Prop := ∀ state, (p.run state).2.targets = state.targets

theorem unrecorded_ofExcept (r : Except EngineError α) : Unrecorded (Pass.ofExcept r) :=
  fun _ => rfl

theorem unrecorded_request (r : Request α) : Unrecorded r.pass := fun _ => rfl

theorem Unrecorded.bind {p : Pass α} (hp : Unrecorded p) {f : α → Pass β}
    (hf : ∀ a, Unrecorded (f a)) : Unrecorded (p >>= f) := by
  intro state
  have hfirst := hp state
  rcases hrun : p.run state with ⟨e | a, between⟩
  · rw [hrun] at hfirst
    rw [run_bind_error hrun]
    exact hfirst
  · rw [hrun] at hfirst
    rw [run_bind_ok hrun]
    exact (hf a between).trans hfirst

/-! ### Targets in order of first mention -/

/-- Noting targets one after the other puts those that are new behind the others, each where it
comes up first. -/
theorem foldl_note (targets more : List ListenTarget) :
    more.foldl Pass.note targets = targets ++
      (more.filter fun target => !targets.any (·.same target)).eraseDupsBy
        fun target earlier => earlier.same target := by
  induction more generalizing targets with
  | nil => simp
  | cons target rest ih =>
    rw [List.foldl_cons, ih]
    cases hknown : targets.any (·.same target) with
    | true => simp [note, hknown]
    | false =>
      have hnew : (rest.filter fun t => !(targets ++ [target]).any (·.same t)) =
          (rest.filter fun t => !targets.any (·.same t)).filter fun t => !target.same t := by
        rw [List.filter_filter]
        refine List.filter_congr fun t _ => ?_
        simp [Bool.and_comm]
      rw [note, hknown, if_neg Bool.false_ne_true, hnew, List.append_assoc]
      simp [hknown, List.eraseDupsBy_cons]

theorem foldl_note_nil (targets : List ListenTarget) :
    targets.foldl note [] = targets.eraseDupsBy fun target earlier => earlier.same target := by
  rw [foldl_note]
  simp

/-- No target is noted that is the same as an earlier one. -/
theorem pairwise_foldl_note {targets : List ListenTarget}
    (h : targets.Pairwise fun a b => a.same b = false) (more : List ListenTarget) :
    (more.foldl Pass.note targets).Pairwise fun a b => a.same b = false := by
  induction more generalizing targets with
  | nil => exact h
  | cons target rest ih =>
    refine ih ?_
    rw [note]
    split
    · exact h
    · rename_i hnew
      refine List.pairwise_append.2 ⟨h, List.pairwise_singleton _ _, fun a ha b hb => ?_⟩
      obtain rfl := List.mem_singleton.1 hb
      exact Bool.eq_false_iff.2 fun hsame => hnew (List.any_eq_true.2 ⟨a, ha, hsame⟩)

end Pass

/-! ### Fields that ask for updates -/

/-- The `subscribe` argument of a directive evaluates to true. -/
def Directive.asksForUpdates (vars : Variables) (d : Directive) : Bool :=
  match d.value? vars "subscribe" with
  | some (.bool b) => b
  | _ => false

/-- The directive by which a field fetches: its `@query`, or its `@ref` if it has neither a `@query`
nor a `@mutation`. -/
def Field.fetching? (f : Field) : Option Directive :=
  (f.directive? "query").or
    (if (f.directive? "mutation").isSome then none else f.directive? "ref")

/-- What is fetched for the field is to be listened to. -/
def Field.asksForUpdates (vars : Variables) (f : Field) : Bool :=
  f.fetching?.any (·.asksForUpdates vars)

/-- What is fetched by this plan is to be listened to. -/
def Plan.asksForUpdates : Plan → Bool
  | query _ fetch => fetch.subscribe
  | ref fetch => fetch.subscribe
  | mutation _ => false
  | leaf _ => false
  | none => false

theorem Directive.asksForUpdates_of_flag {vars : Variables} {d : Directive} {b : Bool}
    (h : d.flag vars "subscribe" = .ok b) : d.asksForUpdates vars = b := by
  rw [flag] at h
  rw [asksForUpdates]
  split at h
  · rename_i hvalue
    rw [hvalue]
    exact Except.ok.inj h
  · rename_i hvalue
    rw [hvalue]
    exact Except.ok.inj h
  · rename_i hvalue
    rw [hvalue]
    exact Except.ok.inj h
  · cases h

/-- The plan of a field asks for updates exactly if the field does. -/
theorem Plan.asksForUpdates_of_ofField {vars : Variables} {f : Field} {plan : Plan}
    (h : ofField vars f = .ok plan) : plan.asksForUpdates = f.asksForUpdates vars := by
  rw [Field.asksForUpdates, Field.fetching?]
  rcases ofField_cases h with ⟨d, rootKind, fetch, hd, rfl, hflag⟩ | ⟨hquery, ⟨d, m, hd, rfl⟩ |
    ⟨hmutation, ⟨d, fetch, hd, rfl, hflag⟩ | ⟨href, ⟨leaf, rfl⟩ | rfl⟩⟩⟩
  · simp [asksForUpdates, hd, Directive.asksForUpdates_of_flag hflag]
  · simp [asksForUpdates, hquery, hd]
  · simp [asksForUpdates, hquery, hmutation, hd, Directive.asksForUpdates_of_flag hflag]
  · simp [asksForUpdates, hquery, hmutation, href]
  · simp [asksForUpdates, hquery, hmutation, href]

/-! ### Visits -/

/-- A field at one place of a pass, and the calls that were made for it there. -/
structure Visit where
  field : Field
  calls : List Call

/-- The targets of a visit are what its calls fetched, if the field asks for updates. -/
def Visit.targets (vars : Variables) (visit : Visit) : List ListenTarget :=
  if visit.field.asksForUpdates vars then visit.calls.filterMap Call.target? else []

namespace Executor

variable {vars : Variables} {parent : Option Entity} {f : Field} {exports : Exports} {plan : Plan}
  {state between state' : PassState} {resolved : Resolved} {visits visits' : List Visit}

mutual

/-- A pass over fields visits those that reach the store, in order, each followed by those below
it. -/
inductive Visits (vars : Variables) : Option Entity → Exports → Client → List Field →
    List Visit → Client → Prop where
  | nil {parent : Option Entity} {exports : Exports} {c : Client} :
      Visits vars parent exports c [] [] c
  /-- A field that selects nothing and fetches nothing is read off the parent, and exports. -/
  | leaf {entity : Entity} {exports : Exports} {c c' : Client} {f : Field} {plan : Plan}
      {rest : List Field} {visits : List Visit} (hplan : Plan.ofField vars f = .ok plan)
      (hleaf : (!f.isLeaf || plan.isFetching) = false)
      (hrest : Visits vars (some entity) (exportsAfter f plan entity exports) c rest visits c') :
      Visits vars (some entity) exports c (f :: rest) visits c'
  /-- Any other finds something, by the calls that are made until then. -/
  | branch {parent : Option Entity} {exports : Exports} {c found between c' : Client} {f : Field}
      {plan : Plan} {resolved : Resolved} {calls : List Call} {rest : List Field}
      {below visits : List Visit} (hplan : Plan.ofField vars f = .ok plan)
      (hbranch : (!f.isLeaf || plan.isFetching) = true)
      (hfinds : Finds vars parent f exports plan c resolved found)
      (hcalls : found.log = c.log ++ calls)
      (hbelow : VisitsBelow vars exports f.selection found resolved below between)
      (hrest : Visits vars parent exports between rest visits c') :
      Visits vars parent exports c (f :: rest) (⟨f, calls⟩ :: (below ++ visits)) c'

/-- What is visited below a branch, for what the branch found. -/
inductive VisitsBelow (vars : Variables) : Exports → List Field → Client → Resolved → List Visit →
    Client → Prop where
  /-- Nothing if nothing is selected. -/
  | bare {exports : Exports} {c : Client} {resolved : Resolved} :
      VisitsBelow vars exports [] c resolved [] c
  /-- Nothing of a document that was deleted. -/
  | deletion {exports : Exports} {selection : List Field} {typename id : String} {c : Client} :
      VisitsBelow vars exports selection c (.deleted typename id) [] c
  | document {exports : Exports} {selection : List Field} {entity : Entity}
      {visits : List Visit} {c c' : Client}
      (hvisits : Visits vars (some entity) exports c selection visits c') :
      VisitsBelow vars exports selection c (.entity entity) visits c'
  | documents {exports : Exports} {selection : List Field} {entities : List Entity}
      {visits : List Visit} {c c' : Client}
      (hvisits : VisitsEach vars exports selection c entities visits c') :
      VisitsBelow vars exports selection c (.entities entities) visits c'

/-- The documents of a collection are gone through one after the other. -/
inductive VisitsEach (vars : Variables) : Exports → List Field → Client → List Entity →
    List Visit → Client → Prop where
  | nil {exports : Exports} {selection : List Field} {c : Client} :
      VisitsEach vars exports selection c [] [] c
  | cons {exports : Exports} {selection : List Field} {entity : Entity} {entities : List Entity}
      {visits visits' : List Visit} {c between c' : Client}
      (hvisits : Visits vars (some entity) exports c selection visits between)
      (hrest : VisitsEach vars exports selection between entities visits' c') :
      VisitsEach vars exports selection c (entity :: entities) (visits ++ visits') c'

end

/-- These visits account for what a pass did in between: their calls are in the log, and their
targets are noted. -/
structure Accounts (vars : Variables) (state : PassState) (visits : List Visit)
    (state' : PassState) : Prop where
  log : state'.client.log = state.client.log ++ visits.flatMap Visit.calls
  targets : state'.targets = (visits.flatMap (Visit.targets vars)).foldl Pass.note state.targets

theorem Accounts.refl (vars : Variables) (state : PassState) : Accounts vars state [] state :=
  ⟨(List.append_nil _).symm, rfl⟩

theorem Accounts.trans (h : Accounts vars state visits between)
    (h' : Accounts vars between visits' state') :
    Accounts vars state (visits ++ visits') state' where
  log := by rw [h'.log, h.log, List.flatMap_append, List.append_assoc]
  targets := by rw [h'.targets, h.targets, List.flatMap_append, List.foldl_append]

/-- One read is accounted for. -/
theorem accounts_of_fetch {α : Type} {r : Request α} {target : ListenTarget} {a : α}
    (htarget : r.call.target? = some target) (hread : state.client.ask r = (.ok a, state'.client))
    (htargets : state'.targets =
      if f.asksForUpdates vars then Pass.note state.targets target else state.targets) :
    Accounts vars state [⟨f, [r.call]⟩] state' where
  log := by
    have hlog := state.client.log_perform r.call r.run
    rw [show state.client.perform r.call r.run = _ from hread] at hlog
    exact hlog
  targets := by
    rw [htargets]
    cases hasks : f.asksForUpdates vars <;> simp [Visit.targets, hasks, htarget]

/-- A field that asks for no updates, and whose pass records nothing, is accounted for. -/
theorem accounts_of_unrecorded {p : Pass Resolved} (hp : Pass.Makes Requests.documents p)
    (hunrecorded : p.Unrecorded) (hasks : f.asksForUpdates vars = false)
    (h : p.run state = (.ok resolved, state')) :
    Accounts vars state [⟨f, p.calls state⟩] state' where
  log := by
    have hlog := Pass.log_run hp state
    rw [h] at hlog
    simpa using hlog
  targets := by
    have htargets := hunrecorded state
    rw [h] at htargets
    simpa [Visit.targets, hasks] using htargets

/-- A mutation records nothing. -/
theorem unrecorded_write (mutation : MutationPlan) (type : MutationType) (data : Members)
    (reference : Reference) : (Mutation.write mutation type data reference).Unrecorded := by
  cases reference with
  | collection c =>
    rw [Mutation.write, map_eq_pure_bind]
    exact (Pass.unrecorded_request (.add c data)).bind fun _ => Pass.unrecorded_ofExcept (.ok _)
  | document d =>
    cases type with
    | add => exact Pass.unrecorded_ofExcept (.error _)
    | set =>
      exact (Pass.unrecorded_request (.set d data (Mutation.writeMode mutation))).bind fun _ =>
        Pass.unrecorded_ofExcept (.ok _)
    | update =>
      exact (Pass.unrecorded_request (.update d data)).bind fun _ =>
        Pass.unrecorded_ofExcept (.ok _)
    | delete =>
      exact (Pass.unrecorded_request (.delete d)).bind fun _ => Pass.unrecorded_ofExcept (.ok _)

theorem unrecorded_perform (f : Field) (mutation : MutationPlan) (vars : Variables) :
    (Mutation.perform f mutation vars).Unrecorded := by
  unfold Mutation.perform
  refine (Pass.unrecorded_ofExcept _).bind fun type => ?_
  refine (Pass.unrecorded_ofExcept _).bind fun data => ?_
  refine (Pass.unrecorded_ofExcept _).bind fun reference => ?_
  refine (unrecorded_write mutation type data reference).bind fun written => ?_
  cases written with
  | some d =>
    exact (Pass.unrecorded_request (.getDocument d .default)).bind fun _ =>
      Pass.unrecorded_ofExcept (.ok _)
  | none => exact Pass.unrecorded_ofExcept (.ok _)

/-- A collection that is followed is accounted for by its query. -/
theorem accounts_of_follow {fetch : Fetch} (hasks : fetch.subscribe = f.asksForUpdates vars)
    (h : (follow f fetch parent exports).run state = (.ok resolved, state')) :
    ∃ calls, Accounts vars state [⟨f, calls⟩] state' := by
  cases parent with
  | none => cases h
  | some entity =>
    obtain ⟨query, snapshots, -, hread, htargets, -⟩ := exists_of_fetchCollection h
    rw [hasks] at htargets
    exact ⟨_, accounts_of_fetch (r := .getQuery query fetch.source) rfl hread htargets⟩

/-- What is done for a branch is accounted for by one visit. -/
theorem accounts_of_resolveBranch (hplan : Plan.ofField vars f = .ok plan)
    (h : (resolveBranch vars parent f exports plan).run state = (.ok resolved, state')) :
    ∃ calls, Accounts vars state [⟨f, calls⟩] state' := by
  have hasks := Plan.asksForUpdates_of_ofField hplan
  cases plan with
  | query rootKind fetch =>
    obtain ⟨reference, between, hconfig, h⟩ := Pass.exists_of_run_bind h
    obtain ⟨-, rfl⟩ := Pass.eq_of_run_ofConfig hconfig
    cases reference with
    | collection collection =>
      obtain ⟨query, snapshots, -, hread, htargets, -⟩ := exists_of_fetchCollection h
      rw [show fetch.subscribe = _ from hasks] at htargets
      exact ⟨_, accounts_of_fetch (r := .getQuery query fetch.source) rfl hread htargets⟩
    | document d =>
      obtain ⟨snapshot, hread, htargets, -⟩ := exists_of_fetchDocument h
      rw [show fetch.subscribe = _ from hasks] at htargets
      exact ⟨_, accounts_of_fetch (r := .getDocument d fetch.source) rfl hread htargets⟩
  | mutation mutation =>
    have hmakes : Pass.Makes Requests.documents (Mutation.perform f mutation vars) :=
      Mutation.makes_perform (fun _ _ hr => .inl hr) fun _ _ _ _ hr =>
        .inr (Request.writes_of_written? hr)
    exact ⟨_, accounts_of_unrecorded hmakes (unrecorded_perform f mutation vars) hasks.symm h⟩
  | ref fetch => exact accounts_of_follow hasks h
  | leaf leaf => exact accounts_of_follow hasks h
  | none => exact accounts_of_follow hasks h

/-! ### Visits of a pass -/

/-- Whatever a branch found, completing the selection below the field is a series of visits. -/
def VisitedBelow (vars : Variables) (f : Field) : Prop :=
  ∀ {exports : Exports} {resolved : Resolved} {state state' : PassState} {value : Json},
    (complete vars exports f.selection resolved).run state = (.ok value, state') →
      ∃ visits, VisitsBelow vars exports f.selection state.client resolved visits state'.client ∧
        Accounts vars state visits state'

variable {fields rest : List Field} {slots : List Slot} {values : List Json} {value : Json}

theorem visits_of_branch (hbelow : VisitedBelow vars f) (hplan : Plan.ofField vars f = .ok plan)
    (h : (resolveField vars parent f (.branch plan exports)).run state = (.ok value, state')) :
    ∃ resolved found calls below, Finds vars parent f exports plan state.client resolved found ∧
      found.log = state.client.log ++ calls ∧
      VisitsBelow vars exports f.selection found resolved below state'.client ∧
      Accounts vars state (⟨f, calls⟩ :: below) state' := by
  rw [resolveField_branch] at h
  obtain ⟨resolved, between, hresolve, h⟩ := Pass.exists_of_run_bind h
  have hfinds := finds_of_resolveBranch hresolve
  obtain ⟨calls, haccounts⟩ := accounts_of_resolveBranch hplan hresolve
  have hcalls : between.client.log = state.client.log ++ calls := by
    rw [haccounts.log, List.flatMap_singleton]
  cases hleaf : f.isLeaf with
  | true =>
    rw [hleaf, if_pos rfl] at h
    obtain ⟨-, rfl⟩ := Pass.eq_of_run_pure h
    have hnone : f.selection = [] := List.isEmpty_iff.1 hleaf
    refine ⟨resolved, between.client, calls, [], hfinds, hcalls, ?_, haccounts⟩
    rw [hnone]
    exact .bare
  | false =>
    rw [hleaf, if_neg (by decide)] at h
    obtain ⟨below, hvisits, hrest⟩ := hbelow h
    exact ⟨resolved, between.client, calls, below, hfinds, hcalls, hvisits, haccounts.trans hrest⟩

/-- Planned fields that are resolved in order are visited in order. -/
theorem visits_of_resolveFields (hbelow : ∀ f ∈ fields, VisitedBelow vars f)
    (hslots : planFields vars parent exports fields = .ok slots)
    (h : (resolveFields vars parent fields slots).run state = (.ok values, state')) :
    ∃ visits, Visits vars parent exports state.client fields visits state'.client ∧
      Accounts vars state visits state' := by
  induction fields generalizing exports slots values state with
  | nil =>
    obtain rfl : [] = slots := Except.ok.inj hslots
    rw [resolveFields] at h
    · obtain ⟨-, rfl⟩ := Pass.eq_of_run_pure h
      exact ⟨[], .nil, .refl vars state⟩
    · intro f rest slot slots hcons
      cases hcons
  | cons f rest ih =>
    have hrestBelow : ∀ g ∈ rest, VisitedBelow vars g := fun g hg =>
      hbelow g (List.mem_cons_of_mem _ hg)
    obtain ⟨plan, hplan,
        ⟨hbranch, slots', rfl, hrest⟩ | ⟨hleaf, entity, slots', rfl, rfl, hrest⟩⟩ :=
      exists_of_planFields_cons hslots
    · rw [resolveFields] at h
      obtain ⟨value, between, hvalue, h⟩ := Pass.exists_of_run_bind h
      obtain ⟨values', last, hvalues, h⟩ := Pass.exists_of_run_bind h
      obtain ⟨-, rfl⟩ := Pass.eq_of_run_pure h
      obtain ⟨resolved, found, calls, below, hfinds, hcalls, hvisits, haccounts⟩ :=
        visits_of_branch (hbelow f List.mem_cons_self) hplan hvalue
      obtain ⟨visits, hafter, haccounts'⟩ := ih hrestBelow hrest hvalues
      exact ⟨_, .branch hplan hbranch hfinds hcalls hvisits hafter, haccounts.trans haccounts'⟩
    · rw [resolveFields, resolveField] at h
      obtain ⟨value, between, hvalue, h⟩ := Pass.exists_of_run_bind h
      obtain ⟨-, rfl⟩ := Pass.eq_of_run_pure hvalue
      obtain ⟨values', last, hvalues, h⟩ := Pass.exists_of_run_bind h
      obtain ⟨-, rfl⟩ := Pass.eq_of_run_pure h
      obtain ⟨visits, hafter, haccounts⟩ := ih hrestBelow hrest hvalues
      exact ⟨visits, .leaf hplan hleaf hafter, haccounts⟩

theorem visits_of_resolveSelection (hbelow : ∀ f ∈ fields, VisitedBelow vars f)
    (h : (resolveSelection vars parent exports fields).run state = (.ok value, state')) :
    ∃ visits, Visits vars parent exports state.client fields visits state'.client ∧
      Accounts vars state visits state' := by
  obtain ⟨slots, between, hplanned, h⟩ := Pass.exists_of_run_bind h
  obtain ⟨hslots, rfl⟩ := Pass.eq_of_run_ofExcept hplanned
  obtain ⟨values, last, hvalues, h⟩ := Pass.exists_of_run_bind h
  obtain ⟨-, rfl⟩ := Pass.eq_of_run_pure h
  exact visits_of_resolveFields hbelow hslots hvalues

theorem visits_of_mapM (hbelow : ∀ f ∈ fields, VisitedBelow vars f) {entities : List Entity}
    {items : List Json}
    (h : (entities.mapM fun entity => resolveSelection vars (some entity) exports fields).run
      state = (.ok items, state')) :
    ∃ visits, VisitsEach vars exports fields state.client entities visits state'.client ∧
      Accounts vars state visits state' := by
  induction entities generalizing items state with
  | nil =>
    obtain ⟨-, rfl⟩ := Pass.eq_of_run_pure h
    exact ⟨[], .nil, .refl vars state⟩
  | cons entity entities ih =>
    rw [List.mapM_cons] at h
    obtain ⟨object, between, hobject, h⟩ := Pass.exists_of_run_bind h
    obtain ⟨items', last, hitems, h⟩ := Pass.exists_of_run_bind h
    obtain ⟨-, rfl⟩ := Pass.eq_of_run_pure h
    obtain ⟨visits, hvisits, haccounts⟩ := visits_of_resolveSelection hbelow hobject
    obtain ⟨visits', hrest, haccounts'⟩ := ih hitems
    exact ⟨_, .cons hvisits hrest, haccounts.trans haccounts'⟩

/-- Every branch is completed by visits: by induction on the selections. -/
theorem visitedBelow (vars : Variables) (f : Field) : VisitedBelow vars f := by
  induction f using Field.selection_induction with
  | h f ih =>
    intro exports resolved state state' value h
    cases resolved with
    | entity entity =>
      obtain ⟨visits, hvisits, haccounts⟩ := visits_of_resolveSelection ih h
      exact ⟨visits, .document hvisits, haccounts⟩
    | entities entities =>
      obtain ⟨items, last, hitems, h⟩ := Pass.exists_of_run_bind h
      obtain ⟨-, rfl⟩ := Pass.eq_of_run_pure h
      obtain ⟨visits, hvisits, haccounts⟩ := visits_of_mapM ih hitems
      exact ⟨visits, .documents hvisits, haccounts⟩
    | deleted typename id =>
      obtain ⟨-, rfl⟩ := Pass.eq_of_run_pure h
      exact ⟨[], .deletion, .refl vars state⟩

/-- Tracking is faithful. The recordings can be left out of a pass, and whoever leaves them out
comes to the same response by the same calls, with the same client afterwards. If a pass succeeds,
it is a series of visits to fields that makes all its calls, and the recorded targets are those that
were fetched on visits to fields that ask for updates, in order of first fetch, without one that is
the same as an earlier one. -/
theorem tracked_of_execute (config : Config) (o : Operation) (c : Client) :
    (∃ untracked, (pass config o).Erases untracked) ∧
    (∀ untracked, (pass config o).Erases untracked →
      untracked.run ⟨c, []⟩ = ((execute config o c).response, ⟨(execute config o c).client, []⟩)) ∧
    ∀ data, (execute config o c).response = .ok data →
      ∃ visits,
        Visits o.vars none [] c (prepare config o).selection visits (execute config o c).client ∧
        (execute config o c).client.log = c.log ++ visits.flatMap Visit.calls ∧
        (execute config o c).targets =
          ((visits.flatMap (Visit.targets o.vars)).eraseDupsBy
            fun target earlier => earlier.same target) ∧
        (execute config o c).targets.Pairwise fun earlier target =>
          earlier.same target = false := by
  refine ⟨Pass.exists_erases (makes_documents config o),
    fun untracked h => h.run ⟨c, []⟩ [], fun data h => ?_⟩
  have hrun : (resolveSelection (prepare config o).vars none [] (prepare config o).selection).run
      ⟨c, []⟩ = (.ok data, ⟨(execute config o c).client, (execute config o c).targets⟩) :=
    Prod.ext h rfl
  rw [vars_prepare] at hrun
  obtain ⟨visits, hvisits, haccounts⟩ :=
    visits_of_resolveSelection (fun f _ => visitedBelow o.vars f) hrun
  have htargets : (execute config o c).targets =
      (visits.flatMap (Visit.targets o.vars)).foldl Pass.note [] := haccounts.targets
  refine ⟨visits, hvisits, haccounts.log, ?_, ?_⟩
  · rw [htargets, Pass.foldl_note_nil]
  · rw [htargets]
    exact Pass.pairwise_foldl_note .nil _

/-- The query for all users, with updates. -/
def watchedUsers : Directive := usersQuery.withArgument "subscribe" (.literal (.bool true))

/-- An operation that watches all users under two keys, and writes one of them. -/
def watchUsersTwice : Operation :=
  usersOperation
    [.mk "users" (some "all") [] [watchedUsers] [.leaf "name"],
      .mk "users" (some "again") [] [watchedUsers] [.leaf "name"],
      .mk "renameUser" none []
        [⟨"mutation", [("mutationType", .literal (.string "set")),
          ("path", .literal (.string "users/u1")), ("rootType", .literal (.string "document")),
          ("subscribe", .literal (.bool true)),
          ("dataArg", .literal (.object [("name", .string "Grace")]))]⟩]
        [.leaf "name"]]

/-- It reads three times, and has one target: the query that it makes twice. -/
theorem tracked_of_execute_watchUsersTwice :
    (∃ untracked, (pass {} watchUsersTwice).Erases untracked ∧
      (untracked.run ⟨userClient, []⟩).2.client =
        (execute {} watchUsersTwice userClient).client) ∧
    ((execute {} watchUsersTwice userClient).client.log.map Call.kind =
      [.getQuery, .getQuery, .set, .getDocument]) ∧
    (execute {} watchUsersTwice userClient).targets.length = 1 ∧
    ∃ visits,
      Visits watchUsersTwice.vars none [] userClient (prepare {} watchUsersTwice).selection visits
        (execute {} watchUsersTwice userClient).client ∧
      (execute {} watchUsersTwice userClient).targets =
        ((visits.flatMap (Visit.targets watchUsersTwice.vars)).eraseDupsBy
          fun target earlier => earlier.same target) := by
  obtain ⟨⟨untracked, herases⟩, hrun, htracked⟩ :=
    tracked_of_execute {} watchUsersTwice userClient
  have hok : (execute {} watchUsersTwice userClient).response.isOk = true := by decide +kernel
  rcases hresponse : (execute {} watchUsersTwice userClient).response with e | data
  · rw [hresponse] at hok
    cases hok
  · obtain ⟨visits, hvisits, -, htargets, -⟩ := htracked data hresponse
    refine ⟨⟨untracked, herases, ?_⟩, by decide +kernel, by decide +kernel, visits, hvisits,
      htargets⟩
    rw [hrun untracked herases]

end Executor

end LiveDocs
