import LiveDocs.Proofs.Pass.Branches
import LiveDocs.Proofs.Pass.RootFields

/-!
# Recorded targets

A pass records a target where a fetch is planned with updates, just before it makes the fetch, and
takes none back. Main statements: `targets_run`, the targets of a pass only grow;
`targets_ne_nil_of_subscribes`, if a root field asks for updates then an operation that succeeds has
recorded a target.
-/

namespace LiveDocs

namespace Pass

variable {allowed : Requests} {α β : Type}

/-- A pass takes back no target. -/
theorem targets_run {p : Pass α} (hp : Makes allowed p) (state : PassState) :
    state.targets <+: (p.run state).2.targets := by
  induction hp generalizing state with
  | result r h => exact List.prefix_rfl
  | record target =>
    change _ <+: (if _ then _ else _)
    split
    · exact List.prefix_rfl
    · exact List.prefix_append _ _
  | request r h => exact List.prefix_rfl
  | @bind _ _ p f _ _ ihp ihf =>
    have hfirst := ihp state
    rcases hrun : p.run state with ⟨e | a, state'⟩
    · rw [hrun] at hfirst
      rw [run_bind_error hrun]
      exact hfirst
    · rw [hrun] at hfirst
      rw [run_bind_ok hrun]
      exact hfirst.trans (ihf a state')

/-- A pass that comes to something has recorded a target. -/
def Records (p : Pass α) : Prop :=
  ∀ (state state' : PassState) (a : α), p.run state = (.ok a, state') → state'.targets ≠ []

theorem records_record (target : ListenTarget) : Records (record target) := by
  intro state state' a h
  obtain rfl := congrArg Prod.snd h
  change (if _ then _ else _) ≠ []
  split
  · rename_i hany
    intro hnil
    rw [hnil] at hany
    cases hany
  · exact List.append_ne_nil_of_right_ne_nil _ (List.cons_ne_nil _ _)

theorem Records.bind {p : Pass α} (hp : Records p) {f : α → Pass β}
    (hf : ∀ a, Makes Requests.documents (f a)) : Records (p >>= f) := by
  intro state state' b h
  obtain ⟨a, between, hrun, hrest⟩ := exists_of_run_bind h
  -- what is recorded first stays
  have hprefix := targets_run (hf a) between
  rw [hrest] at hprefix
  exact fun hnil => hp _ _ _ hrun (List.prefix_nil.1 (hnil ▸ hprefix))

theorem Records.of_bind {p : Pass α} {f : α → Pass β} (hf : ∀ a, Records (f a)) :
    Records (p >>= f) := by
  intro state state' b h
  obtain ⟨a, between, -, hrest⟩ := exists_of_run_bind h
  exact hf a _ _ _ hrest

end Pass

/-- The field is a query that asks for updates. -/
def Field.Subscribes (vars : Variables) (f : Field) : Prop :=
  ∃ rootKind fetch, Plan.ofField vars f = .ok (.query rootKind fetch) ∧ fetch.subscribe = true

namespace Executor

variable {vars : Variables} {parent : Option Entity} {exports : Exports}

theorem makes_complete (selection : List Field) (resolved : Resolved) :
    Pass.Makes Requests.documents (complete vars exports selection resolved) := by
  have hbelow : ∀ entity : Entity,
      Pass.Makes Requests.documents (resolveSelection vars (some entity) exports selection) :=
    fun entity => makes_resolveSelection (fun _ _ hr => .inl hr) vars (some entity) exports
      fun _ _ _ _ _ _ hr => .inr hr
  cases resolved with
  | entity entity => exact hbelow entity
  | entities entities => exact (Pass.Makes.mapM hbelow entities).bind fun _ => Pass.Makes.pure _
  | deleted typename id => exact Pass.Makes.pure _

theorem records_resolveBranch {f : Field} {rootKind : Option ReferenceKind} {fetch : Fetch}
    (h : fetch.subscribe = true) :
    Pass.Records (resolveBranch vars parent f exports (.query rootKind fetch)) := by
  have hreads : ∀ α (r : Request α), r.Reads → Requests.documents α r := fun _ _ hr => .inl hr
  refine Pass.Records.of_bind fun reference => ?_
  cases reference with
  | collection c =>
    refine Pass.Records.of_bind fun query => ?_
    rw [if_pos h]
    exact (Pass.records_record (.query query)).bind fun _ =>
      (Pass.Makes.getQuery hreads query fetch.source).bind fun _ => Pass.Makes.pure _
  | document d =>
    simp only [fetchDocument]
    rw [if_pos h]
    exact (Pass.records_record (.document d)).bind fun _ =>
      (Pass.Makes.getDocument hreads d fetch.source).bind fun _ => Pass.Makes.pure _

theorem records_resolveField {f : Field} {rootKind : Option ReferenceKind} {fetch : Fetch}
    (h : fetch.subscribe = true) :
    Pass.Records (resolveField vars parent f (.branch (.query rootKind fetch) exports)) := by
  rw [resolveField_branch]
  refine (records_resolveBranch h).bind fun resolved => ?_
  split
  · exact Pass.Makes.pure _
  · exact makes_complete f.selection resolved

/-- A root field that asks for updates has its target recorded. -/
theorem records_resolveFields {fields : List Field} {slots : List Slot}
    (hslots : List.Forall₂ (BranchSlot vars exports) fields slots) {f : Field} (hf : f ∈ fields)
    (h : f.Subscribes vars) : Pass.Records (resolveFields vars none fields slots) := by
  have hmakes : ∀ {fields : List Field} {slots : List Slot},
      List.Forall₂ (BranchSlot vars exports) fields slots →
      Pass.Makes Requests.documents (resolveFields vars none fields slots) := fun hslots =>
    (makes_resolveField_and_resolveFields (fun _ _ hr => .inl hr) vars).2 none _ _
      (fun _ _ _ _ _ _ hr => .inr hr) (hslots.imp fun _ _ hslot => hslot.fits)
  induction hslots with
  | nil => cases hf
  | @cons g slot fields slots hslot hslots ih =>
    rw [resolveFields]
    rcases List.mem_cons.1 hf with rfl | hf
    · obtain ⟨plan, hplan, -, rfl⟩ := hslot
      obtain ⟨rootKind, fetch, hquery, hsubscribe⟩ := h
      obtain rfl := Except.ok.inj (hplan.symm.trans hquery)
      exact (records_resolveField hsubscribe).bind fun _ =>
        (hmakes hslots).bind fun _ => Pass.Makes.pure _
    · exact Pass.Records.of_bind fun _ => (ih hf).bind fun _ => Pass.Makes.pure _

/-- An operation with a root field that asks for updates records a target. -/
theorem targets_ne_nil_of_subscribes {config : Config} {o : Operation} {c : Client} {data : Json}
    (hresponse : (execute config o c).response = .ok data)
    (h : ∃ f ∈ o.selection, f.Subscribes o.vars) : (execute config o c).targets ≠ [] := by
  obtain ⟨f, hf, rootKind, fetch, hplan, hsubscribe⟩ := h
  have hprepared : prepareField config f ∈ (prepare config o).selection := by
    rw [selection_prepare]
    exact List.mem_map_of_mem hf
  have hsubscribes : (prepareField config f).Subscribes (prepare config o).vars := by
    rw [vars_prepare]
    exact ⟨rootKind, fetch, (ofField_prepareField config o.vars f).trans hplan, hsubscribe⟩
  have hrecords : Pass.Records (pass config o) := by
    rw [pass, resolveSelection]
    cases hslots : planFields (prepare config o).vars none [] (prepare config o).selection with
    | error e => exact fun _ _ _ hrun => by cases hrun
    | ok slots =>
      exact (records_resolveFields (planFields_none_iff.1 hslots) hprepared hsubscribes).bind
        fun _ => Pass.Makes.pure _
  exact hrecords _ _ _ (Prod.ext hresponse rfl)

end Executor

end LiveDocs
