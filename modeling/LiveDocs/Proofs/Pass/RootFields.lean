import LiveDocs.Proofs.Pass.Planning
import LiveDocs.Proofs.Pass.Reading

/-!
# Root fields in turn

Root fields share nothing but the store: none of them is read off a document, so none exports to
another. If all of them can be planned, an operation comes to the same as its root fields executed
as operations of their own, one after the other, up to the first that fails. If one of them cannot,
the operation fails before any call is made. Main statement: `execute_eq_inTurn`.
-/

namespace LiveDocs

namespace Pass

/-- What a pass comes to and what it does to the client do not depend on the targets recorded
before. -/
theorem run_of_client {allowed : Requests} {α : Type} {p : Pass α} (hp : Makes allowed p)
    {state state' : PassState} (h : state.client = state'.client) :
    (p.run state).1 = (p.run state').1 ∧
      (p.run state).2.client = (p.run state').2.client := by
  induction hp generalizing state state' with
  | result r hr => exact ⟨rfl, h⟩
  | record target => exact ⟨rfl, h⟩
  | request r hr =>
    rw [run_request, run_request, h]
    exact ⟨rfl, rfl⟩
  | @bind _ _ p f _ _ ihp ihf =>
    obtain ⟨hresult, hclient⟩ := ihp h
    rcases hrun : p.run state with ⟨e | a, next⟩
    · rcases hrun' : p.run state' with ⟨e' | a', next'⟩
      · rw [hrun, hrun'] at hresult hclient
        obtain rfl := Except.error.inj hresult
        rw [run_bind_error hrun, run_bind_error hrun']
        exact ⟨rfl, hclient⟩
      · rw [hrun, hrun'] at hresult
        cases hresult
    · rcases hrun' : p.run state' with ⟨e' | a', next'⟩
      · rw [hrun, hrun'] at hresult
        cases hresult
      · rw [hrun, hrun'] at hresult hclient
        obtain rfl := Except.ok.inj hresult
        rw [run_bind_ok hrun, run_bind_ok hrun']
        exact ihf a hclient

end Pass

namespace Executor

variable {config : Config} {o : Operation} {c : Client}

theorem BranchSlot.fits {vars : Variables} {exports : Exports} {f : Field} {slot : Slot}
    (h : BranchSlot vars exports f slot) : Fits vars f slot := by
  obtain ⟨plan, hplan, -, rfl⟩ := h
  intro plan' exports' hslot
  obtain ⟨rfl, -⟩ := Slot.branch.inj hslot
  exact hplan

/-- An operation of root fields that can be planned resolves them, and puts their values under
their keys. -/
theorem execute_of_rootSlots {slots : List Slot}
    (h : List.Forall₂ (fun f => BranchSlot o.vars [] (prepareField config f)) o.selection slots) :
    (execute config o c).response =
        ((resolveFields o.vars none (o.selection.map (prepareField config)) slots).run
          ⟨c, []⟩).1.map (fun values => .object
            (Bindings.ofPairs ((o.selection.map Field.responseKey).zip values))) ∧
      (execute config o c).client =
        ((resolveFields o.vars none (o.selection.map (prepareField config)) slots).run
          ⟨c, []⟩).2.client := by
  have hslots : planFields o.vars none [] (o.selection.map (prepareField config)) = .ok slots :=
    planFields_none_iff.2 (List.forall₂_map_left_iff.2 h)
  have hpass : resolveSelection o.vars none [] (o.selection.map (prepareField config)) =
      resolveFields o.vars none (o.selection.map (prepareField config)) slots >>= fun values =>
        pure (.object (Bindings.ofPairs ((o.selection.map Field.responseKey).zip values))) := by
    rw [resolveSelection, hslots, Pass.ofExcept_ok_bind,
      ← map_responseKey_prepareField config]
    rfl
  rw [execute, vars_prepare, selection_prepare, hpass]
  rcases hrun : (resolveFields o.vars none (o.selection.map (prepareField config)) slots).run
      ⟨c, []⟩ with ⟨e | values, state⟩
  · rw [Pass.run_bind_error hrun]
    exact ⟨rfl, rfl⟩
  · rw [Pass.run_bind_ok hrun]
    exact ⟨rfl, rfl⟩

/-- Executes root fields as operations of their own, one after the other, up to the first that
fails. Each adds its entries to the response. -/
def inTurn (config : Config) (o : Operation) :
    List Field → Members → Client → Except EngineError Json × Client
  | [], entries, c => (.ok (.object entries), c)
  | f :: rest, entries, c =>
    let outcome := execute config { o with selection := [f] } c
    match outcome.response with
    | .error e => (.error e, outcome.client)
    | .ok response =>
      inTurn config o rest (entries.insertAll (response.members?.getD [])) outcome.client

theorem execute_singleton {f : Field} {slot : Slot}
    (h : BranchSlot o.vars [] (prepareField config f) slot) :
    (execute config { o with selection := [f] } c).response =
        ((resolveField o.vars none (prepareField config f) slot).run ⟨c, []⟩).1.map
          (fun value => .object [(f.responseKey, value)]) ∧
      (execute config { o with selection := [f] } c).client =
        ((resolveField o.vars none (prepareField config f) slot).run ⟨c, []⟩).2.client := by
  obtain ⟨hresponse, hclient⟩ := @execute_of_rootSlots config { o with selection := [f] } c [slot]
    (.cons h .nil)
  have hfields : resolveFields o.vars none [prepareField config f] [slot] =
      resolveField o.vars none (prepareField config f) slot >>= fun value => pure [value] := by
    simp only [resolveFields, pure_bind]
  simp only [List.map_cons, List.map_nil, hfields] at hresponse hclient
  rw [hresponse, hclient]
  rcases hrun : (resolveField o.vars none (prepareField config f) slot).run ⟨c, []⟩ with
    ⟨e | value, state⟩
  · rw [Pass.run_bind_error hrun]
    exact ⟨rfl, rfl⟩
  · rw [Pass.run_bind_ok hrun]
    exact ⟨rfl, rfl⟩

/-- Resolving root fields one after the other is executing them in turn. -/
theorem inTurn_eq {fields : List Field} {slots : List Slot}
    (h : List.Forall₂ (fun f => BranchSlot o.vars [] (prepareField config f)) fields slots)
    (entries : Members) (state : PassState) :
    inTurn config o fields entries state.client =
      (((resolveFields o.vars none (fields.map (prepareField config)) slots).run state).1.map
          (fun values => .object (entries.insertAll ((fields.map Field.responseKey).zip values))),
        ((resolveFields o.vars none (fields.map (prepareField config)) slots).run
          state).2.client) := by
  induction h generalizing entries state with
  | nil =>
    simp only [List.map_nil, resolveFields]
    rfl
  | @cons f slot fields slots hslot hslots ih =>
    obtain ⟨hresponse, hclient⟩ := execute_singleton (c := state.client) hslot
    -- the targets that the fields before it recorded do not matter to a field
    have hmakes : Pass.Makes Requests.documents
        (resolveField o.vars none (prepareField config f) slot) :=
      (makes_resolveField_and_resolveFields (fun _ _ hr => .inl hr) o.vars).1 none _ slot
        (fun _ _ _ _ _ _ hr => .inr hr) hslot.fits
    have hsame : (⟨state.client, []⟩ : PassState).client = state.client := rfl
    obtain ⟨hresult, hafter⟩ := Pass.run_of_client hmakes hsame
    rw [hresult] at hresponse
    rw [hafter] at hclient
    rw [inTurn, hresponse, hclient, List.map_cons, List.map_cons, resolveFields]
    rcases hrun : (resolveField o.vars none (prepareField config f) slot).run state with
      ⟨e | value, next⟩
    · rw [Pass.run_bind_error hrun]
      rfl
    · rw [Pass.run_bind_ok hrun]
      change inTurn config o fields (entries.insert f.responseKey value) next.client = _
      rw [ih]
      rcases hrest : (resolveFields o.vars none (fields.map (prepareField config)) slots).run
        next with ⟨e | values, last⟩
      · rw [Pass.run_bind_error hrest]
        rfl
      · rw [Pass.run_bind_ok hrest]
        rfl

/-- An operation with a root field that cannot be resolved fails before it makes a call. Otherwise
its response and its client are those of its root fields executed in turn. -/
theorem execute_eq_inTurn (config : Config) (o : Operation) (c : Client) :
    ((∃ f ∈ o.selection, f.Unresolvable o.vars) →
      (∃ e, (execute config o c).response = .error e) ∧ (execute config o c).client = c) ∧
    ((∀ f ∈ o.selection, ¬ f.Unresolvable o.vars) →
      ((execute config o c).response, (execute config o c).client) =
        inTurn config o o.selection [] c) := by
  have hbranches : (∃ slots,
      planFields o.vars none [] (o.selection.map (prepareField config)) = .ok slots) ↔
        ∀ f ∈ o.selection, f.Branches o.vars := by
    rw [exists_planFields_none_iff, List.forall_mem_map]
    exact forall₂_congr fun f _ => branches_prepareField
  constructor
  · rintro ⟨f, hf, hunresolvable⟩
    rw [execute, vars_prepare, selection_prepare, resolveSelection]
    cases hslots : planFields o.vars none [] (o.selection.map (prepareField config)) with
    | error e => exact ⟨⟨e, rfl⟩, rfl⟩
    | ok slots =>
      exact absurd (hbranches.1 ⟨slots, hslots⟩ f hf) (Field.not_branches_iff.2 hunresolvable)
  · intro h
    obtain ⟨slots, hslots⟩ := hbranches.2 fun f hf =>
      not_not.1 fun hnot => h f hf (Field.not_branches_iff.1 hnot)
    have hroot := List.forall₂_map_left_iff.1 (planFields_none_iff.1 hslots)
    obtain ⟨hresponse, hclient⟩ := execute_of_rootSlots (c := c) hroot
    rw [inTurn_eq hroot [] ⟨c, []⟩, hresponse, hclient]
    rfl

end Executor

end LiveDocs
