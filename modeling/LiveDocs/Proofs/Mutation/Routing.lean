import LiveDocs.Proofs.Mutation
import LiveDocs.Proofs.Pass.Errors

/-!
# How mutations are routed

A mutation either turns out to be wrong before it makes any call, or it makes one write of its type
to the place where it goes: an `add` goes to the collection that its path leads to, and any other
type to a document, which the path leads to or the payload names. After a write that was answered
the document is read back, unless it was deleted, and that is the last call. Main statements:
`throws_or_aims`, a mutation is rejected at once or has a target; `perform_eq_of_writesBy`, a
mutation is its write and what comes after it; `routed_perform`.
-/

namespace LiveDocs

theorem EngineError.not_rejects_store (cause : StoreError) : ¬ (store cause).Rejects := by
  rintro ⟨⟩

namespace Mutation

variable {f : Field} {plan : MutationPlan} {vars : Variables} {type : MutationType}
  {data : Members} {reference : Reference}

/-! ### What mutations write -/

/-- The value that is taken for the payload: the one that is given inline, otherwise the argument of
the payload's name unless that is null, otherwise the variable of that name. -/
inductive Supplies (f : Field) (plan : MutationPlan) (vars : Variables) : Json → Prop where
  | inline {v : Json} (h : plan.payload = some v) : Supplies f plan vars v
  | argument {v : Json} (hinline : plan.payload = none)
      (h : (Bindings.get? plan.payloadName f.arguments).bind (·.value? vars) = some v)
      (hnull : v ≠ .null) : Supplies f plan vars v
  | variable {v : Json} (hinline : plan.payload = none)
      (hargument : ∀ w, (Bindings.get? plan.payloadName f.arguments).bind (·.value? vars) = some w →
        w = .null)
      (h : Bindings.get? plan.payloadName vars = some v) : Supplies f plan vars v

theorem supplies_of_payload? {v : Json} (h : payload? f plan vars = some v) :
    Supplies f plan vars v := by
  simp only [payload?, Option.orElse_eq_orElse, Option.orElse_eq_or, Option.or_eq_some_iff,
    Option.filter_eq_some_iff, Option.filter_eq_none_iff] at h
  have hnull : ∀ w : Json, (!w.isNull) = true ↔ w ≠ .null := fun w => by
    cases w <;> simp [Json.isNull]
  rcases h with h | ⟨hinline, ⟨h, hw⟩ | ⟨hargument, h⟩⟩
  · exact .inline h
  · exact .argument hinline h ((hnull v).1 hw)
  · refine .variable hinline (fun w hw => ?_) h
    exact not_not.1 fun hne => hargument w hw ((hnull w).2 hne)

/-- A payload is an object that the field, its plan or the variables supply. -/
theorem supplies_of_payload (h : payload f plan vars = .ok data) :
    Supplies f plan vars (.object data) := by
  unfold payload at h
  split at h
  · cases h
  · rename_i hdata
    obtain rfl := Except.ok.inj h
    exact supplies_of_payload? hdata
  · cases h

/-! ### Mutations that are rejected -/

/-- A mutation is rejected at once, or it has a type, a payload and a target. -/
theorem throws_or_aims (f : Field) (plan : MutationPlan) (vars : Variables) :
    (∃ e, EngineError.Rejects e ∧ perform f plan vars = throw e) ∨
      ∃ reference, Aims f plan vars reference := by
  rcases htype : plan.type with _ | type
  · refine .inl ⟨_, .config .mutationTypeMissing, ?_⟩
    rw [perform, htype]
    rfl
  rcases hdata : payload f plan vars with cause | data
  · refine .inl ⟨_, .config cause, ?_⟩
    rw [perform, htype, hdata]
    rfl
  rcases htarget : target f plan type data with e | reference
  · refine .inl ⟨e, rejects_of_target e htarget, ?_⟩
    rw [perform, htype, hdata, Option.elim_some, Pass.ofConfig_ok_bind, Pass.ofConfig_ok_bind,
      htarget]
    rfl
  exact .inr ⟨reference, type, data, htype, hdata, htarget⟩

/-! ### Writes -/

/-- How a document is set: the fields that are listed are merged, even if all are to be merged. -/
inductive SetsBy (plan : MutationPlan) : WriteMode → Prop where
  | fields {paths : List String} (h : plan.mergeFields = some paths) : SetsBy plan (.fields paths)
  | merge (hfields : plan.mergeFields = none) (h : plan.merge = true) : SetsBy plan .merge
  | replace (hfields : plan.mergeFields = none) (h : plan.merge = false) : SetsBy plan .replace

/-- The request by which a mutation of a type writes data to a reference. -/
inductive WritesBy (plan : MutationPlan) (data : Members) :
    {α : Type} → MutationType → Reference → Request α → Prop where
  | add (c : CollectionRef) : WritesBy plan data .add (.collection c) (.add c data)
  | set (d : DocumentRef) {mode : WriteMode} (h : SetsBy plan mode) :
      WritesBy plan data .set (.document d) (.set d data mode)
  | update (d : DocumentRef) : WritesBy plan data .update (.document d) (.update d data)
  | delete (d : DocumentRef) : WritesBy plan data .delete (.document d) (.delete d)

theorem setsBy_iff {mode : WriteMode} : SetsBy plan mode ↔ writeMode plan = mode := by
  constructor
  · rintro (h | ⟨hfields, h⟩ | ⟨hfields, h⟩)
    · rw [writeMode, h]
    · rw [writeMode, hfields, h]
      rfl
    · rw [writeMode, hfields, h]
      rfl
  · rintro rfl
    rcases hfields : plan.mergeFields with _ | paths
    · rcases hmerge : plan.merge with _ | _
      · rw [writeMode, hfields, hmerge]
        exact .replace hfields hmerge
      · rw [writeMode, hfields, hmerge]
        exact .merge hfields hmerge
    · rw [writeMode, hfields]
      exact .fields hfields

theorem exists_writesBy (hfits : type = .add ↔ reference.kind = .collection) :
    ∃ (α : Type) (r : Request α), WritesBy plan data type reference r := by
  cases reference with
  | collection c =>
    obtain rfl := hfits.2 rfl
    exact ⟨_, _, .add c⟩
  | document d =>
    cases type with
    | add => cases hfits.1 rfl
    | set => exact ⟨_, _, .set d (setsBy_iff.2 rfl)⟩
    | update => exact ⟨_, _, .update d⟩
    | delete => exact ⟨_, _, .delete d⟩

/-- A mutation is its write, and then what is done with the document that was written. -/
theorem perform_eq_of_writesBy {α : Type} {r : Request α} (htype : plan.type = some type)
    (hdata : payload f plan vars = .ok data) (htarget : target f plan type data = .ok reference)
    (hr : WritesBy plan data type reference r) :
    ∃ document : α → DocumentRef, (∀ a, r.wrote? a = some (document a)) ∧
      perform f plan vars = r.pass >>= fun a => readBack f plan (document a) type := by
  rw [perform_eq_of_target htype hdata htarget]
  cases hr with
  | add c =>
    refine ⟨id, fun _ => rfl, ?_⟩
    rw [write, bind_map_left]
    rfl
  | set d hmode =>
    refine ⟨fun _ => d, fun _ => rfl, ?_⟩
    rw [write, setsBy_iff.1 hmode, bind_assoc]
    rfl
  | update d =>
    refine ⟨fun _ => d, fun _ => rfl, ?_⟩
    rw [write, bind_assoc]
    rfl
  | delete d =>
    refine ⟨fun _ => d, fun _ => rfl, ?_⟩
    rw [write, bind_assoc]
    rfl

/-! ### Runs -/

/-- A mutation that makes its write fails only because a call does. -/
theorem failsWith_readBack (type : MutationType) (d : DocumentRef) :
    Pass.FailsWith (fun e => ¬ e.Rejects) (readBack f plan d type) := by
  cases type with
  | delete => exact .pure _
  | add | set | update =>
    exact .bind (.call EngineError.not_rejects_store _ _) fun _ => .pure _

/-- What is selected below a deleted document needs no calls. -/
theorem state_resolveField_of_delete (htype : plan.type = some .delete) (parent : Option Entity)
    (exports : Exports) (state : PassState) :
    ((Executor.resolveField vars parent f (.branch (.mutation plan) exports)).run state).2 =
      ((perform f plan vars).run state).2 := by
  rw [Executor.resolveField_branch]
  rcases hrun : (perform f plan vars).run state with ⟨e | resolved, between⟩
  · exact congrArg Prod.snd (Pass.run_bind_error hrun _)
  · obtain ⟨type, data, reference, written, after, hplanned, -, htarget, hwrite, hafter⟩ :=
      Executor.exists_of_perform hrun
    obtain rfl : .delete = type := Option.some.inj (htype.symm.trans hplanned)
    obtain ⟨hdelete, -⟩ | ⟨-, d, -, -, rfl⟩ :=
      Executor.exists_of_write (kind_of_target htarget) hwrite
    · exact absurd rfl hdelete
    · obtain ⟨d', snapshot, hd, -, -⟩ | ⟨-, rfl, rfl⟩ := hafter
      · cases hd
      · refine (congrArg Prod.snd (Pass.run_bind_ok hrun _)).trans ?_
        split <;> rfl

/-- What holds of a run of a mutation that gets as far as its write. -/
structure Routed (f : Field) (plan : MutationPlan) (vars : Variables) (state : PassState)
    (type : MutationType) (data : Members) (reference : Reference) {α : Type} (r : Request α)
    (rest : List Call) : Prop where
  planned : plan.type = some type
  given : Supplies f plan vars (.object data)
  destination : Destination f plan data type reference
  request : WritesBy plan data type reference r
  /-- The write is the first call, and these are the others. -/
  calls : ((perform f plan vars).run state).2.client.log = state.client.log ++ r.call :: rest
  refused : ∀ e, (state.client.ask r).1 = .error e → rest = []
  /-- Once the write is answered, the document that was written is read back, or was deleted. -/
  answered : ∀ a, (state.client.ask r).1 = .ok a →
    ∃ d, r.wrote? a = some d ∧ rest = followUp type d
  /-- What is selected below a deleted document needs no calls. -/
  completed : type = .delete → ∀ parent exports,
    ((Executor.resolveField vars parent f (.branch (.mutation plan) exports)).run state).2 =
      ((perform f plan vars).run state).2

/-- A write that is followed by reading back makes these calls. -/
theorem exists_log_perform {α : Type} {r : Request α} {document : α → DocumentRef}
    (hperform : perform f plan vars = r.pass >>= fun a => readBack f plan (document a) type)
    (state : PassState) :
    ∃ rest, ((perform f plan vars).run state).2.client.log = state.client.log ++ r.call :: rest ∧
      (∀ e, (state.client.ask r).1 = .error e → rest = []) ∧
      ∀ a, (state.client.ask r).1 = .ok a → rest = followUp type (document a) := by
  have hlog : (state.client.ask r).2.log = state.client.log ++ [r.call] :=
    state.client.log_perform ..
  rw [hperform]
  rcases hask : state.client.ask r with ⟨e | a, client⟩
  · refine ⟨[], ?_, fun _ _ => rfl, nofun⟩
    rw [Pass.run_bind_error (Pass.run_of_refused hask)]
    rwa [hask] at hlog
  · refine ⟨followUp type (document a), ?_, nofun, fun b hb => ?_⟩
    · rw [Pass.run_bind_ok (Pass.run_of_ask hask), Pass.log_run (makes_readBack ..),
        calls_readBack, List.append_cons]
      rw [hask] at hlog
      exact congrArg (· ++ followUp type (document a)) hlog
    · obtain rfl := Except.ok.inj hb
      rfl

/-- A mutation that is not rejected at once gets as far as its write, and then fails only because a
call does. -/
theorem routed_of_aims (h : Aims f plan vars reference) :
    Pass.FailsWith (fun e => ¬ e.Rejects) (perform f plan vars) ∧ ∀ state,
      ∃ (type : MutationType) (data : Members) (α : Type) (r : Request α) (rest : List Call),
        Routed f plan vars state type data reference r rest := by
  obtain ⟨type, data, htype, hdata, htarget⟩ := h
  obtain ⟨α, r, hr⟩ := exists_writesBy (kind_of_target htarget)
  obtain ⟨document, hdocument, hperform⟩ := perform_eq_of_writesBy htype hdata htarget hr
  constructor
  · rw [hperform]
    exact .bind (.call EngineError.not_rejects_store _ _) fun a => failsWith_readBack type _
  · intro state
    obtain ⟨rest, hlog, hrefused, hanswered⟩ := exists_log_perform hperform state
    have hread : ∀ a, (state.client.ask r).1 = .ok a →
        ∃ d, r.wrote? a = some d ∧ rest = followUp type d :=
      fun a ha => ⟨document a, hdocument a, hanswered a ha⟩
    refine ⟨type, data, α, r, rest, htype, supplies_of_payload hdata,
      destination_of_target htarget, hr, hlog, hrefused, hread, ?_⟩
    rintro rfl parent exports
    exact state_resolveField_of_delete htype parent exports state

/-- A mutation that is rejected makes no calls at all, and any other makes one write of its type
first, to the place where it goes, and then at most reads the document back. -/
theorem routed_perform (f : Field) (plan : MutationPlan) (vars : Variables) (state : PassState) :
    ((∃ e, ((perform f plan vars).run state).1 = .error e ∧ e.Rejects) →
      ((perform f plan vars).run state).2 = state) ∧
    ((¬ ∃ e, ((perform f plan vars).run state).1 = .error e ∧ e.Rejects) →
      ∃ (type : MutationType) (data : Members) (reference : Reference) (α : Type)
        (r : Request α) (rest : List Call),
        Routed f plan vars state type data reference r rest) := by
  rcases throws_or_aims f plan vars with ⟨e, hrejects, hperform⟩ | ⟨reference, haims⟩
  · have hrun : (perform f plan vars).run state = (.error e, state) := by
      rw [hperform]
      rfl
    rw [hrun]
    exact ⟨fun _ => rfl, fun hnot => absurd ⟨e, rfl, hrejects⟩ hnot⟩
  · obtain ⟨hfails, hrouted⟩ := routed_of_aims haims
    obtain ⟨type, data, α, r, rest, h⟩ := hrouted state
    refine ⟨?_, fun _ => ⟨type, data, reference, α, r, rest, h⟩⟩
    rintro ⟨e, he, hrejects⟩
    exact absurd hrejects (hfails state e he)

end Mutation

end LiveDocs
