import LiveDocs.Proofs.Pass.Branches
import LiveDocs.Proofs.Pass.Planning
import LiveDocs.Proofs.Query.Building

/-!
# Errors of fields

With what a field can fail. A plan fails for what stands in a directive, and a branch for what it
asks for: the arguments of a query, the kind of a root, the payload of a mutation, or a call that
fails. The two kinds of configuration errors have nothing in common. Main statements:
`errorsIn_ofField`, `failsWith_resolveBranch`, and `run_resolveBranch_of_type_eq_none`, a mutation
that has no type fails with an error of its own.
-/

namespace LiveDocs

/-! ### Errors of passes -/

namespace Pass

variable {α β : Type} {P : EngineError → Prop}

/-- A sequence that fails does so in its first part, or in its second part after the first. -/
theorem error_of_run_bind {p : Pass α} {f : α → Pass β} {state state' : PassState}
    {e : EngineError} (h : (p >>= f).run state = (.error e, state')) :
    p.run state = (.error e, state') ∨
      ∃ a between, p.run state = (.ok a, between) ∧ (f a).run between = (.error e, state') := by
  rcases hrun : p.run state with ⟨e' | a, between⟩
  · rw [run_bind_error hrun] at h
    obtain ⟨he, rfl⟩ := Prod.mk.inj h
    exact .inl (by rw [Except.error.inj he])
  · rw [run_bind_ok hrun] at h
    exact .inr ⟨a, between, rfl, h⟩

/-- Whatever a pass fails with is such an error. -/
def FailsWith (P : EngineError → Prop) (p : Pass α) : Prop :=
  ∀ state, ErrorsIn P (p.run state).1

theorem FailsWith.pure (a : α) : FailsWith P (pure a : Pass α) := fun _ => .ok a

theorem FailsWith.throw {e : EngineError} (h : P e) : FailsWith P (throw e : Pass α) :=
  fun _ => .error h

theorem FailsWith.bind {p : Pass α} {f : α → Pass β} (hp : FailsWith P p)
    (hf : ∀ a, FailsWith P (f a)) : FailsWith P (p >>= f) := by
  intro state e h
  rcases error_of_run_bind (Prod.ext h rfl) with herror | ⟨a, between, -, herror⟩
  · exact hp state e (congrArg Prod.fst herror)
  · exact hf a between e (congrArg Prod.fst herror)

theorem FailsWith.ofConfig {r : Except ConfigError α} (h : ErrorsIn (fun e => P (.config e)) r) :
    FailsWith P (Pass.ofConfig r) := by
  intro state
  cases r with
  | ok a => exact .ok a
  | error cause => exact .error (h cause rfl)

/-- A call fails with an error of the store. -/
theorem FailsWith.call (h : ∀ cause, P (.store cause)) (call : Call) (run : Store → Answer α) :
    FailsWith P (Pass.call call run) := by
  intro state
  change ErrorsIn P ((state.client.perform call run).1.mapError EngineError.store)
  cases (state.client.perform call run).1 with
  | ok a => exact .ok a
  | error cause => exact .error (h cause)

theorem FailsWith.recordThen {b : Bool} {target : ListenTarget} {q : Pass α}
    (h : FailsWith P q) :
    FailsWith P (do
      if b then record target
      q) := by
  cases b with
  | false => exact h
  | true => exact FailsWith.bind (p := record target) (fun _ => .ok ()) fun _ => h

end Pass

/-! ### Errors of directives -/

/-- The error is about what stands in a directive. -/
def ConfigError.OfDirective : ConfigError → Prop
  | unknownName _ _ => True
  | argument _ _ _ _ => True
  | exportKey _ => True
  | _ => False

namespace Directive

variable {d : Directive} {vars : Variables}

theorem errorsIn_string? (name : String) :
    ErrorsIn ConfigError.OfDirective (d.string? vars name) := by
  rw [string?]
  split
  · exact .ok _
  · exact .ok _
  · exact .ok _
  · exact .error trivial

theorem errorsIn_flag (name : String) : ErrorsIn ConfigError.OfDirective (d.flag vars name) := by
  rw [flag]
  split
  · exact .ok _
  · exact .ok _
  · exact .ok _
  · exact .error trivial

theorem errorsIn_strings? (name : String) :
    ErrorsIn ConfigError.OfDirective (d.strings? vars name) := by
  rw [strings?]
  split
  · exact .ok _
  · exact .ok _
  · refine .map _ (.mapM (fun item => ?_) _)
    split
    · exact .ok _
    · exact .error trivial
  · exact .error trivial

theorem errorsIn_named? {α : Type} (ofName? : String → Option α) (name : String) :
    ErrorsIn ConfigError.OfDirective (d.named? ofName? vars name) := by
  rw [named?]
  refine (errorsIn_string? name).bind fun word? => ?_
  cases word? with
  | none => exact .ok _
  | some word =>
    cases hword : ofName? word with
    | none =>
      simp only [hword]
      exact .error trivial
    | some a =>
      simp only [hword]
      exact .ok _

end Directive

theorem Plan.errorsIn_exportKeyOf (value : Option Json) :
    ErrorsIn ConfigError.OfDirective (exportKeyOf value) := by
  unfold exportKeyOf
  split
  · exact .ok _
  · exact .ok _
  · exact .ok _
  · exact .ok _
  · exact .ok _
  · exact .error trivial

open Directive in
/-- A field that has no plan has a directive that is wrong. -/
theorem Plan.errorsIn_ofField (vars : Variables) (f : Field) :
    ErrorsIn ConfigError.OfDirective (Plan.ofField vars f) := by
  rw [ofField]
  split
  · rw [ofQuery]
    exact (errorsIn_string? _).bind fun _ => (errorsIn_named? _ _).bind fun _ =>
      (errorsIn_string? _).bind fun _ => (errorsIn_flag _).bind fun _ =>
      (errorsIn_named? _ _).bind fun _ => .ok _
  · split
    · rw [ofMutation]
      exact (errorsIn_named? _ _).bind fun _ => (errorsIn_string? _).bind fun _ =>
        (errorsIn_named? _ _).bind fun _ => (errorsIn_string? _).bind fun _ =>
        (errorsIn_string? _).bind fun _ => (errorsIn_flag _).bind fun _ =>
        (errorsIn_strings? _).bind fun _ => .ok _
    · split
      · rw [ofRef]
        exact (errorsIn_string? _).bind fun _ => (errorsIn_string? _).bind fun _ =>
          (errorsIn_flag _).bind fun _ => (errorsIn_named? _ _).bind fun _ => .ok _
      · split
        · rw [ofLeaf]
          exact (errorsIn_exportKeyOf _).bind fun _ => (errorsIn_named? _ _).bind fun _ => .ok _
        · exact .ok _

/-! ### Errors of branches -/

/-- The error is about what a branch asks for, and not about what stands in a directive. -/
def ConfigError.OfBranch : ConfigError → Prop
  | rootTypeMissing => True
  | queryArgument _ _ _ => True
  | payloadMissing _ => True
  | payloadNotObject _ => True
  | idMissing _ _ => True
  | _ => False

theorem Query.errorsIn_build {scope : Scope} (args : QueryArguments) :
    ErrorsIn ConfigError.OfBranch (build scope args) := by
  intro e h
  obtain ⟨-, p, -, v, -, -, -, hcomplains⟩ := build_eq_error_iff.1 h
  cases hcomplains <;> exact trivial

theorem errorsIn_resolveReference (path : String) (rootKind : Option ReferenceKind) :
    ErrorsIn ConfigError.OfBranch (resolveReference path rootKind) := by
  cases rootKind with
  | none => exact .error trivial
  | some kind => exact .ok _

/-- If the error is about the configuration, it is about what a branch asks for. -/
def EngineError.OfBranch (e : EngineError) : Prop := ∀ cause, e = .config cause → cause.OfBranch

theorem EngineError.ofBranch_config {cause : ConfigError} (h : cause.OfBranch) :
    (EngineError.config cause).OfBranch := fun _ hcause => by
  obtain rfl := EngineError.config.inj hcause
  exact h

theorem EngineError.ofBranch_store (cause : StoreError) : (EngineError.store cause).OfBranch :=
  fun _ h => by cases h

namespace Mutation

variable {f : Field} {mutation : MutationPlan} {vars : Variables}

theorem errorsIn_payload : ErrorsIn ConfigError.OfBranch (payload f mutation vars) := by
  rw [payload]
  split
  · exact .error trivial
  · exact .ok _
  · exact .error trivial

theorem errorsIn_narrow {type : MutationType} {data : Members} (reference : Reference) :
    ErrorsIn ConfigError.OfBranch (narrow type data reference) := by
  cases reference with
  | document d => exact .ok _
  | collection c =>
    rw [narrow]
    split
    · exact .ok _
    · split
      · exact .ok _
      · exact .error trivial

theorem errorsIn_target {type : MutationType} {data : Members} :
    ErrorsIn EngineError.OfBranch (target f mutation type data) := by
  rw [target]
  refine ((errorsIn_resolveReference _ _).mapError fun _ => EngineError.ofBranch_config).bind
    fun reference => ((errorsIn_narrow reference).mapError fun _ =>
      EngineError.ofBranch_config).bind fun reference => .bind ?_ fun _ => .ok _
  exact (ErrorsIn.always _).mapError fun _ _ _ h => by cases h

/-- A mutation that has a type fails for another reason. -/
theorem failsWith_perform {type : MutationType} (htype : mutation.type = some type) :
    Pass.FailsWith EngineError.OfBranch (perform f mutation vars) := by
  rw [perform, htype]
  refine .bind (fun _ => .ok type) fun type => ?_
  refine .bind (.ofConfig (errorsIn_payload.mono fun _ => EngineError.ofBranch_config))
    fun data => ?_
  refine .bind (fun _ => errorsIn_target) fun reference => .bind ?_ fun written => ?_
  · cases reference with
    | collection c =>
      rw [write, map_eq_pure_bind]
      exact .bind (.call EngineError.ofBranch_store _ _) fun _ => .pure _
    | document d =>
      cases type with
      | add => exact .throw fun _ h => by cases h
      | set | update | delete =>
        exact .bind (.call EngineError.ofBranch_store _ _) fun _ => .pure _
  · cases written with
    | none => exact .pure _
    | some d => exact .bind (.call EngineError.ofBranch_store _ _) fun _ => .pure _

end Mutation

namespace Executor

variable {vars : Variables} {parent : Option Entity} {f : Field} {exports : Exports} {plan : Plan}

theorem failsWith_fetchCollection (collection : CollectionRef) (fetch : Fetch)
    (typename : String) :
    Pass.FailsWith EngineError.OfBranch (fetchCollection collection fetch typename exports) := by
  rw [fetchCollection]
  refine .bind (.ofConfig ((Query.errorsIn_build _).mono fun _ => EngineError.ofBranch_config))
    fun query => .recordThen ?_
  exact .bind (.call EngineError.ofBranch_store _ _) fun _ => .pure _

theorem failsWith_follow (fetch : Fetch) :
    Pass.FailsWith EngineError.OfBranch (follow f fetch parent exports) := by
  cases parent with
  | none => exact .throw fun _ h => by cases h
  | some entity => exact failsWith_fetchCollection _ _ _

/-- A branch fails for what it asks for, unless it is a mutation that has no type. -/
theorem failsWith_resolveBranch (h : ∀ m, plan = .mutation m → m.type ≠ none) :
    Pass.FailsWith EngineError.OfBranch (resolveBranch vars parent f exports plan) := by
  cases plan with
  | query rootKind fetch =>
    rw [resolveBranch]
    refine .bind (.ofConfig ((errorsIn_resolveReference _ _).mono fun _ =>
      EngineError.ofBranch_config)) fun reference => ?_
    cases reference with
    | collection c => exact failsWith_fetchCollection _ _ _
    | document d =>
      unfold fetchDocument
      exact .recordThen (.bind (.call EngineError.ofBranch_store _ _) fun _ => .pure _)
  | mutation m =>
    obtain ⟨type, htype⟩ := Option.ne_none_iff_exists'.1 (h m rfl)
    exact Mutation.failsWith_perform htype
  | ref fetch => exact failsWith_follow _
  | leaf leaf => exact failsWith_follow _
  | none => exact failsWith_follow _

/-- Without a type a mutation does nothing but fail. -/
theorem run_resolveBranch_of_type_eq_none {m : MutationPlan} (h : m.type = none)
    (state : PassState) :
    (resolveBranch vars parent f exports (.mutation m)).run state =
      (.error (.config .mutationTypeMissing), state) := by
  rw [resolveBranch, Mutation.perform, h]
  rfl

end Executor

end LiveDocs
