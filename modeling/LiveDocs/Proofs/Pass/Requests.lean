import LiveDocs.Proofs.Pass.Planning
import LiveDocs.Proofs.Request

/-!
# The requests of a pass

A pass reaches the store through requests only, and between them it is a function of the answers.
`Pass.Makes allowed p` says how `p` is put together and which requests it may make, so that a
property of passes is proved by one case for each part: a result that needs no store, a recorded
target, a request, and two passes in sequence. Errors that need no store are no abort signals.

Main statements: `makes_documents`, an operation makes reads and writes only; `makes_reads`, it
makes reads only if none of its fields is planned as a mutation.
-/

namespace LiveDocs

/-- A set of requests. -/
abbrev Requests := (α : Type) → Request α → Prop

/-- The requests that read documents. -/
def Requests.reads : Requests := fun _ r => r.Reads

/-- The requests that read or write documents. -/
def Requests.documents : Requests := fun _ r => r.Reads ∨ r.Writes

/-- The pass that makes one request. -/
def Request.pass {α : Type} (r : Request α) : Pass α := Pass.call r.call r.run

/-- How a pass is put together, and which requests it may make. -/
inductive Pass.Makes (allowed : Requests) : {α : Type} → Pass α → Prop where
  | result {α : Type} (r : Except EngineError α) (h : ∀ e, r = .error e → e.isBenign = false) :
      Makes allowed (Pass.ofExcept r)
  | record (target : ListenTarget) : Makes allowed (Pass.record target)
  | request {α : Type} (r : Request α) (h : allowed α r) : Makes allowed r.pass
  | bind {α β : Type} {p : Pass α} {f : α → Pass β} (hp : Makes allowed p)
      (hf : ∀ a, Makes allowed (f a)) : Makes allowed (p >>= f)

namespace Pass

variable {allowed : Requests} {α β : Type}

/-! ### Parts of passes -/

theorem ofExcept_ok_bind (a : α) (f : α → Pass β) : (Pass.ofExcept (.ok a) >>= f) = f a := rfl

theorem ofConfig_ok_bind (a : α) (f : α → Pass β) : (Pass.ofConfig (.ok a) >>= f) = f a := rfl

theorem Makes.pure (a : α) : Makes allowed (pure a : Pass α) :=
  .result (.ok a) fun _ h => by cases h

theorem Makes.throw {e : EngineError} (h : e.isBenign = false) :
    Makes allowed (throw e : Pass α) :=
  .result (.error e) fun e' he => by
    obtain rfl : e = e' := by injection he
    exact h

theorem Makes.map {p : Pass α} (f : α → β) (hp : Makes allowed p) : Makes allowed (f <$> p) := by
  rw [map_eq_pure_bind]
  exact hp.bind fun a => Makes.pure (f a)

theorem Makes.seq {p : Pass Unit} {q : Pass α} (hp : Makes allowed p) (hq : Makes allowed q) :
    Makes allowed (do p; q) :=
  hp.bind fun _ => hq

theorem Makes.ifThen {b : Bool} {p : Pass Unit} {q : Pass α} (hp : Makes allowed p)
    (hq : Makes allowed q) :
    Makes allowed (do
      if b then p
      q) := by
  cases b with
  | false => exact hq
  | true => exact Makes.seq hp hq

/-- What follows a result that needs no store has to be looked at for that result only. -/
theorem Makes.ofExcept_bind {r : Except EngineError α} {f : α → Pass β}
    (herror : ∀ e, r = .error e → e.isBenign = false)
    (hok : ∀ a, r = .ok a → Makes allowed (f a)) : Makes allowed (Pass.ofExcept r >>= f) := by
  cases r with
  | ok a => exact hok a rfl
  | error e => exact Makes.throw (herror e rfl)

theorem Makes.ofConfig_bind {r : Except ConfigError α} {f : α → Pass β}
    (hok : ∀ a, r = .ok a → Makes allowed (f a)) : Makes allowed (Pass.ofConfig r >>= f) := by
  refine Makes.ofExcept_bind ((ErrorsIn.always r).mapError fun _ _ => rfl) fun a ha => ?_
  cases r with
  | ok b =>
    obtain rfl : b = a := by injection ha
    exact hok b rfl
  | error cause => cases ha

theorem Makes.mapM {f : α → Pass β} (h : ∀ a, Makes allowed (f a)) (items : List α) :
    Makes allowed (items.mapM f) := by
  induction items with
  | nil =>
    rw [List.mapM_nil]
    exact Makes.pure []
  | cons item rest ih =>
    rw [List.mapM_cons]
    exact (h item).bind fun _ => ih.bind fun _ => Makes.pure _

theorem Makes.mono {other : Requests} (h : ∀ α r, allowed α r → other α r) {p : Pass α}
    (hp : Makes allowed p) : Makes other p := by
  induction hp with
  | result r herror => exact .result r herror
  | record target => exact .record target
  | request r hr => exact .request r (h _ r hr)
  | bind _ _ ihp ihf => exact ihp.bind ihf

theorem Makes.getDocument (h : ∀ α (r : Request α), r.Reads → allowed α r) (d : DocumentRef)
    (source : Source) : Makes allowed (Pass.getDocument d source) :=
  .request (.getDocument d source) (h _ _ trivial)

theorem Makes.getQuery (h : ∀ α (r : Request α), r.Reads → allowed α r) (q : Query)
    (source : Source) : Makes allowed (Pass.getQuery q source) :=
  .request (.getQuery q source) (h _ _ trivial)

end Pass

open Pass

/-! ### Mutations -/

/-- The error says that a directive or its payload is wrong, or that a mutation does not fit. -/
inductive EngineError.Rejects : EngineError → Prop where
  | config (cause : ConfigError) : Rejects (.config cause)
  | invalidMutation (cause : MutationError) : Rejects (.invalidMutation cause)

theorem EngineError.Rejects.isBenign {e : EngineError} (h : e.Rejects) : e.isBenign = false := by
  cases h <;> rfl

section Mutation

/-- A mutation gets as far as writing to a reference. -/
def Mutation.Aims (f : Field) (plan : MutationPlan) (vars : Variables) (r : Reference) : Prop :=
  ∃ type data, plan.type = some type ∧ Mutation.payload f plan vars = .ok data ∧
    Mutation.target f plan type data = .ok r

variable {allowed : Requests}

/-- A mutation without a target is rejected, whichever of the three steps to the target fails. -/
theorem Mutation.rejects_of_target {f : Field} {plan : MutationPlan} {type : MutationType}
    {data : Members} : ErrorsIn EngineError.Rejects (Mutation.target f plan type data) := by
  rw [Mutation.target]
  exact ((ErrorsIn.always _).mapError fun cause _ => .config cause).bind fun _ =>
    ((ErrorsIn.always _).mapError fun cause _ => .config cause).bind fun _ =>
    ((ErrorsIn.always _).mapError fun cause _ => .invalidMutation cause).bind fun _ => .ok _

theorem Mutation.makes_write (plan : MutationPlan) (type : MutationType) (data : Members)
    {reference : Reference}
    (hwrites : ∀ α (r : Request α), r.written? = some reference → allowed α r) :
    Makes allowed (Mutation.write plan type data reference) := by
  cases reference with
  | collection c => exact Makes.map some (.request (.add c data) (hwrites _ _ rfl))
  | document d =>
    cases type with
    | add => exact Makes.throw rfl
    | set =>
      exact Makes.seq (.request (.set d data (Mutation.writeMode plan)) (hwrites _ _ rfl))
        (Makes.pure _)
    | update => exact Makes.seq (.request (.update d data) (hwrites _ _ rfl)) (Makes.pure _)
    | delete => exact Makes.seq (.request (.delete d) (hwrites _ _ rfl)) (Makes.pure _)

/-- A mutation reads, and writes to the reference that it aims at. -/
theorem Mutation.makes_perform (hreads : ∀ α (r : Request α), r.Reads → allowed α r)
    {f : Field} {plan : MutationPlan} {vars : Variables}
    (hwrites : ∀ reference, Mutation.Aims f plan vars reference →
      ∀ α (r : Request α), r.written? = some reference → allowed α r) :
    Makes allowed (Mutation.perform f plan vars) := by
  unfold Mutation.perform
  refine Makes.ofConfig_bind fun type htype => Makes.ofConfig_bind fun data hdata => ?_
  have hbenign : ErrorsIn (fun e => e.isBenign = false) (Mutation.target f plan type data) :=
    Mutation.rejects_of_target.mono fun _ => EngineError.Rejects.isBenign
  refine Makes.ofExcept_bind hbenign fun reference htarget => ?_
  have haims : Mutation.Aims f plan vars reference := by
    refine ⟨type, data, ?_, hdata, htarget⟩
    cases hplan : plan.type with
    | none =>
      rw [hplan] at htype
      cases htype
    | some planned =>
      rw [hplan] at htype
      exact congrArg some (Except.ok.inj htype)
  refine (Mutation.makes_write plan type data (hwrites reference haims)).bind fun written => ?_
  cases written with
  | some d => exact (Makes.getDocument hreads d .default).bind fun _ => Makes.pure _
  | none => exact Makes.pure _

end Mutation

/-! ### Fields and selections -/

namespace Executor

section Executor

variable {allowed : Requests} (hreads : ∀ α (r : Request α), r.Reads → allowed α r)

include hreads

theorem makes_fetchCollection (c : CollectionRef) (fetch : Fetch) (typename : String)
    (exports : Exports) : Makes allowed (fetchCollection c fetch typename exports) := by
  unfold fetchCollection
  refine Makes.ofConfig_bind fun query _ => Makes.ifThen (.record (.query query)) ?_
  exact (Makes.getQuery hreads query fetch.source).bind fun _ => Makes.pure _

theorem makes_fetchDocument (d : DocumentRef) (fetch : Fetch) (typename : String) :
    Makes allowed (fetchDocument d fetch typename) := by
  unfold fetchDocument
  refine Makes.ifThen (.record (.document d)) ?_
  exact (Makes.getDocument hreads d fetch.source).bind fun _ => Makes.pure _

theorem makes_follow (f : Field) (fetch : Fetch) (parent : Option Entity) (exports : Exports) :
    Makes allowed (follow f fetch parent exports) := by
  cases parent with
  | none => exact Makes.throw rfl
  | some entity => exact makes_fetchCollection hreads _ fetch _ exports

theorem makes_resolveBranch (vars : Variables) (parent : Option Entity) (f : Field)
    (exports : Exports) {plan : Plan}
    (hplan : ∀ m, plan = .mutation m → ∀ α (r : Request α), r.Writes → allowed α r) :
    Makes allowed (resolveBranch vars parent f exports plan) := by
  cases plan with
  | query rootKind fetch =>
    refine Makes.ofConfig_bind fun reference _ => ?_
    cases reference with
    | collection c => exact makes_fetchCollection hreads c fetch _ exports
    | document d => exact makes_fetchDocument hreads d fetch _
  | mutation plan =>
    exact Mutation.makes_perform hreads fun _ _ _ r hr =>
      hplan plan rfl _ r (Request.writes_of_written? hr)
  | ref fetch => exact makes_follow hreads f fetch parent exports
  | leaf leaf => exact makes_follow hreads f {} parent exports
  | none => exact makes_follow hreads f {} parent exports

end Executor

/-- A slot belongs to a field: if it is a branch, its plan is the plan of the field. -/
def Fits (vars : Variables) (f : Field) (slot : Slot) : Prop :=
  ∀ plan exports, slot = .branch plan exports → Plan.ofField vars f = .ok plan

theorem isBenign_of_planFields {vars : Variables} {parent : Option Entity} (exports : Exports)
    (fields : List Field) :
    ErrorsIn (fun e => e.isBenign = false) (planFields vars parent exports fields) := by
  induction fields generalizing exports with
  | nil => exact .ok []
  | cons f rest ih =>
    have hplan : ErrorsIn (fun e => e.isBenign = false)
        ((Plan.ofField vars f).mapError EngineError.config) :=
      (ErrorsIn.always _).mapError fun _ _ => rfl
    rw [planFields]
    refine hplan.bind fun plan => ?_
    split
    · exact (ih exports).bind fun _ => .ok _
    · cases parent with
      | none => exact .error rfl
      | some entity => exact (ih _).bind fun _ => .ok _

theorem fits_of_planFields {vars : Variables} {parent : Option Entity} {exports : Exports}
    {fields : List Field} {slots : List Slot}
    (h : planFields vars parent exports fields = .ok slots) :
    List.Forall₂ (Fits vars) fields slots := by
  induction fields generalizing exports slots with
  | nil =>
    obtain rfl : [] = slots := by injection h
    exact .nil
  | cons f rest ih =>
    obtain ⟨plan, hplan, ⟨-, slots', rfl, hrest⟩ | ⟨-, entity, slots', -, rfl, hrest⟩⟩ :=
      exists_of_planFields_cons h
    · refine .cons (fun plan' exports' hslot => ?_) (ih hrest)
      obtain ⟨rfl, -⟩ := Slot.branch.inj hslot
      exact hplan
    · exact .cons (fun plan' exports' hslot => by cases hslot) (ih hrest)

/-- No field of a list, and none below, is planned as a mutation, unless all writes are allowed. -/
def WritesAllowed (allowed : Requests) (vars : Variables) (fields : List Field) : Prop :=
  ∀ f ∈ fields, ∀ m, Plan.ofField vars f = .ok (.mutation m) →
    ∀ α (r : Request α), r.Writes → allowed α r

section Selection

variable {allowed : Requests} (hreads : ∀ α (r : Request α), r.Reads → allowed α r)
  (vars : Variables)

/-- Planning and resolving below a document, given that resolving the planned fields is fine. -/
theorem makes_below {entity : Entity} {exports : Exports} {selection : List Field}
    (h : ∀ slots, List.Forall₂ (Fits vars) selection slots →
      Makes allowed (resolveFields vars (some entity) selection slots)) :
    Makes allowed (do
      let slots ← Pass.ofExcept (planFields vars (some entity) exports selection)
      return assemble selection (← resolveFields vars (some entity) selection slots)) :=
  Makes.ofExcept_bind (isBenign_of_planFields _ _) fun slots hslots =>
    (h slots (fits_of_planFields hslots)).bind fun _ => Makes.pure _

include hreads

theorem makes_resolveField_and_resolveFields :
    (∀ parent f slot, WritesAllowed allowed vars (Field.walk f) → Fits vars f slot →
      Makes allowed (resolveField vars parent f slot)) ∧
    (∀ parent fields slots, WritesAllowed allowed vars (Field.walkAll fields) →
      List.Forall₂ (Fits vars) fields slots →
      Makes allowed (resolveFields vars parent fields slots)) := by
  -- the recursion of the two functions, one case for each of their equations
  refine resolveField.mutual_induct
    (fun parent f slot => WritesAllowed allowed vars (Field.walk f) → Fits vars f slot →
      Makes allowed (resolveField vars parent f slot))
    (fun parent fields slots => WritesAllowed allowed vars (Field.walkAll fields) →
      List.Forall₂ (Fits vars) fields slots →
      Makes allowed (resolveFields vars parent fields slots)) ?value ?branch ?cons ?other
  case value =>
    intro f parent value _ _
    rw [resolveField]
    exact Makes.pure value
  case branch =>
    intro parent name label arguments directives selection plan exports ih hwrites hfits
    have hplan : Plan.ofField vars (.mk name label arguments directives selection) = .ok plan :=
      hfits plan exports rfl
    have hbelow : WritesAllowed allowed vars (Field.walkAll selection) := fun f hf =>
      hwrites f (by rw [Field.walk]; exact List.mem_cons_of_mem _ hf)
    rw [resolveField]
    refine (makes_resolveBranch hreads vars parent _ exports fun m hm =>
      hwrites _ (by rw [Field.walk]; exact List.mem_cons_self) m (hm ▸ hplan)).bind
      fun resolved => ?_
    by_cases hleaf : selection.isEmpty = true
    · rw [if_pos hleaf]
      exact Makes.pure _
    · rw [if_neg hleaf]
      cases resolved with
      | entity entity =>
        exact makes_below vars fun slots hslots => ih entity slots hbelow hslots
      | entities entities =>
        exact (Makes.mapM (fun entity => makes_below vars fun slots hslots =>
          ih entity slots hbelow hslots) entities).bind fun _ => Makes.pure _
      | deleted typename id => exact Makes.pure _
  case cons =>
    intro parent f rest slot slots ihf ihrest hwrites hfits
    obtain ⟨hslot, hslots⟩ := List.forall₂_cons.1 hfits
    rw [resolveFields]
    refine (ihf (fun g hg => hwrites g ?_) hslot).bind fun _ =>
      (ihrest (fun g hg => hwrites g ?_) hslots).bind fun _ => Makes.pure _
    · rw [Field.walkAll]
      exact List.mem_append_left _ hg
    · rw [Field.walkAll]
      exact List.mem_append_right _ hg
  case other =>
    intro fields parent slots hother _ hfits
    cases hfits with
    | nil => exact Makes.pure []
    | cons _ _ => exact (hother _ _ _ _ rfl rfl).elim

/-- Resolving a selection makes reads, and writes only if a field is planned as a mutation. -/
theorem makes_resolveSelection (parent : Option Entity) (exports : Exports) {fields : List Field}
    (hwrites : WritesAllowed allowed vars (Field.walkAll fields)) :
    Makes allowed (resolveSelection vars parent exports fields) := by
  unfold resolveSelection
  refine Makes.ofExcept_bind (isBenign_of_planFields _ _) fun slots hslots => ?_
  exact ((makes_resolveField_and_resolveFields hreads vars).2 parent fields slots hwrites
    (fits_of_planFields hslots)).bind fun _ => Makes.pure _

end Selection

end Executor

/-- No field of the operation is planned as a mutation. -/
def Operation.MutationFree (o : Operation) : Prop :=
  ∀ f ∈ o.walk, ∀ m, Plan.ofField o.vars f ≠ .ok (.mutation m)

instance (o : Operation) : Decidable o.MutationFree :=
  decidable_of_iff
    (∀ f ∈ o.walk, (match Plan.ofField o.vars f with
      | .ok (.mutation _) => false
      | _ => true) = true)
    (by
      refine forall₂_congr fun f _ => ?_
      rcases Plan.ofField o.vars f with e | plan
      · simp
      · cases plan <;> simp)

/-! ### Operations -/

namespace Executor

section Operation

variable {allowed : Requests} {vars : Variables}

theorem writesAllowed_append {fields fields' : List Field} :
    WritesAllowed allowed vars (fields ++ fields') ↔
      WritesAllowed allowed vars fields ∧ WritesAllowed allowed vars fields' :=
  List.forall_mem_append

/-- The pass over an operation as it is executed. -/
def pass (config : Config) (o : Operation) : Pass Json :=
  resolveSelection (prepare config o).vars none [] (prepare config o).selection

/-- The fields that ask for typenames are no mutations, and the others keep their plans. -/
theorem writesAllowed_prepare (config : Config) {o : Operation}
    (h : WritesAllowed allowed o.vars o.walk) :
    WritesAllowed allowed o.vars (Field.walkAll (prepare config o).selection) := by
  intro f hf m hm
  rcases exists_of_mem_walk_prepare hf with rfl | ⟨g, hg, rfl⟩
  · cases hm
  · rw [ofField_prepareField] at hm
    exact h g hg m hm

theorem makes_pass (hreads : ∀ α (r : Request α), r.Reads → allowed α r) (config : Config)
    {o : Operation} (hwrites : WritesAllowed allowed o.vars o.walk) :
    Makes allowed (pass config o) := by
  rw [pass, vars_prepare]
  exact makes_resolveSelection hreads _ none [] (writesAllowed_prepare config hwrites)

end Operation

/-- An operation makes requests for documents only. -/
theorem makes_documents (config : Config) (o : Operation) :
    Makes Requests.documents (pass config o) :=
  makes_pass (fun _ _ hr => .inl hr) config fun _ _ _ _ _ _ hr => .inr hr

/-- An operation of which no field is planned as a mutation makes reads only. -/
theorem makes_reads (config : Config) {o : Operation} (h : o.MutationFree) :
    Makes Requests.reads (pass config o) :=
  makes_pass (fun _ _ hr => hr) config fun f hf m hm => absurd hm (h f hf m)

end Executor

end LiveDocs
