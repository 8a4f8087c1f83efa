import LiveDocs.Check
import LiveDocs.Proofs.Pass.Errors
import LiveDocs.Proofs.Pass.Exports

/-!
# What makes an operation fail

A pass fails at one place: a field whose directives do not parse, a leaf at the root, where there is
no document to read it off, or a branch that is not resolved. `Blame` names it, and `Fails` says how
the pass gets there: the fields before it are resolved, and so is every branch above it, down to the
document below which it stands. `fails_iff`: a selection fails exactly if there is such a place,
with the error that belongs to it.

A check reads the operation as it is written, all fields of it at once. Main statement:
`check_predicts`, it reports every field whose directives make a pass fail, whatever the data that
led there, and every mutation that fails for want of a type.
-/

namespace LiveDocs

namespace Executor

variable {vars : Variables} {parent : Option Entity} {f : Field} {exports : Exports} {plan : Plan}

/-! ### Where a pass fails -/

/-- What makes a pass fail: a field whose directives are wrong, a leaf that has no document to be
read off, or a branch that is not resolved. -/
inductive Blame where
  | directives (f : Field) (cause : ConfigError)
  | context (f : Field)
  | branch (f : Field) (plan : Plan) (error : EngineError)

namespace Blame

/-- The field to blame. -/
def field : Blame → Field
  | directives f _ => f
  | context f => f
  | branch f _ _ => f

/-- The error that belongs to it. -/
def error : Blame → EngineError
  | directives _ cause => .config cause
  | context f => .noContext f.name
  | branch _ _ e => e

end Blame

/-- Planning a selection fails at a field, after the fields before it were planned. -/
inductive PlanningFails (vars : Variables) (parent : Option Entity) :
    List Field → Blame → Prop where
  | directives {f : Field} {rest : List Field} {cause : ConfigError}
      (hplan : Plan.ofField vars f = .error cause) :
      PlanningFails vars parent (f :: rest) (.directives f cause)
  | context {f : Field} {rest : List Field} {plan : Plan} (hplan : Plan.ofField vars f = .ok plan)
      (hleaf : (!f.isLeaf || plan.isFetching) = false) (hparent : parent = none) :
      PlanningFails vars parent (f :: rest) (.context f)
  | later {f : Field} {rest : List Field} {plan : Plan} {blame : Blame}
      (hplan : Plan.ofField vars f = .ok plan)
      (hslot : (!f.isLeaf || plan.isFetching) = true ∨ parent.isSome = true)
      (hrest : PlanningFails vars parent rest blame) :
      PlanningFails vars parent (f :: rest) blame

/-- It is the turn of a planned field: those before it are resolved. -/
inductive Turn (vars : Variables) (parent : Option Entity) :
    List Field → List Slot → PassState → Field → Slot → PassState → Prop where
  | here {f : Field} {rest : List Field} {slot : Slot} {slots : List Slot} {state : PassState} :
      Turn vars parent (f :: rest) (slot :: slots) state f slot state
  | later {f g : Field} {rest : List Field} {slot slot' : Slot} {slots : List Slot} {value : Json}
      {state between after : PassState}
      (hvalue : (resolveField vars parent g slot').run state = (.ok value, between))
      (hrest : Turn vars parent rest slots between f slot after) :
      Turn vars parent (g :: rest) (slot' :: slots) state f slot after

/-- It is the turn of a document that a branch found: the selection is completed for those before
it. -/
inductive Opens (vars : Variables) (exports : Exports) (selection : List Field) :
    Resolved → PassState → Entity → PassState → Prop where
  | document {entity : Entity} {state : PassState} :
      Opens vars exports selection (.entity entity) state entity state
  | item {entity : Entity} {rest : List Entity} {state : PassState} :
      Opens vars exports selection (.entities (entity :: rest)) state entity state
  | later {entity other : Entity} {rest : List Entity} {object : Json}
      {state between after : PassState}
      (hobject : (resolveSelection vars (some other) exports selection).run state =
        (.ok object, between))
      (hrest : Opens vars exports selection (.entities rest) between entity after) :
      Opens vars exports selection (.entities (other :: rest)) state entity after

/-- A selection fails, by the blame, and leaves a state behind. -/
inductive Fails (vars : Variables) : Option Entity → Exports → List Field → PassState → Blame →
    PassState → Prop where
  /-- The fields cannot be planned. -/
  | planning {parent : Option Entity} {exports : Exports} {fields : List Field}
      {state : PassState} {blame : Blame} (h : PlanningFails vars parent fields blame) :
      Fails vars parent exports fields state blame state
  /-- A branch is not resolved when its turn comes. -/
  | unresolved {parent : Option Entity} {exports exports' : Exports} {fields : List Field}
      {slots : List Slot} {f : Field} {plan : Plan} {e : EngineError}
      {state before after : PassState} (hslots : planFields vars parent exports fields = .ok slots)
      (hturn : Turn vars parent fields slots state f (.branch plan exports') before)
      (hbranch : (resolveBranch vars parent f exports' plan).run before = (.error e, after)) :
      Fails vars parent exports fields state (.branch f plan e) after
  /-- A branch is resolved, and the selection below it fails for a document that it found. -/
  | selection {parent : Option Entity} {exports exports' : Exports} {fields : List Field}
      {slots : List Slot} {f : Field} {plan : Plan} {resolved : Resolved} {entity : Entity}
      {blame : Blame} {state before found between after : PassState}
      (hslots : planFields vars parent exports fields = .ok slots)
      (hturn : Turn vars parent fields slots state f (.branch plan exports') before)
      (hbranch : (resolveBranch vars parent f exports' plan).run before = (.ok resolved, found))
      (hselects : f.isLeaf = false)
      (hopens : Opens vars exports' f.selection resolved found entity between)
      (hbelow : Fails vars (some entity) exports' f.selection between blame after) :
      Fails vars parent exports fields state blame after

variable {fields : List Field} {slots : List Slot} {blame : Blame} {slot : Slot} {e : EngineError}
  {state before after : PassState} {resolved : Resolved}

/-- Fields cannot be planned exactly if one of them is to blame. -/
theorem planningFails_iff :
    planFields vars parent exports fields = .error e ↔
      ∃ blame, PlanningFails vars parent fields blame ∧ blame.error = e := by
  constructor
  · intro h
    induction fields generalizing exports with
    | nil => cases h
    | cons f rest ih =>
      cases hplan : Plan.ofField vars f with
      | error cause =>
        rw [planFields_of_wrong hplan] at h
        exact ⟨.directives f cause, .directives hplan, Except.error.inj h⟩
      | ok plan =>
        cases hslot : (!f.isLeaf || plan.isFetching) with
        | true =>
          rw [planFields_of_branch hplan hslot] at h
          obtain ⟨blame, hblame, he⟩ := ih (error_of_map h)
          exact ⟨blame, .later hplan (.inl hslot) hblame, he⟩
        | false =>
          cases parent with
          | none =>
            rw [planFields_of_rootLeaf hplan hslot] at h
            exact ⟨.context f, .context hplan hslot rfl, Except.error.inj h⟩
          | some entity =>
            rw [planFields_of_leaf hplan hslot] at h
            obtain ⟨blame, hblame, he⟩ := ih (error_of_map h)
            exact ⟨blame, .later hplan (.inr rfl) hblame, he⟩
  · rintro ⟨blame, h, rfl⟩
    induction h generalizing exports with
    | directives hplan => exact planFields_of_wrong hplan
    | context hplan hleaf hparent =>
      subst hparent
      exact planFields_of_rootLeaf hplan hleaf
    | @later f rest plan blame hplan hslot _ ih =>
      cases hbranch : (!f.isLeaf || plan.isFetching) with
      | true =>
        rw [planFields_of_branch hplan hbranch, ih]
        rfl
      | false =>
        rw [hbranch] at hslot
        obtain ⟨entity, rfl⟩ := Option.isSome_iff_exists.1 (hslot.resolve_left (by decide))
        rw [planFields_of_leaf hplan hbranch, ih]
        rfl

/-- The first field that is not resolved has its turn. -/
theorem exists_turn_of_resolveFields
    (h : (resolveFields vars parent fields slots).run state = (.error e, after)) :
    ∃ f slot before, Turn vars parent fields slots state f slot before ∧
      (resolveField vars parent f slot).run before = (.error e, after) := by
  induction fields generalizing slots state with
  | nil =>
    rw [resolveFields] at h
    · cases h
    · intro f rest slot slots hcons
      cases hcons
  | cons f rest ih =>
    cases slots with
    | nil =>
      rw [resolveFields] at h
      · cases h
      · intro f rest slot slots _ hcons
        cases hcons
    | cons slot slots =>
      rw [resolveFields] at h
      rcases Pass.error_of_run_bind h with herror | ⟨value, between, hvalue, h⟩
      · exact ⟨f, slot, state, .here, herror⟩
      · rcases Pass.error_of_run_bind h with herror | ⟨values, last, -, h⟩
        · obtain ⟨g, slot', before, hturn, hfails⟩ := ih herror
          exact ⟨g, slot', before, .later hvalue hturn, hfails⟩
        · cases h

/-- And when a field is not resolved in its turn, then none of those after it is. -/
theorem Turn.run_resolveFields (h : Turn vars parent fields slots state f slot before)
    (hfails : (resolveField vars parent f slot).run before = (.error e, after)) :
    (resolveFields vars parent fields slots).run state = (.error e, after) := by
  induction h with
  | here =>
    rw [resolveFields]
    exact Pass.run_bind_error hfails _
  | later hvalue _ ih =>
    rw [resolveFields, Pass.run_bind_ok hvalue]
    exact Pass.run_bind_error (ih hfails) _

theorem exists_opens_of_mapM {entities : List Entity}
    (h : (entities.mapM fun entity => resolveSelection vars (some entity) exports fields).run
      state = (.error e, after)) :
    ∃ entity before, Opens vars exports fields (.entities entities) state entity before ∧
      (resolveSelection vars (some entity) exports fields).run before = (.error e, after) := by
  induction entities generalizing state with
  | nil => cases h
  | cons entity rest ih =>
    rw [List.mapM_cons] at h
    rcases Pass.error_of_run_bind h with herror | ⟨object, between, hobject, h⟩
    · exact ⟨entity, state, .item, herror⟩
    · rcases Pass.error_of_run_bind h with herror | ⟨objects, last, -, h⟩
      · obtain ⟨other, before, hopens, hfails⟩ := ih herror
        exact ⟨other, before, .later hobject hopens, hfails⟩
      · cases h

/-- What is selected below a branch is not completed exactly if it fails for a document in its
turn. -/
theorem exists_opens_of_complete
    (h : (complete vars exports fields resolved).run state = (.error e, after)) :
    ∃ entity before, Opens vars exports fields resolved state entity before ∧
      (resolveSelection vars (some entity) exports fields).run before = (.error e, after) := by
  cases resolved with
  | entity entity => exact ⟨entity, state, .document, h⟩
  | entities entities =>
    rcases Pass.error_of_run_bind h with herror | ⟨items, last, -, h⟩
    · exact exists_opens_of_mapM herror
    · cases h
  | deleted typename id => cases h

theorem Opens.run_mapM {entities : List Entity} {entity : Entity}
    (h : Opens vars exports fields (.entities entities) state entity before)
    (hfails : (resolveSelection vars (some entity) exports fields).run before =
      (.error e, after)) :
    (entities.mapM fun entity => resolveSelection vars (some entity) exports fields).run state =
      (.error e, after) := by
  induction entities generalizing state with
  | nil => cases h
  | cons other rest ih =>
    rw [List.mapM_cons]
    cases h with
    | item => exact Pass.run_bind_error hfails _
    | later hobject hrest =>
      rw [Pass.run_bind_ok hobject]
      exact Pass.run_bind_error (ih hrest) _

theorem Opens.run_complete {entity : Entity}
    (h : Opens vars exports fields resolved state entity before)
    (hfails : (resolveSelection vars (some entity) exports fields).run before =
      (.error e, after)) :
    (complete vars exports fields resolved).run state = (.error e, after) := by
  cases resolved with
  | entity entity =>
    cases h
    exact hfails
  | entities entities => exact Pass.run_bind_error (h.run_mapM hfails) _
  | deleted typename id => cases h

theorem Turn.mem (h : Turn vars parent fields slots state f slot before) : f ∈ fields := by
  induction h with
  | here => exact List.mem_cons_self
  | later _ _ ih => exact List.mem_cons_of_mem _ ih

theorem Turn.rel {R : Field → Slot → Prop} (h : Turn vars parent fields slots state f slot before)
    (hall : List.Forall₂ R fields slots) : R f slot := by
  induction h with
  | here => exact (List.forall₂_cons.1 hall).1
  | later _ _ ih => exact ih (List.forall₂_cons.1 hall).2

/-- Below a field, whatever a document it is, a selection that fails has something to blame. -/
def FailsBelow (vars : Variables) (f : Field) : Prop :=
  ∀ {entity : Entity} {exports : Exports} {state after : PassState} {e : EngineError},
    (resolveSelection vars (some entity) exports f.selection).run state = (.error e, after) →
      ∃ blame, Fails vars (some entity) exports f.selection state blame after ∧ blame.error = e

theorem exists_blame_of_run (hbelow : ∀ f ∈ fields, FailsBelow vars f)
    (h : (resolveSelection vars parent exports fields).run state = (.error e, after)) :
    ∃ blame, Fails vars parent exports fields state blame after ∧ blame.error = e := by
  rw [resolveSelection] at h
  cases hslots : planFields vars parent exports fields with
  | error cause =>
    rw [hslots] at h
    obtain ⟨hcause, rfl⟩ := Prod.mk.inj h
    obtain rfl : cause = e := Except.error.inj hcause
    obtain ⟨blame, hblame, he⟩ := planningFails_iff.1 hslots
    exact ⟨blame, .planning hblame, he⟩
  | ok slots =>
    rw [hslots, Pass.ofExcept_ok_bind] at h
    rcases Pass.error_of_run_bind h with hfails | ⟨values, last, -, h⟩
    · obtain ⟨f, slot, before, hturn, hfails⟩ := exists_turn_of_resolveFields hfails
      cases slot with
      | value value =>
        rw [resolveField] at hfails
        cases hfails
      | branch plan exports' =>
        rw [resolveField_branch] at hfails
        rcases Pass.error_of_run_bind hfails with hbranch | ⟨resolved, found, hbranch, hfails⟩
        · exact ⟨_, .unresolved hslots hturn hbranch, rfl⟩
        · -- the branch is resolved, so what fails is below it
          cases hselects : f.isLeaf with
          | true =>
            rw [hselects, if_pos rfl] at hfails
            cases hfails
          | false =>
            rw [hselects, if_neg (by decide)] at hfails
            obtain ⟨entity, between, hopens, hfails⟩ := exists_opens_of_complete hfails
            obtain ⟨blame, hblame, he⟩ := hbelow f hturn.mem hfails
            exact ⟨blame, .selection hslots hturn hbranch hselects hopens hblame, he⟩
    · cases h

/-- Every failure has something to blame: by induction on the selections. -/
theorem failsBelow (vars : Variables) (f : Field) : FailsBelow vars f := by
  induction f using Field.selection_induction with
  | h f ih =>
    intro entity exports state after e h
    exact exists_blame_of_run ih h

theorem Fails.run (h : Fails vars parent exports fields state blame after) :
    (resolveSelection vars parent exports fields).run state = (.error blame.error, after) := by
  induction h with
  | @planning parent exports fields state blame h =>
    have hplan : planFields vars parent exports fields = .error blame.error :=
      planningFails_iff.2 ⟨blame, h, rfl⟩
    rw [resolveSelection, hplan]
    rfl
  | unresolved hslots hturn hbranch =>
    rw [resolveSelection, hslots, Pass.ofExcept_ok_bind]
    refine Pass.run_bind_error (hturn.run_resolveFields ?_) _
    rw [resolveField_branch]
    exact Pass.run_bind_error hbranch _
  | selection hslots hturn hbranch hselects hopens _ ih =>
    rw [resolveSelection, hslots, Pass.ofExcept_ok_bind]
    refine Pass.run_bind_error (hturn.run_resolveFields ?_) _
    rw [resolveField_branch, Pass.run_bind_ok hbranch, hselects, if_neg (by decide)]
    exact hopens.run_complete ih

/-- A selection fails exactly if there is something to blame, with the error that belongs to it. -/
theorem fails_iff :
    (resolveSelection vars parent exports fields).run state = (.error e, after) ↔
      ∃ blame, Fails vars parent exports fields state blame after ∧ blame.error = e := by
  constructor
  · exact exists_blame_of_run fun f _ => failsBelow vars f
  · rintro ⟨blame, h, rfl⟩
    exact h.run

/-! ### What a check reports -/

theorem PlanningFails.field_mem (h : PlanningFails vars parent fields blame) :
    blame.field ∈ fields := by
  induction h with
  | directives | context => exact List.mem_cons_self
  | later _ _ _ ih => exact List.mem_cons_of_mem _ ih

/-- The field to blame is one of the selection, or of the selections below. -/
theorem Fails.field_mem (h : Fails vars parent exports fields state blame after) :
    blame.field ∈ Field.walkAll fields := by
  have hself : ∀ f : Field, f ∈ Field.walk f := fun f => by
    cases f
    rw [Field.walk]
    exact List.mem_cons_self
  induction h with
  | planning h =>
    rw [Field.walkAll_eq_flatMap]
    exact List.mem_flatMap.2 ⟨_, h.field_mem, hself _⟩
  | unresolved _ hturn =>
    rw [Field.walkAll_eq_flatMap]
    exact List.mem_flatMap.2 ⟨_, hturn.mem, hself _⟩
  | @selection _ _ _ _ _ f _ _ _ _ _ _ _ _ _ _ hturn _ _ _ _ ih =>
    rw [Field.walkAll_eq_flatMap]
    refine List.mem_flatMap.2 ⟨f, hturn.mem, ?_⟩
    cases f
    rw [Field.walk]
    exact List.mem_cons_of_mem _ ih

/-- What a blame says of its field. -/
def Blame.Justified (vars : Variables) : Blame → Prop
  | directives f cause => Plan.ofField vars f = .error cause
  | context _ => True
  | branch f plan e => Plan.ofField vars f = .ok plan ∧
      ∃ parent exports state after,
        (resolveBranch vars parent f exports plan).run state = (.error e, after)

theorem PlanningFails.justified (h : PlanningFails vars parent fields blame) :
    blame.Justified vars := by
  induction h with
  | directives hplan => exact hplan
  | context => trivial
  | later _ _ _ ih => exact ih

theorem Fails.justified (h : Fails vars parent exports fields state blame after) :
    blame.Justified vars := by
  induction h with
  | planning h => exact h.justified
  | unresolved hslots hturn hbranch =>
    exact ⟨hturn.rel (fits_of_planFields hslots) _ _ rfl, _, _, _, _, hbranch⟩
  | selection _ _ _ _ _ _ ih => exact ih

/-- An error about a directive is to be blamed on the directives of the field, and the want of a
mutation type on a mutation without one. -/
theorem Blame.Justified.config {cause : ConfigError} (h : blame.Justified vars)
    (herror : blame.error = .config cause) :
    (cause.OfDirective → ∃ f, blame = .directives f cause) ∧
      (cause = .mutationTypeMissing →
        ∃ f plan, blame = .branch f (.mutation plan) (.config cause) ∧ plan.type = none) := by
  cases blame with
  | directives f cause' =>
    obtain rfl := EngineError.config.inj herror
    refine ⟨fun _ => ⟨f, rfl⟩, ?_⟩
    rintro rfl
    exact (Plan.errorsIn_ofField vars f _ h).elim
  | context f => cases herror
  | branch f plan e =>
    obtain rfl : e = .config cause := herror
    obtain ⟨-, parent, exports, state, after, hrun⟩ := h
    by_cases htyped : ∀ m, plan = .mutation m → m.type ≠ none
    · -- the branch has another reason
      have hbranch : cause.OfBranch :=
        failsWith_resolveBranch htyped state _ (congrArg Prod.fst hrun) cause rfl
      constructor
      · intro hdirective
        cases cause <;> first | exact hbranch.elim | exact hdirective.elim
      · rintro rfl
        exact hbranch.elim
    · obtain ⟨m, rfl, htype⟩ : ∃ m, plan = .mutation m ∧ m.type = none := by
        simpa using htyped
      rw [run_resolveBranch_of_type_eq_none htype] at hrun
      obtain rfl := EngineError.config.inj (Except.error.inj (Prod.mk.inj hrun).1)
      exact ⟨fun hdirective => hdirective.elim, fun _ => ⟨f, m, rfl, htype⟩⟩

end Executor

/-- What is wrong with the directives of a field is one of the lines. -/
theorem Operation.line_mem_check {o : Operation} {f : Field} {text : String} (hf : f ∈ o.walk)
    (h : fieldError? o.vars f = some text) : f.responseKey ++ ": " ++ text ∈ o.check :=
  List.mem_filterMap.2 ⟨f, hf, by rw [h]; rfl⟩

namespace Executor

/-- A field as it is executed is reported under the key and with the plan of the field that it is
made of. -/
theorem line_mem_check_of_executed {config : Config} {o : Operation} {f : Field} {text : String}
    (hf : f ∈ Field.walkAll (prepare config o).selection)
    (h : Operation.fieldError? o.vars f = some text) : f.responseKey ++ ": " ++ text ∈ o.check := by
  rcases exists_of_mem_walk_prepare hf with rfl | ⟨g, hg, rfl⟩
  · cases h
  · rw [responseKey_prepareField]
    rw [Operation.fieldError?, ofField_prepareField] at h
    exact Operation.line_mem_check hg h

/-- A check predicts the errors of directives. Executing an operation fails with an error exactly if
there is something to blame for it. If it is the directives of a field, the check of the operation
has a line for the field, with its response key and the text of the error; if it is a mutation that
has no type, the check has a line for the field that says so. The error tells these cases from all
others: errors about what stands in a directive come from nowhere else, and neither does the error
for a mutation that has no type. -/
theorem check_predicts (config : Config) (o : Operation) (c : Client) :
    (∀ e, (execute config o c).response = .error e ↔
      ∃ blame after, Fails o.vars none [] (prepare config o).selection ⟨c, []⟩ blame after ∧
        blame.error = e) ∧
    ∀ {blame : Blame} {after : PassState},
      Fails o.vars none [] (prepare config o).selection ⟨c, []⟩ blame after →
      (∀ f cause, blame = .directives f cause → Plan.ofField o.vars f = .error cause ∧
        f.responseKey ++ ": " ++ (EngineError.config cause).message ∈ o.check) ∧
      (∀ f plan e, blame = .branch f (.mutation plan) e → plan.type = none →
        e = .config .mutationTypeMissing ∧
          f.responseKey ++ ": " ++ "@mutation needs a mutationType" ∈ o.check) ∧
      ∀ cause, blame.error = .config cause →
        (cause.OfDirective → ∃ f, blame = .directives f cause) ∧
        (cause = .mutationTypeMissing →
          ∃ f plan, blame = .branch f (.mutation plan) (.config cause) ∧ plan.type = none) := by
  constructor
  · intro e
    have hrun : (execute config o c).response = .error e ↔
        ∃ after, (resolveSelection o.vars none [] (prepare config o).selection).run ⟨c, []⟩ =
          (.error e, after) := by
      rw [← vars_prepare config o]
      exact ⟨fun h => ⟨_, Prod.ext h rfl⟩, fun ⟨after, h⟩ => congrArg Prod.fst h⟩
    rw [hrun, exists_comm]
    exact exists_congr fun after => fails_iff
  · intro blame after h
    have hjustified : blame.Justified o.vars := h.justified
    have hmem : blame.field ∈ Field.walkAll (prepare config o).selection := h.field_mem
    refine ⟨?_, ?_, fun cause => hjustified.config⟩
    · rintro f cause rfl
      have hplan : Plan.ofField o.vars f = .error cause := hjustified
      have herror : Operation.fieldError? o.vars f = some (EngineError.config cause).message := by
        rw [Operation.fieldError?, hplan]
      exact ⟨hplan, line_mem_check_of_executed hmem herror⟩
    · rintro f plan e rfl htype
      obtain ⟨hplan, parent, exports, state, last, hrun⟩ := hjustified
      rw [run_resolveBranch_of_type_eq_none htype] at hrun
      have herror : Operation.fieldError? o.vars f = some "@mutation needs a mutationType" := by
        simp only [Operation.fieldError?, hplan, htype, Option.isNone_none, if_true]
      exact ⟨(Except.error.inj (Prod.mk.inj hrun).1).symm,
        line_mem_check_of_executed hmem herror⟩

/-- A query for the names of all users, read in a mode that does not exist. -/
def unknownMode : Operation :=
  usersOperation [.mk "users" none [] [usersQuery]
    [.mk "name" none [] [⟨"field", [("serverTimestamps", .literal (.string "never"))]⟩] []]]

theorem check_predicts_unknownMode :
    ∃ f, (execute {} unknownMode userClient).response =
        .error (.config (.unknownName "serverTimestamps" "never")) ∧
      Plan.ofField unknownMode.vars f = .error (.unknownName "serverTimestamps" "never") ∧
      f.responseKey ++ ": " ++
        (EngineError.config (.unknownName "serverTimestamps" "never")).message ∈
          unknownMode.check := by
  have hresponse : (execute {} unknownMode userClient).response =
      .error (.config (.unknownName "serverTimestamps" "never")) := by
    with_unfolding_all rfl
  obtain ⟨hfails, hpredicts⟩ := check_predicts {} unknownMode userClient
  obtain ⟨blame, after, h, herror⟩ := (hfails _).1 hresponse
  obtain ⟨hdirectives, -, hkind⟩ := hpredicts h
  obtain ⟨f, hblame⟩ := (hkind _ herror).1 trivial
  obtain ⟨hplan, hline⟩ := hdirectives f _ hblame
  exact ⟨f, hresponse, hplan, hline⟩

end Executor

end LiveDocs
