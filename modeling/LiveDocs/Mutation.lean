import LiveDocs.Pass
import LiveDocs.Plan

/-!
# Mutations

A mutation finds its payload and its target, writes, and reads the document back. A collection only
accepts `add` and a document everything else, but `set`, `update` and `delete` on a collection mean
the document that the payload's `id` names. Main statements: `checkFits_eq_ok_iff`, which types fit
which references, and `kind_of_target`, the target always fits.
-/

namespace LiveDocs

namespace Mutation

/-- The value given for a payload: inline, then the argument of that name unless it is null, then
the variable. -/
def payload? (f : Field) (plan : MutationPlan) (vars : Variables) : Option Json :=
  plan.payload <|>
    ((Bindings.get? plan.payloadName f.arguments).bind (·.value? vars)).filter (!·.isNull) <|>
    Bindings.get? plan.payloadName vars

/-- The payload, which has to be an object. -/
def payload (f : Field) (plan : MutationPlan) (vars : Variables) :
    Except ConfigError Members :=
  match payload? f plan vars with
  | none => .error (.payloadMissing plan.payloadName)
  | some (.object data) => .ok data
  | some other => .error (.payloadNotObject other)

/-- A mutation type has to fit the kind of the reference. -/
def checkFits (type : MutationType) : Reference → Except MutationError Unit
  | .collection c => if type = .add then .ok () else .error (.needsDocument type c)
  | .document d => if type = .add then .error (.needsCollection d) else .ok ()

/-- A reference, where a type other than `add` takes a collection for the document that the
payload's `id` names. -/
def narrow (type : MutationType) (payload : Members) : Reference → Except ConfigError Reference
  | .collection c =>
    if type = .add then .ok (.collection c)
    else
      match (Bindings.get? "id" payload).bind Json.string? with
      | some id => .ok (.document (c.doc id))
      | none => .error (.idMissing type c)
  | .document d => .ok (.document d)

/-- The reference that a mutation writes to. -/
def target (f : Field) (plan : MutationPlan) (type : MutationType) (payload : Members) :
    Except EngineError Reference := do
  let reference ←
    (resolveReference (plan.path.getD f.name) plan.rootKind).mapError .config
  let reference ← (narrow type payload reference).mapError .config
  (checkFits type reference).mapError .invalidMutation
  return reference

/-- How `set` writes. -/
def writeMode (plan : MutationPlan) : WriteMode :=
  match plan.mergeFields with
  | some paths => .fields paths
  | none => if plan.merge then .merge else .replace

/-- The write itself; the answer is the document to read back, none after a deletion. -/
def write (plan : MutationPlan) (type : MutationType) (data : Members) :
    Reference → Pass (Option DocumentRef)
  | .collection c => some <$> Pass.add c data
  | .document d =>
    match type with
    | .set => do
      Pass.set d data (writeMode plan)
      return some d
    | .update => do
      Pass.update d data
      return some d
    | .delete => do
      Pass.delete d
      return none
    | .add => throw (.invalidMutation (.needsCollection d))

/-- Performs a mutation. -/
def perform (f : Field) (plan : MutationPlan) (vars : Variables) : Pass Resolved := do
  let type ← Pass.ofConfig (plan.type.elim (.error .mutationTypeMissing) .ok)
  let data ← Pass.ofConfig (payload f plan vars)
  let typename := Text.typename plan.typename f.name
  let reference ← Pass.ofExcept (target f plan type data)
  match ← write plan type data reference with
  | some d => return .entity ⟨typename, ← Pass.getDocument d .default⟩
  | none => return .deleted typename reference.path.last

/-! ### Which types fit -/

theorem checkFits_eq_ok_iff {type : MutationType} {r : Reference} :
    checkFits type r = .ok () ↔ (type = .add ↔ r.kind = .collection) := by
  cases r <;> cases type <;> simp [checkFits, Reference.kind]

/-- A target fits its mutation type. -/
theorem kind_of_target {f : Field} {plan : MutationPlan} {type : MutationType} {data : Members}
    {r : Reference} (h : target f plan type data = .ok r) :
    type = .add ↔ r.kind = .collection := by
  rw [target] at h
  cases hr : resolveReference (plan.path.getD f.name) plan.rootKind with
  | error e => rw [hr] at h; cases h
  | ok r₀ =>
    rw [hr] at h
    change ((narrow type data r₀).mapError EngineError.config >>= _) = _ at h
    cases hn : narrow type data r₀ with
    | error e => rw [hn] at h; cases h
    | ok r₁ =>
      rw [hn] at h
      change ((checkFits type r₁).mapError EngineError.invalidMutation >>= _) = _ at h
      cases hf : checkFits type r₁ with
      | error e => rw [hf] at h; cases h
      | ok u =>
        rw [hf] at h
        cases h
        exact checkFits_eq_ok_iff.1 hf

end Mutation

end LiveDocs
