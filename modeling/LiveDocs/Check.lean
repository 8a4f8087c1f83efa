import LiveDocs.Plan

/-!
# Checking operations

A check plans every field of an operation without fetching anything, and reports the fields whose
directives are wrong: those that have no plan, and mutations that do not name their type.
-/

namespace LiveDocs

namespace Operation

/-- What is wrong with the directives of a field. -/
def fieldError? (vars : Variables) (f : Field) : Option String :=
  match Plan.ofField vars f with
  | .error e => some (EngineError.config e).message
  | .ok (.mutation plan) =>
    if plan.type.isNone then some "@mutation needs a mutationType" else none
  | .ok _ => none

/-- What is wrong with the directives of an operation, one line for each field. -/
def check (o : Operation) : List String :=
  o.walk.filterMap fun f => (fieldError? o.vars f).map (f.responseKey ++ ": " ++ ·)

end Operation

end LiveDocs
