import LiveDocs.Operation
import LiveDocs.Json.Decode

/-!
# Operations in JSON

The written form of operations, fields and directives. An absent part has its default; only a name
or an alias may be null.
-/

namespace LiveDocs

/-- An argument. -/
def Argument.decode : Decoder Argument := fun v => some (ofJson v.merged)

/-- A directive. -/
def Directive.decode : Decoder Directive := fun v => do
  let [name, arguments] ← Decoder.record ["name", "arguments"] v | none
  return ⟨← Decoder.required .string name,
    ← Decoder.withDefault [] (.bindings Argument.decode) arguments⟩

/-- A field of which at most `depth` levels are written. -/
def Field.decodeAt : (depth : Nat) → Decoder Field
  | 0, _ => none
  | depth + 1, v => do
    let [name, label, arguments, directives, selection] ←
      Decoder.record ["name", "alias", "arguments", "directives", "selection"] v | none
    return .mk (← Decoder.required .string name)
      (← Decoder.withDefault none (.nullable .string) label)
      (← Decoder.withDefault [] (.bindings Argument.decode) arguments)
      (← Decoder.withDefault [] (.list Directive.decode) directives)
      (← Decoder.withDefault [] (.list (decodeAt depth)) selection)

mutual

/-- The number of nested containers of a value. -/
def Json.height : Json → Nat
  | .array items => heightItems items + 1
  | .object members => heightMembers members + 1
  | _ => 0

/-- The greatest height of the items. -/
def Json.heightItems : List Json → Nat
  | [] => 0
  | item :: rest => max (height item) (heightItems rest)

/-- The greatest height of the members. -/
def Json.heightMembers : List (String × Json) → Nat
  | [] => 0
  | (_, value) :: rest => max (height value) (heightMembers rest)

end

/-- A field. Every level of fields takes at least one container. -/
def Field.decode : Decoder Field := fun v => decodeAt (v.height + 1) v

/-- Variable bindings. -/
def Variables.decode : Decoder Variables := .bindings .value

/-- An operation. -/
def Operation.decode : Decoder Operation := fun v => do
  let [kind, name, directives, selection, vars] ←
    Decoder.record ["kind", "name", "directives", "selection", "variables"] v | none
  return ⟨← Decoder.withDefault .query (.enumeration OperationKind.ofName?) kind,
    ← Decoder.withDefault none (.nullable .string) name,
    ← Decoder.withDefault [] (.list Directive.decode) directives,
    ← Decoder.withDefault [] (.list Field.decode) selection,
    ← Decoder.withDefault [] Variables.decode vars⟩

end LiveDocs
