import LiveDocs.Operation
import LiveDocs.Json.Printer

/-!
# Templates

A string argument may hold a placeholder `$fields{key}`, which stands for a value exported further
up in the tree. A template is an argument with its placeholders located: in the argument itself, in
the items of a list, and in the immediate values of objects at these places. Nothing deeper is
looked at, and only the first placeholder of a string counts. Main statement: `eq_of_placeholderAt`,
the parts of a placeholder make up the text where it begins.
-/

namespace LiveDocs

/-! ### Placeholders -/

/-- The text that opens a placeholder. -/
def placeholderOpening : List Char := ['$', 'f', 'i', 'e', 'l', 'd', 's', '{']

/-- The key of a placeholder that begins here, and the text after it. The key is not empty and
consists of word characters. -/
def placeholderAt (text : List Char) : Option (List Char × List Char) :=
  if placeholderOpening.isPrefixOf text then
    let inside := text.drop placeholderOpening.length
    let key := inside.takeWhile Text.isWordChar
    match inside.dropWhile Text.isWordChar with
    | '}' :: after => if key.isEmpty then none else some (key, after)
    | _ => none
  else none

/-- A string around its first placeholder. -/
structure Placeholder where
  before : List Char
  key : List Char
  after : List Char
  deriving DecidableEq

/-- The first placeholder of a text. -/
def findPlaceholder : List Char → Option Placeholder
  | [] => none
  | c :: rest =>
    match placeholderAt (c :: rest) with
    | some (key, after) => some ⟨[], key, after⟩
    | none => (findPlaceholder rest).map fun p => { p with before := c :: p.before }

namespace Placeholder

/-- The characters of a placeholder and its surroundings. -/
def toList (p : Placeholder) : List Char :=
  p.before ++ placeholderOpening ++ p.key ++ '}' :: p.after

/-- The string that holds the placeholder. -/
def text (p : Placeholder) : String := String.ofList p.toList

/-- The name under which the value was exported. -/
def exportKey (p : Placeholder) : String := String.ofList p.key

/-- The placeholder is the whole string. -/
def isWhole (p : Placeholder) : Bool := p.before.isEmpty && p.after.isEmpty

/-- The value that stands for the string once the exported value is known: the value itself if the
placeholder is the whole string, otherwise the string with the value's text in its place. -/
def fill (p : Placeholder) (exported : Json) : Json :=
  if p.isWhole then exported
  else
    let text := exported.string?.getD exported.compact
    .string (String.ofList (p.before ++ text.toList ++ p.after))

end Placeholder

/-! ### Templates -/

/-- How a single value is produced. -/
inductive Substitution where
  | literal (value : Json)
  | templated (placeholder : Placeholder)
  | computed (compute : Scope → Json)

namespace Substitution

/-- The substitution for a value: a string with a placeholder is templated. -/
def ofValue : Json → Substitution
  | .string text =>
    match findPlaceholder text.toList with
    | some placeholder => templated placeholder
    | none => literal (.string text)
  | value => literal value

/-- The value that is produced. A placeholder whose key was not exported stays in place. -/
def resolve (scope : Scope) : Substitution → Json
  | literal value => value
  | computed compute => compute scope
  | templated placeholder =>
    match Bindings.get? placeholder.exportKey scope.exports with
    | some exported => placeholder.fill exported
    | none => .string placeholder.text

end Substitution

/-- A value, or an object whose immediate values are substituted. -/
inductive TemplateItem where
  | value (substitution : Substitution)
  | object (entries : Bindings Substitution)

namespace TemplateItem

/-- The item for a value. -/
def ofValue : Json → TemplateItem
  | .object members => object (members.map fun (key, v) => (key, .ofValue v))
  | v => value (.ofValue v)

/-- The value of an item. -/
def resolve (scope : Scope) : TemplateItem → Json
  | value substitution => substitution.resolve scope
  | object entries => .object (entries.map fun (key, s) => (key, s.resolve scope))

end TemplateItem

/-- An argument with its placeholders located. -/
inductive Template where
  | item (item : TemplateItem)
  | list (items : List TemplateItem)

namespace Template

/-- The template for a value. -/
def ofValue : Json → Template
  | .array items => list (items.map .ofValue)
  | value => item (.ofValue value)

/-- The template for an argument, with its variables bound. -/
def ofArgument (vars : Variables) : Argument → Template
  | .computed compute => item (.value (.computed compute))
  | .literal value => ofValue value
  | .var name => ofValue ((Bindings.get? name vars).getD .null)

/-- The value of an argument. -/
def resolve (scope : Scope) : Template → Json
  | item i => i.resolve scope
  | list items => .array (items.map (·.resolve scope))

end Template

/-! ### Laws -/

theorem eq_of_placeholderAt {text key after : List Char}
    (h : placeholderAt text = some (key, after)) :
    text = placeholderOpening ++ key ++ '}' :: after ∧ key ≠ [] ∧
      ∀ c ∈ key, Text.isWordChar c = true := by
  rw [placeholderAt] at h
  split at h
  · rename_i hopen
    obtain ⟨inside, rfl⟩ := List.isPrefixOf_iff_prefix.1 hopen
    simp only [List.drop_left] at h
    split at h
    · rename_i rest hrest
      split at h
      · simp at h
      · rename_i hkey
        simp only [Option.some.injEq, Prod.mk.injEq] at h
        obtain ⟨rfl, rfl⟩ := h
        refine ⟨?_, by simpa using hkey, fun c hc => ?_⟩
        · rw [List.append_assoc, ← hrest, List.takeWhile_append_dropWhile]
        · exact List.all_eq_true.1 (List.all_takeWhile) c hc
    · simp at h
  · simp at h

end LiveDocs
