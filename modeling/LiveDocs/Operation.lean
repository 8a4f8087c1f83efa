import LiveDocs.Reference
import LiveDocs.Json.Basic

/-!
# Operations

An operation is a tree of fields annotated with directives, together with variable bindings. An
argument of a directive is a literal, a variable, or computed when a query is built.
Main statement: `withTypename_of_isLeaf`, leaves are left as they are when `__typename` is added.
-/

namespace LiveDocs

/-- Values exported by leaf fields, in export order. -/
abbrev Exports := Bindings Json

/-- Variable bindings. -/
abbrev Variables := Bindings Json

/-- What a computed argument gets to look at: the collection that a query is built on and the
values exported so far. -/
structure Scope where
  collection : CollectionRef
  exports : Exports

/-- An argument as it is written. -/
inductive Argument where
  | literal (value : Json)
  | var (name : String)
  | computed (compute : Scope → Json)

namespace Argument

/-- The argument that a JSON value stands for: an object whose only member is a string under `$var`
is a variable, all else is a literal. -/
def ofJson : Json → Argument
  | .object [("$var", .string name)] => var name
  | value => literal value

/-- The value of an argument, where an unbound variable is null. A computed one has none. -/
def value? (vars : Variables) : Argument → Option Json
  | literal value => some value
  | var name => some ((Bindings.get? name vars).getD .null)
  | computed _ => none

end Argument

/-- A directive with its arguments in the order in which they are written. -/
structure Directive where
  name : String
  arguments : Bindings Argument

namespace Directive

/-- A directive without arguments. -/
def named (name : String) : Directive := ⟨name, []⟩

/-- Adds an argument, or replaces the one of the same name. -/
def withArgument (d : Directive) (name : String) (value : Argument) : Directive :=
  { d with arguments := d.arguments.insert name value }

/-- An argument by name. -/
def argument? (d : Directive) (name : String) : Option Argument := Bindings.get? name d.arguments

end Directive

/-- A field with the fields selected below it. -/
inductive Field where
  | mk (name : String) (label : Option String) (arguments : Bindings Argument)
      (directives : List Directive) (selection : List Field)

namespace Field

/-- The name of a field. -/
def name : Field → String
  | mk name _ _ _ _ => name

/-- The name that the response uses instead. -/
def label : Field → Option String
  | mk _ label _ _ _ => label

/-- The arguments of a field. -/
def arguments : Field → Bindings Argument
  | mk _ _ arguments _ _ => arguments

/-- The directives of a field. -/
def directives : Field → List Directive
  | mk _ _ _ directives _ => directives

/-- The fields below a field. -/
def selection : Field → List Field
  | mk _ _ _ _ selection => selection

/-- A field with nothing but a name. -/
def leaf (name : String) : Field := mk name none [] [] []

/-- Sets the alias. -/
def withLabel (f : Field) (label : String) : Field :=
  mk f.name (some label) f.arguments f.directives f.selection

/-- Adds an argument, or replaces the one of the same name. -/
def withArgument (f : Field) (key : String) (value : Argument) : Field :=
  mk f.name f.label (f.arguments.insert key value) f.directives f.selection

/-- Adds a directive. -/
def withDirective (f : Field) (d : Directive) : Field :=
  mk f.name f.label f.arguments (f.directives ++ [d]) f.selection

/-- Adds a field below. -/
def select (f child : Field) : Field :=
  mk f.name f.label f.arguments f.directives (f.selection ++ [child])

/-- The key of the field's value in the response. -/
def responseKey (f : Field) : String := f.label.getD f.name

/-- Nothing is selected below the field. -/
def isLeaf (f : Field) : Bool := f.selection.isEmpty

/-- The first directive with this name. -/
def directive? (f : Field) (name : String) : Option Directive :=
  f.directives.find? (·.name == name)

/-- A selection, and at its end `__typename` unless it asks for that already. -/
def completeSelection (fields : List Field) : List Field :=
  if fields.any (·.name == "__typename") then fields else fields ++ [leaf "__typename"]

mutual

/-- Adds `__typename` to the selection of a field and to all selections below it. An empty
selection stays empty. -/
def withTypename : Field → Field
  | mk name label arguments directives selection =>
    mk name label arguments directives
      (if selection.isEmpty then [] else completeSelection (withTypenames selection))

/-- Adds `__typename` below each of the fields. -/
def withTypenames : List Field → List Field
  | [] => []
  | f :: rest => withTypename f :: withTypenames rest

end

mutual

/-- A field and the fields below it, parents first. -/
def walk : Field → List Field
  | mk name label arguments directives selection =>
    mk name label arguments directives selection :: walkAll selection

/-- The walks through several fields. -/
def walkAll : List Field → List Field
  | [] => []
  | f :: rest => walk f ++ walkAll rest

end

theorem withTypename_of_isLeaf {f : Field} (h : f.isLeaf = true) : withTypename f = f := by
  obtain ⟨name, label, arguments, directives, selection⟩ := f
  have hnil : selection = [] := by simpa [isLeaf, Field.selection] using h
  subst hnil
  rfl

theorem withTypenames_eq_map (fields : List Field) :
    withTypenames fields = fields.map withTypename := by
  induction fields with
  | nil => rfl
  | cons f rest ih => rw [withTypenames, ih, List.map_cons]

theorem walkAll_eq_flatMap (fields : List Field) : walkAll fields = fields.flatMap walk := by
  induction fields with
  | nil => rfl
  | cons f rest ih => rw [walkAll, ih, List.flatMap_cons]

end Field

/-- What an operation does. -/
inductive OperationKind where
  | query
  | mutation
  | subscription
  deriving DecidableEq

namespace OperationKind

/-- The name of a kind. -/
def name : OperationKind → String
  | query => "query"
  | mutation => "mutation"
  | subscription => "subscription"

/-- The kind with exactly this name. -/
def ofName? : String → Option OperationKind
  | "query" => some query
  | "mutation" => some mutation
  | "subscription" => some subscription
  | _ => none

theorem ofName?_name (k : OperationKind) : ofName? k.name = some k := by cases k <;> rfl

end OperationKind

/-- An operation. The kind and the name are what it is reported under. A pass reads neither:
siblings are resolved in field order whatever the kind, and whether one may write is up to its
directives. -/
structure Operation where
  kind : OperationKind
  name : Option String
  directives : List Directive
  selection : List Field
  vars : Variables

namespace Operation

/-- An operation of a kind that selects nothing. -/
def empty (kind : OperationKind) : Operation := ⟨kind, none, [], [], []⟩

/-- Sets the name. -/
def named (o : Operation) (name : String) : Operation := { o with name := some name }

/-- Adds a directive. -/
def withDirective (o : Operation) (d : Directive) : Operation :=
  { o with directives := o.directives ++ [d] }

/-- Adds a root field. -/
def select (o : Operation) (f : Field) : Operation := { o with selection := o.selection ++ [f] }

/-- Binds a variable. -/
def withVariable (o : Operation) (name : String) (value : Json) : Operation :=
  { o with vars := o.vars.insert name value }

/-- The operation itself carries a directive with this name. -/
def hasDirective (o : Operation) (name : String) : Bool := o.directives.any (·.name == name)

/-- All fields, parents first. -/
def walk (o : Operation) : List Field := Field.walkAll o.selection

/-- Adds `__typename` to every selection below a root field. -/
def withTypenames (o : Operation) : Operation :=
  { o with selection := Field.withTypenames o.selection }

/-- Binds the variables of `shared` that the operation leaves unbound. -/
def withSharedVariables (o : Operation) (shared : Variables) : Operation :=
  { o with vars := o.vars.withDefaults shared }

/-- The operation asks for documents: it carries `@query` or `@mutation`. -/
def isDocumentOperation (o : Operation) : Bool :=
  o.hasDirective "query" || o.hasDirective "mutation"

end Operation

end LiveDocs
