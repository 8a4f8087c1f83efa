import LiveDocs.Text.Character

/-!
# Closed vocabularies

The names that directive arguments and query operations choose from. Every type has its canonical
name and a reader. Readers ignore the case of ASCII letters, except for filter operators, which
are written in one way only. Main statements: the `ofName?_name` lemmas, every canonical name
reads back.
-/

namespace LiveDocs

/-- The two kinds of references, which alternate along a path. -/
inductive ReferenceKind where
  | collection
  | document
  deriving DecidableEq

namespace ReferenceKind

/-- The name of a kind. -/
def name : ReferenceKind → String
  | collection => "collection"
  | document => "document"

/-- The kind with this name; `doc` is short for `document`. -/
def ofName? (s : String) : Option ReferenceKind :=
  match Text.asciiLower s with
  | "collection" => some collection
  | "document" => some document
  | "doc" => some document
  | _ => none

/-- The kind one level below. -/
def other : ReferenceKind → ReferenceKind
  | collection => document
  | document => collection

theorem ofName?_name (k : ReferenceKind) : ofName? k.name = some k := by cases k <;> decide +kernel

end ReferenceKind

/-- Where a read is served from. -/
inductive Source where
  | default
  | server
  | cache
  deriving DecidableEq

namespace Source

/-- The name of a source. -/
def name : Source → String
  | default => "default"
  | server => "server"
  | cache => "cache"

/-- The source with this name. -/
def ofName? (s : String) : Option Source :=
  match Text.asciiLower s with
  | "default" => some default
  | "server" => some server
  | "cache" => some cache
  | _ => none

theorem ofName?_name (s : Source) : ofName? s.name = some s := by cases s <;> decide +kernel

end Source

/-- How a value is read that the server has not confirmed yet. -/
inductive PendingMode where
  | hidden
  | estimate
  | previous
  deriving DecidableEq

namespace PendingMode

/-- The name of a mode. -/
def name : PendingMode → String
  | hidden => "none"
  | estimate => "estimate"
  | previous => "previous"

/-- The mode with this name. -/
def ofName? (s : String) : Option PendingMode :=
  match Text.asciiLower s with
  | "none" => some hidden
  | "estimate" => some estimate
  | "previous" => some previous
  | _ => none

theorem ofName?_name (m : PendingMode) : ofName? m.name = some m := by cases m <;> decide +kernel

end PendingMode

/-- The write that a mutation performs. -/
inductive MutationType where
  | add
  | set
  | update
  | delete
  deriving DecidableEq

namespace MutationType

/-- The name of a mutation type. -/
def name : MutationType → String
  | add => "add"
  | set => "set"
  | update => "update"
  | delete => "delete"

/-- The name as it begins a sentence. -/
def title : MutationType → String
  | add => "Add"
  | set => "Set"
  | update => "Update"
  | delete => "Delete"

/-- The mutation type with this name. -/
def ofName? (s : String) : Option MutationType :=
  match Text.asciiLower s with
  | "add" => some add
  | "set" => some set
  | "update" => some update
  | "delete" => some delete
  | _ => none

theorem ofName?_name (m : MutationType) : ofName? m.name = some m := by
  cases m <;> decide +kernel

end MutationType

/-- A sort direction. -/
inductive Direction where
  | ascending
  | descending
  deriving DecidableEq

namespace Direction

/-- The name of a direction. -/
def name : Direction → String
  | ascending => "asc"
  | descending => "desc"

/-- The direction with this name. -/
def ofName? (s : String) : Option Direction :=
  match Text.asciiLower s with
  | "asc" => some ascending
  | "desc" => some descending
  | _ => none

theorem ofName?_name (d : Direction) : ofName? d.name = some d := by cases d <;> decide +kernel

end Direction

/-- The comparison of a filter. -/
inductive FilterOp where
  | less
  | lessOrEqual
  | equal
  | notEqual
  | greaterOrEqual
  | greater
  | arrayContains
  | arrayContainsAny
  | among
  | notAmong
  deriving DecidableEq

namespace FilterOp

/-- The operator as it is written. -/
def name : FilterOp → String
  | less => "<"
  | lessOrEqual => "<="
  | equal => "=="
  | notEqual => "!="
  | greaterOrEqual => ">="
  | greater => ">"
  | arrayContains => "array-contains"
  | arrayContainsAny => "array-contains-any"
  | among => "in"
  | notAmong => "not-in"

/-- The operator written like this. -/
def ofName? : String → Option FilterOp
  | "<" => some less
  | "<=" => some lessOrEqual
  | "==" => some equal
  | "!=" => some notEqual
  | ">=" => some greaterOrEqual
  | ">" => some greater
  | "array-contains" => some arrayContains
  | "array-contains-any" => some arrayContainsAny
  | "in" => some among
  | "not-in" => some notAmong
  | _ => none

theorem ofName?_name (o : FilterOp) : ofName? o.name = some o := by cases o <;> rfl

end FilterOp

end LiveDocs
