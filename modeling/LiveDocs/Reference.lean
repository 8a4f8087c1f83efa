import LiveDocs.Path
import LiveDocs.Vocabulary

/-!
# References

A store is a tree in which collections and documents alternate: a collection holds documents, a
document may hold collections of its own. A reference is a path together with what it leads to.
`Reference.ofDotted` opens a root and takes one step down for every further dot-separated segment;
the text of a segment never decides what it names. Main statements: `kind_step`, a step changes
the kind, and `parent_of_isSegment` and `parent_doc`, a step by one segment can be taken back.
-/

namespace LiveDocs

/-- A reference to a collection. -/
structure CollectionRef where
  path : Path
  deriving DecidableEq

/-- A reference to a document. -/
structure DocumentRef where
  path : Path
  deriving DecidableEq

namespace CollectionRef

/-- The collection at the path written in a text. -/
def ofText (text : String) : CollectionRef := ⟨Path.parse text⟩

/-- The last segment of the path. -/
def id (c : CollectionRef) : String := c.path.last

/-- The document of a collection with this id. -/
def doc (c : CollectionRef) (id : String) : DocumentRef := ⟨c.path.child id⟩

/-- The document that a collection belongs to; a top-level one belongs to none. -/
def parent? (c : CollectionRef) : Option DocumentRef :=
  if c.path.parent.isRoot then none else some ⟨c.path.parent⟩

/-- The text of the path. -/
def toString (c : CollectionRef) : String := c.path.toString

end CollectionRef

namespace DocumentRef

/-- The document at the path written in a text. -/
def ofText (text : String) : DocumentRef := ⟨Path.parse text⟩

/-- The last segment of the path. -/
def id (d : DocumentRef) : String := d.path.last

/-- The collection of a document with this name. -/
def collection (d : DocumentRef) (name : String) : CollectionRef := ⟨d.path.child name⟩

/-- The collection that holds a document. -/
def parent (d : DocumentRef) : CollectionRef := ⟨d.path.parent⟩

/-- The text of the path. -/
def toString (d : DocumentRef) : String := d.path.toString

end DocumentRef

/-- A reference to a collection or to a document. -/
inductive Reference where
  | collection (ref : CollectionRef)
  | document (ref : DocumentRef)
  deriving DecidableEq

namespace Reference

/-- What a reference leads to. -/
def kind : Reference → ReferenceKind
  | collection _ => .collection
  | document _ => .document

/-- Where a reference leads. -/
def path : Reference → Path
  | collection ref => ref.path
  | document ref => ref.path

/-- The kind and the path of a reference. -/
def toString (r : Reference) : String := r.kind.name ++ " " ++ r.path.toString

/-- The reference of a kind at the path written in a text. -/
def ofText (kind : ReferenceKind) (text : String) : Reference :=
  match kind with
  | .collection => collection (.ofText text)
  | .document => document (.ofText text)

/-- One level down: below a collection lies a document, below a document a collection. -/
def step : Reference → String → Reference
  | collection ref, segment => document (ref.doc segment)
  | document ref, segment => collection (ref.collection segment)

/-- The reference that a dotted path leads to from a root of the given kind. -/
def ofDotted (kind : ReferenceKind) (dotted : String) : Reference :=
  match Text.split '.' dotted with
  | [] => ofText kind ""
  | first :: rest => rest.foldl step (ofText kind first)

theorem kind_step (r : Reference) (segment : String) : (r.step segment).kind = r.kind.other := by
  cases r <;> rfl

theorem path_step (r : Reference) (segment : String) :
    (r.step segment).path = r.path.child segment := by
  cases r <;> rfl

end Reference

theorem parent_of_isSegment (p : Path) {s : String} (h : IsSegment s) : (p.child s).parent = p :=
  Path.ext (by simp [Path.segmentsOf_of_isSegment h])

theorem last_of_isSegment (p : Path) {s : String} (h : IsSegment s) : (p.child s).last = s := by
  simp [Path.last, Path.segmentsOf_of_isSegment h]

theorem CollectionRef.parent_doc (c : CollectionRef) {id : String} (h : IsSegment id) :
    (c.doc id).parent = c := by
  cases c
  simp [doc, DocumentRef.parent, parent_of_isSegment _ h]

end LiveDocs
