import LiveDocs.Text.Separated

/-!
# Paths

A path is a list of segments, none of them empty and none with a slash inside. Main statements:
`parse_toString`, the text of a path reads back as the path; `parse_append_slash`, a slash in a
text joins two paths; `isAncestorOf_iff`, an ancestor is the path with at least one segment less
at the end.
-/

namespace LiveDocs

open Text (splitChars joinChars)

/-- A segment is not empty and holds no slash. -/
def IsSegment (s : String) : Prop := s ≠ "" ∧ '/' ∉ s.toList

/-- A slash-separated path into a store. -/
structure Path where
  segments : List String
  isSegment : ∀ s ∈ segments, IsSegment s
  deriving DecidableEq

namespace Path

/-- The segments of a text: what stands between slashes, where there is anything. -/
def segmentsOf (text : String) : List String := (Text.split '/' text).filter (· ≠ "")

theorem isSegment_of_mem_segmentsOf {text s : String} (h : s ∈ segmentsOf text) : IsSegment s := by
  obtain ⟨hmem, hne⟩ := List.mem_filter.1 h
  obtain ⟨piece, hpiece, rfl⟩ := List.mem_map.1 hmem
  refine ⟨by simpa using hne, ?_⟩
  rw [String.toList_ofList]
  exact Text.not_mem_of_mem_splitChars hpiece

/-- The path written in a text. Empty segments are dropped. -/
def parse (text : String) : Path := ⟨segmentsOf text, fun _ => isSegment_of_mem_segmentsOf⟩

/-- The path of no segments. -/
def root : Path := ⟨[], by simp⟩

instance : Inhabited Path := ⟨root⟩

/-- Two paths one after the other. -/
def append (p q : Path) : Path :=
  ⟨p.segments ++ q.segments, fun s hs =>
    (List.mem_append.1 hs).elim (p.isSegment s) (q.isSegment s)⟩

/-- The path below `p` that a text leads to. -/
def child (p : Path) (text : String) : Path := p.append (parse text)

/-- The path without its last segment. -/
def parent (p : Path) : Path :=
  ⟨p.segments.dropLast, fun s hs => p.isSegment s ((List.dropLast_sublist _).subset hs)⟩

/-- The last segment, empty for the root. -/
def last (p : Path) : String := p.segments.getLast?.getD ""

/-- The path has no segments. -/
def isRoot (p : Path) : Bool := p.segments.isEmpty

/-- The text of a path: its segments with slashes between them. -/
def toString (p : Path) : String := Text.join '/' p.segments

/-- The path leads to a place above another one. -/
def isAncestorOf (p q : Path) : Bool :=
  decide (p.segments.length < q.segments.length) && p.segments.isPrefixOf q.segments

/-- Lists of segments in lexicographic order. -/
def compareSegments : List String → List String → Ordering
  | [], [] => .eq
  | [], _ :: _ => .lt
  | _ :: _, [] => .gt
  | a :: as, b :: bs => (compare a b).then (compareSegments as bs)

/-- The order of paths. -/
def order (p q : Path) : Ordering := compareSegments p.segments q.segments

@[ext] theorem ext {p q : Path} (h : p.segments = q.segments) : p = q := by
  cases p
  cases q
  simpa using h

@[simp] theorem segments_parse (text : String) : (parse text).segments = segmentsOf text := rfl

@[simp] theorem segments_child (p : Path) (text : String) :
    (p.child text).segments = p.segments ++ segmentsOf text := rfl

@[simp] theorem segments_parent (p : Path) : p.parent.segments = p.segments.dropLast := rfl

/-! ### Reading and writing -/

theorem segmentsOf_of_isSegment {s : String} (h : IsSegment s) : segmentsOf s = [s] := by
  simp [segmentsOf, Text.split, Text.splitChars_of_not_mem h.2, h.1]

theorem segmentsOf_append_slash (front rest : String) :
    segmentsOf (front ++ "/" ++ rest) = segmentsOf front ++ segmentsOf rest := by
  have h : (front ++ "/" ++ rest).toList = front.toList ++ '/' :: rest.toList := by simp
  simp only [segmentsOf, Text.split, h, Text.splitChars_append_cons, List.map_append,
    List.filter_append]

/-- A slash joins two paths. -/
theorem parse_append_slash (front rest : String) :
    parse (front ++ "/" ++ rest) = (parse front).child rest :=
  ext (by simp [segmentsOf_append_slash])

theorem join_cons_cons (s t : String) (rest : List String) :
    Text.join '/' (s :: t :: rest) = s ++ "/" ++ Text.join '/' (t :: rest) := by
  rw [← String.toList_inj]
  simp [Text.join, joinChars]

theorem segmentsOf_join {segments : List String} (h : ∀ s ∈ segments, IsSegment s) :
    segmentsOf (Text.join '/' segments) = segments := by
  induction segments with
  | nil => simp [segmentsOf, Text.split, Text.join, joinChars, splitChars]
  | cons s rest ih =>
    have hs := segmentsOf_of_isSegment (h s (by simp))
    cases rest with
    | nil => simpa [Text.join, joinChars] using hs
    | cons t rest =>
      rw [join_cons_cons, segmentsOf_append_slash, hs, ih fun u hu => h u (by simp [hu])]
      rfl

/-- The text of a path reads back as the path. -/
theorem parse_toString (p : Path) : parse p.toString = p := ext (segmentsOf_join p.isSegment)

/-! ### Ancestors -/

theorem isAncestorOf_iff {p q : Path} :
    p.isAncestorOf q = true ↔ ∃ rest, rest ≠ [] ∧ q.segments = p.segments ++ rest := by
  simp only [isAncestorOf, Bool.and_eq_true, decide_eq_true_eq, List.isPrefixOf_iff_prefix]
  constructor
  · rintro ⟨hlen, rest, hrest⟩
    refine ⟨rest, ?_, hrest.symm⟩
    rintro rfl
    rw [← hrest] at hlen
    simp at hlen
  · rintro ⟨rest, hne, hq⟩
    refine ⟨?_, rest, hq.symm⟩
    rw [hq, List.length_append]
    have := List.length_pos_iff.2 hne
    omega

end Path

end LiveDocs
