import LiveDocs.Json.Decode
import LiveDocs.Proofs.Json.Text
import LiveDocs.Reference
import Mathlib.Order.Defs.Unbundled

/-!
# Paths as lists of segments

Whatever text a path is made from, its segments are not empty and hold no slash, and every list of
such segments is the list of some path. So a path can be taken for its segments: its text and its
JSON form read back, a text after a slash goes on from where the path leads, a single segment can be
taken off again, and the paths below a path are those that have more segments after its own. Main
statements: `obtained_iff`, which lists are made; `isAncestorOf_iff_child` and
`order_of_isAncestorOf`, what lies below a path, and that it sorts behind it; `acts_as_segments`,
all of these laws together.
-/

namespace LiveDocs

namespace Path

variable {p q r : Path}

/-! ### What is made -/

/-- The JSON form of a path is its text. -/
def toJson (p : Path) : Json := .string p.toString

/-- Reads a path from its JSON form; only a text is one. -/
def decode : Decoder Path := fun v => (Decoder.string v).map parse

/-- The lists of segments that paths are made of, with one constructor for each operation that makes
a path. -/
inductive Obtained : List String → Prop where
  | root : Obtained root.segments
  | parse (text : String) : Obtained (segmentsOf text)
  | child {segments : List String} (h : Obtained segments) (text : String) :
      Obtained (segments ++ segmentsOf text)
  | parent {segments : List String} (h : Obtained segments) : Obtained segments.dropLast
  | decode {v : Json} {p : Path} (h : decode v = some p) : Obtained p.segments

theorem isSegment_of_obtained {segments : List String} (h : Obtained segments) :
    ∀ s ∈ segments, IsSegment s := by
  induction h with
  | root => exact List.forall_mem_nil _
  | parse text => exact fun s hs => isSegment_of_mem_segmentsOf hs
  | child _ text ih =>
    intro s hs
    rcases List.mem_append.1 hs with hs | hs
    · exact ih s hs
    · exact isSegment_of_mem_segmentsOf hs
  | parent _ ih => exact fun s hs => ih s (List.mem_of_mem_dropLast hs)
  | decode h =>
    obtain ⟨text, -, rfl⟩ := Option.map_eq_some_iff.1 h
    exact fun s hs => isSegment_of_mem_segmentsOf hs

/-- The lists of segments that paths are made of are all lists of segments. -/
theorem obtained_iff {segments : List String} :
    Obtained segments ↔ ∀ s ∈ segments, IsSegment s := by
  refine ⟨isSegment_of_obtained, fun h => ?_⟩
  rw [← segmentsOf_join h]
  exact .parse _

/-! ### Reading back -/

theorem decode_toJson (p : Path) : decode p.toJson = some p := by
  have hstring : Decoder.string p.toJson = some p.toString := rfl
  rw [decode, hstring, Option.map_some, parse_toString]

/-- A path is also read from the text of its JSON form. -/
theorem decode_compact_toJson (p : Path) :
    (Json.parse? p.toJson.compact).bind decode = some p := by
  rw [toJson, Json.parse?_compact_string, Option.bind_some]
  exact p.decode_toJson

theorem parse_toString_append_slash (p : Path) (text : String) :
    parse (p.toString ++ "/" ++ text) = p.child text := by
  rw [parse_append_slash, parse_toString]

/-! ### Ancestors -/

/-- The paths below a path are those that a text with at least one segment leads to. -/
theorem isAncestorOf_iff_child :
    p.isAncestorOf q = true ↔ ∃ text, parse text ≠ root ∧ q = p.child text := by
  rw [isAncestorOf_iff]
  constructor
  · rintro ⟨rest, hne, hq⟩
    have hrest : ∀ s ∈ rest, IsSegment s := by
      intro s hs
      refine q.isSegment s ?_
      rw [hq]
      exact List.mem_append_right _ hs
    have hsegments := segmentsOf_join hrest
    refine ⟨Text.join '/' rest, fun hroot => hne ?_, ext ?_⟩
    · rw [← hsegments]
      exact congrArg segments hroot
    · rw [hq, segments_child, hsegments]
  · rintro ⟨text, hne, rfl⟩
    exact ⟨segmentsOf text, fun hnil => hne (ext hnil), rfl⟩

theorem not_isAncestorOf_self (p : Path) : ¬p.isAncestorOf p = true := by
  rw [isAncestorOf_iff]
  rintro ⟨rest, hne, hp⟩
  exact hne (List.append_right_eq_self.1 hp.symm)

theorem isAncestorOf_trans (hpq : p.isAncestorOf q = true) (hqr : q.isAncestorOf r = true) :
    p.isAncestorOf r = true := by
  obtain ⟨rest, hne, hq⟩ := isAncestorOf_iff.1 hpq
  obtain ⟨rest', -, hr⟩ := isAncestorOf_iff.1 hqr
  refine isAncestorOf_iff.2 ⟨rest ++ rest', List.append_ne_nil_of_left_ne_nil hne rest', ?_⟩
  rw [hr, hq, List.append_assoc]

instance : IsStrictOrder Path fun p q => p.isAncestorOf q = true where
  irrefl := not_isAncestorOf_self
  trans _ _ _ := isAncestorOf_trans

/-- A list comes before each of its proper extensions. -/
theorem compareSegments_append (segments : List String) {rest : List String} (h : rest ≠ []) :
    compareSegments segments (segments ++ rest) = .lt := by
  induction segments with
  | nil =>
    cases rest with
    | nil => exact absurd rfl h
    | cons => rfl
  | cons s segments ih =>
    have hs : compare s s = .eq := Std.ReflCmp.compare_self
    rw [List.cons_append, compareSegments, hs, ih]
    rfl

/-- What lies above sorts before. -/
theorem order_of_isAncestorOf (h : p.isAncestorOf q = true) : p.order q = .lt := by
  obtain ⟨rest, hne, hq⟩ := isAncestorOf_iff.1 h
  rw [order, hq]
  exact compareSegments_append _ hne

/-! ### All together -/

/-- The operations on paths make exactly the lists of segments, and they act on them as on lists:
texts and JSON forms read back, a text after a slash is appended, one segment can be appended and
taken off again, and to lie above is to be a proper prefix, which is a strict partial order within
the order of paths. -/
theorem acts_as_segments :
    (∀ segments, Obtained segments ↔ ∀ s ∈ segments, IsSegment s) ∧
      (∀ p : Path, Obtained p.segments ∧ parse p.toString = p ∧ decode p.toJson = some p ∧
        (Json.parse? p.toJson.compact).bind decode = some p) ∧
      (∀ (p : Path) (text : String), parse (p.toString ++ "/" ++ text) = p.child text) ∧
      (∀ (p : Path) (s : String), IsSegment s → (p.child s).parent = p ∧ (p.child s).last = s) ∧
      (∀ p q : Path,
        p.isAncestorOf q = true ↔ ∃ text, parse text ≠ root ∧ q = p.child text) ∧
      (IsStrictOrder Path fun p q => p.isAncestorOf q = true) ∧
      ∀ p q : Path, p.isAncestorOf q = true → p.order q = .lt := by
  refine ⟨fun _ => obtained_iff, fun p => ?_, parse_toString_append_slash, fun p s hs => ?_,
    fun _ _ => isAncestorOf_iff_child, inferInstance, fun _ _ => order_of_isAncestorOf⟩
  · exact ⟨obtained_iff.2 p.isSegment, p.parse_toString, p.decode_toJson, p.decode_compact_toJson⟩
  · exact ⟨parent_of_isSegment p hs, last_of_isSegment p hs⟩

/-- Doubled slashes and slashes at the ends leave no trace. -/
theorem acts_as_segments_posts :
    IsSegment "posts" ∧ ((parse "/users//u1/").child "posts").parent = parse "users/u1" ∧
      ((parse "/users//u1/").child "posts").last = "posts" ∧
      (parse "users").isAncestorOf (parse "users/u1//posts/") = true ∧
      (parse "users").order (parse "users/u1//posts/") = .lt := by
  obtain ⟨-, -, -, hchild, hancestor, -, horder⟩ := acts_as_segments
  have hsegment : IsSegment "posts" := ⟨by decide, by decide⟩
  have hparse : parse "/users//u1/" = parse "users/u1" := by decide +kernel
  have habove : (parse "users").isAncestorOf (parse "users/u1//posts/") = true :=
    (hancestor _ _).2 ⟨"u1//posts/", by decide +kernel, by decide +kernel⟩
  obtain ⟨hparent, hlast⟩ := hchild (parse "/users//u1/") "posts" hsegment
  exact ⟨hsegment, hparent.trans hparse, hlast, habove, horder _ _ habove⟩

end Path

end LiveDocs
