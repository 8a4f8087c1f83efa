import LiveDocs.Pass
import LiveDocs.Proofs.Json.FieldPath
import Mathlib.Algebra.Group.Nat.Even

/-!
# References of dotted paths

A dotted path is resolved step by step, and each step parses its segment as a path of its own. Since
a text with slashes parses piece by piece, all the steps together come to one parse of the whole
text with slashes for dots; and since each step changes the kind, only the number of dots decides
what kind of reference it is. Main statements: `segmentsOf_slashed`, one parse of the whole text;
`ofDotted_append`, a longer path goes on from where the shorter one leads;
`resolveReference_slashed`, what a dotted path leads to.
-/

namespace LiveDocs

/-! ### Dots and slashes -/

namespace Text

theorem length_splitChars (sep : Char) (cs : List Char) :
    (splitChars sep cs).length = cs.count sep + 1 := by
  induction cs with
  | nil => rfl
  | cons c rest ih =>
    by_cases hc : c = sep
    · rw [splitChars, if_pos hc, hc, List.count_cons_self, List.length_cons, ih]
    · rw [splitChars, if_neg hc, List.count_cons_of_ne hc, ← ih]
      cases hsplit : splitChars sep rest with
      | nil => exact absurd hsplit (splitChars_ne_nil sep rest)
      | cons piece pieces => rfl

theorem length_split (sep : Char) (s : String) : (split sep s).length = s.toList.count sep + 1 := by
  rw [split, List.length_map, length_splitChars]

theorem split_append_cons {sep : Char} {s front rest : String}
    (h : s.toList = front.toList ++ sep :: rest.toList) :
    split sep s = split sep front ++ split sep rest := by
  rw [split, h, splitChars_append_cons, List.map_append, split, split]

/-- Another separator between pieces is as good as the first one. -/
theorem map_joinChars {sep other : Char} {pieces : List (List Char)}
    (h : ∀ piece ∈ pieces, sep ∉ piece) :
    (joinChars sep pieces).map (fun c => if c = sep then other else c) =
      joinChars other pieces := by
  induction pieces with
  | nil => rfl
  | cons piece rest ih =>
    obtain ⟨hpiece, hrest⟩ := List.forall_mem_cons.1 h
    have hsame : piece.map (fun c => if c = sep then other else c) = piece := by
      refine (List.map_congr_left fun c hc => if_neg ?_).trans (List.map_id' piece)
      rintro rfl
      exact hpiece hc
    by_cases hlast : rest = []
    · subst hlast
      exact hsame
    · rw [joinChars_cons_of_ne_nil sep piece hlast, joinChars_cons_of_ne_nil other piece hlast,
        List.map_append, List.map_cons, if_pos rfl, hsame, ih hrest]

end Text

/-- A dotted path with slashes for dots. -/
def slashed (dotted : String) : String := dotted.map fun c => if c = '.' then '/' else c

theorem slashed_eq_join (dotted : String) :
    slashed dotted = Text.join '/' (Text.split '.' dotted) := by
  have hpieces : (Text.split '.' dotted).map String.toList = Text.splitChars '.' dotted.toList := by
    rw [Text.split, List.map_map]
    exact (List.map_congr_left fun _ _ => String.toList_ofList).trans (List.map_id _)
  rw [← String.toList_inj, slashed, String.toList_map, Text.join, String.toList_ofList, hpieces,
    ← Text.map_joinChars fun _ => Text.not_mem_of_mem_splitChars, Text.joinChars_splitChars]

namespace Path

/-- A text with slashes is parsed piece by piece. -/
theorem segmentsOf_join_flatMap (pieces : List String) :
    segmentsOf (Text.join '/' pieces) = pieces.flatMap segmentsOf := by
  induction pieces with
  | nil => simp [segmentsOf, Text.split, Text.join, Text.joinChars, Text.splitChars]
  | cons piece rest ih =>
    cases rest with
    | nil => simp [Text.join, Text.joinChars]
    | cons next rest =>
      rw [join_cons_cons, segmentsOf_append_slash, ih, List.flatMap_cons (x := piece)]

theorem segmentsOf_slashed (dotted : String) :
    segmentsOf (slashed dotted) = (Text.split '.' dotted).flatMap segmentsOf := by
  rw [slashed_eq_join, segmentsOf_join_flatMap]

end Path

/-! ### Steps -/

namespace Reference

theorem segments_foldl_step (r : Reference) (segments : List String) :
    (segments.foldl step r).path.segments =
      r.path.segments ++ segments.flatMap Path.segmentsOf := by
  induction segments generalizing r with
  | nil => simp
  | cons segment rest ih =>
    rw [List.foldl_cons, ih, path_step, Path.segments_child, List.flatMap_cons, List.append_assoc]

theorem kind_foldl_step (r : Reference) (segments : List String) :
    (segments.foldl step r).kind = if Even segments.length then r.kind else r.kind.other := by
  induction segments generalizing r with
  | nil => rfl
  | cons segment rest ih =>
    have hother : r.kind.other.other = r.kind := by cases r <;> rfl
    rw [List.foldl_cons, ih, kind_step, hother, List.length_cons]
    by_cases heven : Even rest.length
    · rw [if_pos heven, if_neg (by rwa [Nat.even_add_one, not_not])]
    · rw [if_neg heven, if_pos (by rwa [Nat.even_add_one])]

theorem path_ofText (kind : ReferenceKind) (text : String) :
    (ofText kind text).path = .parse text := by
  cases kind <;> rfl

theorem kind_ofText (kind : ReferenceKind) (text : String) : (ofText kind text).kind = kind := by
  cases kind <;> rfl

/-- The steps together parse the whole text. -/
theorem path_ofDotted (kind : ReferenceKind) (dotted : String) :
    (ofDotted kind dotted).path = .parse (slashed dotted) := by
  refine Path.ext ?_
  rw [ofDotted, Path.segments_parse, Path.segmentsOf_slashed]
  cases hsplit : Text.split '.' dotted with
  | nil => exact absurd hsplit (Text.split_ne_nil '.' dotted)
  | cons first rest => rw [segments_foldl_step, path_ofText, Path.segments_parse, List.flatMap_cons]

/-- The kind depends on the number of dots alone. -/
theorem kind_ofDotted (kind : ReferenceKind) (dotted : String) :
    (ofDotted kind dotted).kind = if Even (dotted.toList.count '.') then kind else kind.other := by
  have hlength := Text.length_split '.' dotted
  rw [ofDotted]
  cases hsplit : Text.split '.' dotted with
  | nil => exact absurd hsplit (Text.split_ne_nil '.' dotted)
  | cons first rest =>
    rw [hsplit, List.length_cons, Nat.add_right_cancel_iff] at hlength
    rw [kind_foldl_step, kind_ofText, hlength]

/-- A longer path goes on from where the shorter one leads. -/
theorem ofDotted_append (kind : ReferenceKind) (dotted tail : String) :
    ofDotted kind (dotted ++ "." ++ tail) =
      (Text.split '.' tail).foldl step (ofDotted kind dotted) := by
  have happend : Text.split '.' (dotted ++ "." ++ tail) =
      Text.split '.' dotted ++ Text.split '.' tail := Text.split_append_cons (by simp)
  rw [ofDotted, ofDotted, happend]
  cases hsplit : Text.split '.' dotted with
  | nil => exact absurd hsplit (Text.split_ne_nil '.' dotted)
  | cons first rest => exact List.foldl_append

end Reference

/-- Every dotted path leads somewhere once the kind of its root is given: to the path that is
written by the text with slashes for dots, and to a reference of the root's kind exactly if the
number of dots is even. One more segment is one more step: to a document of a collection, or to a
collection of a document. -/
theorem resolveReference_slashed (dotted : String) (kind : ReferenceKind) :
    ∃ r, resolveReference dotted (some kind) = .ok r ∧ r.path = .parse (slashed dotted) ∧
      r.kind = (if Even (dotted.toList.count '.') then kind else kind.other) ∧
      ∀ segment : String, '.' ∉ segment.toList →
        resolveReference (dotted ++ "." ++ segment) (some kind) = .ok (match r with
          | .collection c => .document (c.doc segment)
          | .document d => .collection (d.collection segment)) := by
  refine ⟨.ofDotted kind dotted, rfl, Reference.path_ofDotted kind dotted,
    Reference.kind_ofDotted kind dotted, fun segment hsegment => ?_⟩
  rw [resolveReference, Reference.ofDotted_append, Text.split_of_not_mem hsegment, List.foldl_cons,
    List.foldl_nil]
  cases Reference.ofDotted kind dotted <;> rfl

/-- Empty segments and slashes inside a segment are no exception. -/
theorem resolveReference_slashed_drafts :
    '.' ∉ "p1/notes".toList ∧
      ∃ r, resolveReference "users..u1/posts" (some .collection) = .ok r ∧
        r = .collection (.ofText "users/u1/posts") ∧
        resolveReference "users..u1/posts.p1/notes" (some .collection) =
          .ok (.document (.ofText "users/u1/posts/p1/notes")) := by
  obtain ⟨r, hr, hpath, hkind, happend⟩ := resolveReference_slashed "users..u1/posts" .collection
  have hsegment : '.' ∉ "p1/notes".toList := by decide
  have hslashed : Path.parse (slashed "users..u1/posts") = .parse "users/u1/posts" := by
    decide +kernel
  have heven : Even ("users..u1/posts".toList.count '.') := by decide +kernel
  rw [if_pos heven] at hkind
  rw [hslashed] at hpath
  have happended := happend "p1/notes" hsegment
  cases r with
  | document d => cases hkind
  | collection c =>
    obtain rfl : c = .ofText "users/u1/posts" := congrArg CollectionRef.mk hpath
    refine ⟨hsegment, _, hr, rfl, ?_⟩
    have hpath' : (CollectionRef.ofText "users/u1/posts").doc "p1/notes" =
        .ofText "users/u1/posts/p1/notes" := by decide +kernel
    rw [← hpath']
    exact happended

end LiveDocs
