import LiveDocs.Proofs.Query.Operators
import LiveDocs.Proofs.Query.Paging
import Mathlib.Data.List.Perm.Basic

/-!
# What a query answers

The answer to a query is determined by which documents belong to it and by their order, and both
can be read off the operations of the query, without the steps of the evaluation: a document belongs
to it if it passes every filter, has the field that is sorted by and lies inside every window that a
cursor opens; the documents ascend strictly in the order of the query, and a limit keeps the first
of them. Of several sort orders, or of several limits, it is the last one that counts. Main
statements: `cut_eq_ok_iff`, cursors cut off what lies outside their windows; `evaluate_eq_ok_iff`,
what evaluating a query comes to; `answers_of_getQuery`, when a query is refused, what it answers
otherwise, and that neither depends on the order in which the query was put together.
-/

namespace LiveDocs

/-! ### The operation that counts -/

namespace QueryOp

/-- The operation sorts. -/
def isOrderBy : QueryOp → Bool
  | orderBy _ _ => true
  | _ => false

/-- The operation is a limit. -/
def isLimit : QueryOp → Bool
  | limit _ => true
  | _ => false

/-- An operation is the last one of its kind: behind it there is no other one of the kind. -/
def IsLast (kind : QueryOp → Bool) (op : QueryOp) (ops : List QueryOp) : Prop :=
  ∃ front rest, ops = front ++ op :: rest ∧ ∀ other ∈ rest, kind other = false

variable {kind : QueryOp → Bool} {op : QueryOp} {ops ops' : List QueryOp}

/-- If there is one operation of a kind at most, then it is the last one wherever it stands. -/
theorem isLast_iff_mem (hop : kind op = true) (hcount : ops.countP kind ≤ 1) :
    IsLast kind op ops ↔ op ∈ ops := by
  constructor
  · rintro ⟨front, rest, rfl, -⟩
    simp
  · intro hmem
    obtain ⟨front, rest, rfl⟩ := List.append_of_mem hmem
    refine ⟨front, rest, rfl, fun other hother => ?_⟩
    -- another one behind it would be the second of the kind
    rw [List.countP_append, List.countP_cons_of_pos hop] at hcount
    have hrest : rest.countP kind = 0 := by omega
    simpa using List.countP_eq_zero.1 hrest other hother

theorem isLast_iff_of_perm (hperm : ops'.Perm ops) (hcount : ops.countP kind ≤ 1)
    (hop : kind op = true) : IsLast kind op ops' ↔ IsLast kind op ops := by
  have hcount' : ops'.countP kind ≤ 1 := (hperm.countP_eq kind).le.trans hcount
  rw [isLast_iff_mem hop hcount', isLast_iff_mem hop hcount, hperm.mem_iff]

section Collected

variable {α : Type} {f : QueryOp → Option α} {a : α} (make : α → QueryOp)

/-- What is collected from operations that are made from values are these values. -/
theorem mem_filterMap_iff (hmake : ∀ op a, f op = some a ↔ op = make a) :
    a ∈ ops.filterMap f ↔ make a ∈ ops := by
  simp only [List.mem_filterMap, hmake, exists_eq_right]

theorem getLast?_filterMap_eq_none_iff (hmake : ∀ op a, f op = some a ↔ op = make a) :
    (ops.filterMap f).getLast? = none ↔ ∀ a, make a ∉ ops := by
  rw [List.getLast?_eq_none_iff, List.eq_nil_iff_forall_not_mem]
  exact forall_congr' fun a => not_congr (mem_filterMap_iff make hmake)

/-- What is collected last comes from the last operation of its kind. -/
theorem getLast?_filterMap_eq_some_iff (hmake : ∀ op a, f op = some a ↔ op = make a)
    (hkind : ∀ op, f op = none ↔ kind op = false) :
    (ops.filterMap f).getLast? = some a ↔ IsLast kind (make a) ops := by
  rw [List.getLast?_filterMap, List.findSome?_eq_some_iff]
  constructor
  · rintro ⟨behind, op, before, hops, hop, hbehind⟩
    obtain rfl := (hmake op a).1 hop
    refine ⟨before.reverse, behind.reverse, ?_, fun other hmem => ?_⟩
    · simpa using congrArg List.reverse hops
    · exact (hkind other).1 (hbehind other (List.mem_reverse.1 hmem))
  · rintro ⟨front, rest, rfl, hrest⟩
    refine ⟨rest.reverse, make a, front.reverse, by simp, (hmake _ a).2 rfl, fun other hmem => ?_⟩
    exact (hkind other).2 (hrest other (List.mem_reverse.1 hmem))

end Collected

end QueryOp

namespace Query

variable {q q' : Query} {c : Collection} {a b entry cursor : String × Members}
  {documents documents' kept : List (String × Members)} {field : String} {direction : Direction}
  {count : Nat}

/-- The last sort order of a query sorts by a field in a direction. -/
def SortsBy (q : Query) (field : String) (direction : Direction) : Prop :=
  QueryOp.IsLast QueryOp.isOrderBy (.orderBy field direction) q.ops

/-- The last limit of a query is a number of documents. -/
def LimitsTo (q : Query) (count : Nat) : Prop :=
  QueryOp.IsLast QueryOp.isLimit (.limit count) q.ops

theorem sortOrder?_eq_some_iff :
    q.sortOrder? = some ⟨field, direction⟩ ↔ q.SortsBy field direction := by
  refine QueryOp.getLast?_filterMap_eq_some_iff
    (fun order : SortOrder => .orderBy order.field order.direction) ?_ ?_
  · rintro (_ | _ | _ | _) ⟨_, _⟩ <;> simp
  · rintro (_ | _ | _ | _) <;> simp [QueryOp.isOrderBy]

theorem sortOrder?_eq_none_iff :
    q.sortOrder? = none ↔ ∀ field direction, .orderBy field direction ∉ q.ops := by
  refine (QueryOp.getLast?_filterMap_eq_none_iff
    (fun order : SortOrder => .orderBy order.field order.direction) ?_).trans ?_
  · rintro (_ | _ | _ | _) ⟨_, _⟩ <;> simp
  · exact ⟨fun h field direction => h ⟨field, direction⟩, fun h order => h _ _⟩

theorem limit?_eq_some_iff : q.limit? = some count ↔ q.LimitsTo count := by
  refine QueryOp.getLast?_filterMap_eq_some_iff .limit ?_ ?_
  · rintro (_ | _ | _ | _) _ <;> simp
  · rintro (_ | _ | _ | _) <;> simp [QueryOp.isLimit]

theorem limit?_eq_none_iff : q.limit? = none ↔ ∀ count, .limit count ∉ q.ops := by
  refine QueryOp.getLast?_filterMap_eq_none_iff .limit ?_
  rintro (_ | _ | _ | _) _ <;> simp

theorem mem_filters_iff {condition : Filter} :
    condition ∈ q.filters ↔ .filter condition ∈ q.ops := by
  refine QueryOp.mem_filterMap_iff .filter ?_
  rintro (_ | _ | _ | _) _ <;> simp

theorem mem_cursors_iff {bound : Bound} {d : DocumentRef} :
    (bound, d) ∈ q.cursors ↔ .cursor bound d ∈ q.ops := by
  refine QueryOp.mem_filterMap_iff
    (fun cursor : Bound × DocumentRef => .cursor cursor.1 cursor.2) ?_
  rintro (_ | _ | _ | _) ⟨_, _⟩ <;> simp

theorem cursors_eq_nil_iff : q.cursors = [] ↔ ∀ bound d, .cursor bound d ∉ q.ops := by
  rw [List.eq_nil_iff_forall_not_mem, Prod.forall]
  exact forall₂_congr fun _ _ => not_congr mem_cursors_iff

/-! ### The order of a query -/

/-- A document comes before another one by the value of a field, or by id where the values are
equivalent. Without the field, a document is where it would be with null in it. -/
def Before (field : String) (a b : String × Members) : Prop :=
  ((Members.read field a.2).getD .null).order ((Members.read field b.2).getD .null) = .lt ∨
    ((Members.read field a.2).getD .null).order ((Members.read field b.2).getD .null) = .eq ∧
      a.1 < b.1

/-- A document precedes another one in a query. -/
inductive Precedes (q : Query) (a b : String × Members) : Prop where
  /-- The last sort order ascends. -/
  | ascending {field : String} (hsorts : q.SortsBy field .ascending) (hbefore : Before field a b)
  /-- The last sort order descends: it is the other way round. -/
  | descending {field : String} (hsorts : q.SortsBy field .descending) (hbefore : Before field b a)
  /-- Without a sort order the ids decide. -/
  | unsorted (hunsorted : ∀ field direction, .orderBy field direction ∉ q.ops) (hid : a.1 < b.1)

/-- A document lies inside the window that a cursor opens at its own document. -/
def Inside (q : Query) (cursor entry : String × Members) : Bound → Prop
  | .startAt => ¬ q.Precedes entry cursor
  | .startAfter => q.Precedes cursor entry
  | .endAt => ¬ q.Precedes cursor entry
  | .endBefore => q.Precedes entry cursor

theorem before_iff (horder : q.sortOrder? = some ⟨field, direction⟩) :
    Before field a b ↔ q.orderAscending a b = .lt := by
  rw [orderAscending, compareLex, Ordering.then_eq_lt]
  simp only [Before, sortKey, horder]
  exact or_congr_right (and_congr_right fun _ => compareOfLessAndEq_eq_lt.symm)

theorem orderDocuments_eq_lt_iff_of_ascending (horder : q.sortOrder? = some ⟨field, .ascending⟩) :
    q.orderDocuments a b = .lt ↔ Before field a b := by
  rw [before_iff horder]
  simp only [orderDocuments, horder]
  rfl

theorem orderDocuments_eq_lt_iff_of_descending (horder : q.sortOrder? = some ⟨field, .descending⟩) :
    q.orderDocuments a b = .lt ↔ Before field b a := by
  have hswap : q.orderAscending b a = (q.orderAscending a b).swap := Std.OrientedCmp.eq_swap
  rw [before_iff horder, hswap]
  simp only [orderDocuments, horder]
  rfl

theorem orderDocuments_eq_lt_iff_of_unsorted (horder : q.sortOrder? = none) :
    q.orderDocuments a b = .lt ↔ a.1 < b.1 := by
  have hnull : Json.order .null .null = .eq := rfl
  simp only [orderDocuments, sortKey, horder, hnull, Ordering.then]
  exact compareOfLessAndEq_eq_lt

theorem precedes_iff : q.Precedes a b ↔ q.orderDocuments a b = .lt := by
  constructor
  · rintro (⟨hsorts, hbefore⟩ | ⟨hsorts, hbefore⟩ | ⟨hunsorted, hid⟩)
    · exact (orderDocuments_eq_lt_iff_of_ascending (sortOrder?_eq_some_iff.2 hsorts)).2 hbefore
    · exact (orderDocuments_eq_lt_iff_of_descending (sortOrder?_eq_some_iff.2 hsorts)).2 hbefore
    · exact (orderDocuments_eq_lt_iff_of_unsorted (sortOrder?_eq_none_iff.2 hunsorted)).2 hid
  · intro h
    rcases horder : q.sortOrder? with _ | ⟨field, ascending | descending⟩
    · exact .unsorted (sortOrder?_eq_none_iff.1 horder)
        ((orderDocuments_eq_lt_iff_of_unsorted horder).1 h)
    · exact .ascending (sortOrder?_eq_some_iff.1 horder)
        ((orderDocuments_eq_lt_iff_of_ascending horder).1 h)
    · exact .descending (sortOrder?_eq_some_iff.1 horder)
        ((orderDocuments_eq_lt_iff_of_descending horder).1 h)

theorem inside_iff {bound : Bound} :
    q.Inside cursor entry bound ↔ bound.keeps (q.orderDocuments entry cursor) = true := by
  have hswap : q.orderDocuments cursor entry = (q.orderDocuments entry cursor).swap :=
    Std.OrientedCmp.eq_swap
  cases bound <;> simp only [Inside, precedes_iff, hswap, Bound.keeps] <;>
    cases q.orderDocuments entry cursor <;> decide

/-! ### Cursors -/

/-- The documents of a collection that lie inside the window of a cursor, which has to be at one of
them. -/
def window (q : Query) (c : Collection) (cursor : Bound × DocumentRef)
    (entry : String × Members) : Bool :=
  (c.get? cursor.2.id).any fun data =>
    cursor.1.keeps (q.orderDocuments entry (cursor.2.id, data))

theorem window_iff {cursor : Bound × DocumentRef} :
    q.window c cursor entry = true ↔
      ∃ data, c.get? cursor.2.id = some data ∧ q.Inside (cursor.2.id, data) entry cursor.1 := by
  rw [window, Option.any_eq_true]
  exact exists_congr fun data => and_congr_right fun _ => inside_iff.symm

/-- Cursors at documents of the collection keep what lies inside all of their windows. -/
theorem cut_eq_ok_iff {cursors : List (Bound × DocumentRef)} :
    q.cut c cursors documents = .ok documents' ↔
      (∀ cursor ∈ cursors, c.get? cursor.2.id ≠ none) ∧
        documents' = documents.filter fun entry => cursors.all (q.window c · entry) := by
  induction cursors generalizing documents with
  | nil =>
    simp [cut, eq_comm]
  | cons cursor rest ih =>
    obtain ⟨bound, d⟩ := cursor
    rw [cut]
    cases hget : c.get? d.id with
    | none => simp [hget]
    | some data =>
      have hwindow : (fun entry => q.window c (bound, d) entry) =
          fun entry => bound.keeps (q.orderDocuments entry (d.id, data)) := by
        funext entry
        rw [window, hget, Option.any_some]
      simp only [hget, ih, List.filter_filter, List.forall_mem_cons, List.all_cons, hwindow]
      refine and_congr ⟨fun h => ⟨Option.some_ne_none _, h⟩, And.right⟩ ?_
      simp only [Bool.and_comm]

/-! ### Answers -/

/-- A document belongs to the answer to a query, as long as there is no limit: it is one of the
collection, has values at the paths of all filters that are related to their operands, has the field
that is sorted by, and lies inside the windows of all cursors. -/
structure Matches (q : Query) (c : Collection) (entry : String × Members) : Prop where
  stored : entry ∈ c.entries
  accepted : ∀ path op operand, .filter ⟨path, op, operand⟩ ∈ q.ops →
    ∃ value, Members.read path entry.2 = some value ∧ op.Relates value operand
  sortable : ∀ field direction, q.SortsBy field direction →
    ∃ value, Members.read field entry.2 = some value
  inside : ∀ bound d, .cursor bound d ∈ q.ops → ∃ data, c.get? d.id = some data ∧
    q.Inside (d.id, data) entry bound

/-- The answer to a query as long as there is no limit: the documents that belong to it, in strictly
ascending order. -/
structure Answers (q : Query) (c : Collection) (documents : List (String × Members)) : Prop where
  mem_iff : ∀ entry, entry ∈ documents ↔ q.Matches c entry
  ascending : documents.Pairwise q.Precedes

/-- What a query keeps of its answer. -/
inductive Keeps (q : Query) (documents : List (String × Members)) :
    List (String × Members) → Prop where
  /-- The last limit keeps so many documents from the front. -/
  | first {count : Nat} (hlimits : q.LimitsTo count) : Keeps q documents (documents.take count)
  /-- Without a limit, all are kept. -/
  | all (hunlimited : ∀ count, .limit count ∉ q.ops) : Keeps q documents documents

theorem Answers.nodup (h : q.Answers c documents) : documents.Nodup := by
  refine h.ascending.imp fun {a b} hab heq => ?_
  have hself : q.orderDocuments b b = .eq := Std.ReflCmp.compare_self
  rw [heq, precedes_iff, hself] at hab
  cases hab

/-- There is one answer. -/
theorem Answers.unique (h : q.Answers c documents) (h' : q.Answers c documents') :
    documents = documents' := by
  have hperm : documents.Perm documents' :=
    (List.perm_ext_iff_of_nodup h.nodup h'.nodup).2 fun entry =>
      (h.mem_iff entry).trans (h'.mem_iff entry).symm
  refine hperm.eq_of_pairwise (fun a b _ _ hab hba => ?_) h.ascending h'.ascending
  rw [precedes_iff] at hab hba
  cases (Std.OrientedCmp.gt_of_lt hab).symm.trans hba

/-- The documents that are selected pass the filters and have the field that is sorted by. -/
theorem mem_selected_iff : entry ∈ q.selected c ↔ entry ∈ c.entries ∧
    (∀ path op operand, .filter ⟨path, op, operand⟩ ∈ q.ops →
      ∃ value, Members.read path entry.2 = some value ∧ op.Relates value operand) ∧
    ∀ field direction, q.SortsBy field direction →
      ∃ value, Members.read field entry.2 = some value := by
  have hfilters : q.filters.all (·.accepts entry.2) = true ↔
      ∀ path op operand, .filter ⟨path, op, operand⟩ ∈ q.ops →
        ∃ value, Members.read path entry.2 = some value ∧ op.Relates value operand := by
    rw [List.all_eq_true]
    constructor
    · intro h path op operand hmem
      exact Filter.accepts_iff.1 (h _ (mem_filters_iff.2 hmem))
    · rintro h ⟨path, op, operand⟩ hmem
      exact Filter.accepts_iff.2 (h path op operand (mem_filters_iff.1 hmem))
  have hsortable : q.hasSortField entry.2 = true ↔ ∀ field direction, q.SortsBy field direction →
      ∃ value, Members.read field entry.2 = some value := by
    simp only [← sortOrder?_eq_some_iff, ← Option.isSome_iff_exists, hasSortField]
    cases q.sortOrder? with
    | none => simp
    | some order =>
      constructor
      · rintro h field direction ⟨rfl⟩
        exact h
      · exact fun h => h order.field order.direction rfl
  rw [selected, List.mem_filter, Bool.and_eq_true, hfilters, hsortable]

/-- The sorted documents that lie inside all windows are the answer. -/
theorem answers_filter_sorted (q : Query) (c : Collection) :
    q.Answers c ((q.sorted c).filter fun entry => q.cursors.all (q.window c · entry)) where
  mem_iff entry := by
    rw [List.mem_filter, (q.sorted_perm c).mem_iff, mem_selected_iff, List.all_eq_true]
    constructor
    · rintro ⟨⟨hstored, haccepted, hsortable⟩, hinside⟩
      exact ⟨hstored, haccepted, hsortable, fun bound d hcursor =>
        window_iff.1 (hinside (bound, d) (mem_cursors_iff.2 hcursor))⟩
    · rintro ⟨hstored, haccepted, hsortable, hinside⟩
      exact ⟨⟨hstored, haccepted, hsortable⟩, fun cursor hcursor =>
        window_iff.2 (hinside cursor.1 cursor.2 (mem_cursors_iff.1 hcursor))⟩
  ascending := ((q.sorted_ascending c).imp precedes_iff.2).filter _

/-- The documents that are selected are the answer to a query without cursors, in any arrangement
that ascends. -/
theorem answers_of_perm_selected (hcursors : q.cursors = []) (hperm : documents.Perm (q.selected c))
    (hascending : documents.Pairwise fun a b => q.orderDocuments a b = .lt) :
    q.Answers c documents := by
  have hanswers := q.answers_filter_sorted c
  rw [hcursors, ← q.eq_sorted_of_ascending hperm hascending] at hanswers
  simpa using hanswers

theorem keeps_iff : q.Keeps documents kept ↔ kept = q.limit?.elim documents documents.take := by
  cases hlimit : q.limit? with
  | none =>
    constructor
    · rintro (hlimits | -)
      · cases hlimit.symm.trans (limit?_eq_some_iff.2 hlimits)
      · rfl
    · rintro rfl
      exact .all (limit?_eq_none_iff.1 hlimit)
  | some count =>
    constructor
    · rintro (hlimits | hunlimited)
      · obtain rfl := Option.some.inj (hlimit.symm.trans (limit?_eq_some_iff.2 hlimits))
        rfl
      · cases hlimit.symm.trans (limit?_eq_none_iff.2 hunlimited)
    · rintro rfl
      exact .first (limit?_eq_some_iff.1 hlimit)

/-- A query whose cursors are at documents of the collection gives what it keeps of its answer. -/
theorem evaluate_eq_ok_iff :
    q.evaluate c = .ok kept ↔
      (∀ cursor ∈ q.cursors, c.get? cursor.2.id ≠ none) ∧
        ∃ answer, q.Answers c answer ∧ q.Keeps answer kept := by
  have hevaluate : q.evaluate c =
      (q.cut c q.cursors (q.sorted c)).map fun answer => q.limit?.elim answer answer.take := by
    rw [evaluate]
    cases q.cut c q.cursors (q.sorted c) <;> cases q.limit? <;> rfl
  rw [hevaluate]
  constructor
  · intro h
    cases hcut : q.cut c q.cursors (q.sorted c) with
    | error e =>
      rw [hcut] at h
      cases h
    | ok answer =>
      rw [hcut] at h
      obtain ⟨hcursors, rfl⟩ := cut_eq_ok_iff.1 hcut
      exact ⟨hcursors, _, q.answers_filter_sorted c, keeps_iff.2 (Except.ok.inj h).symm⟩
  · rintro ⟨hcursors, answer, hanswer, hkeeps⟩
    rw [cut_eq_ok_iff.2 ⟨hcursors, hanswer.unique (q.answers_filter_sorted c)⟩,
      keeps_iff.1 hkeeps]
    rfl

/-! ### Queries that are put together in another order -/

section Permuted

variable (hops : q'.ops.Perm q.ops)

include hops

theorem sortsBy_iff_of_perm (horders : q.ops.countP QueryOp.isOrderBy ≤ 1) :
    q'.SortsBy field direction ↔ q.SortsBy field direction :=
  QueryOp.isLast_iff_of_perm hops horders rfl

theorem precedes_of_perm (horders : q.ops.countP QueryOp.isOrderBy ≤ 1)
    (h : q.Precedes a b) : q'.Precedes a b := by
  cases h with
  | ascending hsorts hbefore =>
    exact .ascending ((sortsBy_iff_of_perm hops horders).2 hsorts) hbefore
  | descending hsorts hbefore =>
    exact .descending ((sortsBy_iff_of_perm hops horders).2 hsorts) hbefore
  | unsorted hunsorted hid =>
    refine .unsorted (fun field direction hmem => ?_) hid
    exact hunsorted field direction (hops.mem_iff.1 hmem)

theorem keeps_of_perm (hlimits : q.ops.countP QueryOp.isLimit ≤ 1) (h : q.Keeps documents kept) :
    q'.Keeps documents kept := by
  cases h with
  | first hlimit => exact .first ((QueryOp.isLast_iff_of_perm hops hlimits rfl).2 hlimit)
  | all hunlimited => exact .all fun count hmem => hunlimited count (hops.mem_iff.1 hmem)

end Permuted

/-- Which documents belong to the answer, and how they are ordered, does not depend on the order of
the operations. -/
theorem answers_of_perm (hops : q'.ops.Perm q.ops)
    (horders : q.ops.countP QueryOp.isOrderBy ≤ 1) (h : q.Answers c documents) :
    q'.Answers c documents := by
  have horders' : q'.ops.countP QueryOp.isOrderBy ≤ 1 := (hops.countP_eq _).le.trans horders
  have hprecedes : q'.Precedes = q.Precedes := by
    funext a b
    exact propext ⟨precedes_of_perm hops.symm horders', precedes_of_perm hops horders⟩
  have hinside : q'.Inside = q.Inside := by
    funext cursor entry bound
    cases bound <;> simp only [Inside, hprecedes]
  have hmatches : ∀ entry, q'.Matches c entry ↔ q.Matches c entry := by
    refine fun entry => ⟨fun ⟨hstored, haccepted, hsortable, hwindows⟩ => ?_,
      fun ⟨hstored, haccepted, hsortable, hwindows⟩ => ?_⟩
    · exact ⟨hstored, fun path op operand hmem => haccepted path op operand (hops.mem_iff.2 hmem),
        fun field direction hsorts => hsortable field direction
          ((sortsBy_iff_of_perm hops horders).2 hsorts),
        fun bound d hmem => hinside ▸ hwindows bound d (hops.mem_iff.2 hmem)⟩
    · exact ⟨hstored, fun path op operand hmem => haccepted path op operand (hops.mem_iff.1 hmem),
        fun field direction hsorts => hsortable field direction
          ((sortsBy_iff_of_perm hops horders).1 hsorts),
        fun bound d hmem => hinside ▸ hwindows bound d (hops.mem_iff.1 hmem)⟩
  exact ⟨fun entry => (h.mem_iff entry).trans (hmatches entry).symm, hprecedes ▸ h.ascending⟩

end Query

namespace Store

variable {s : Store} {q q' : Query} {source : Source} {shown : List Snapshot}

/-- A query on a store shows what it keeps of its answer, if its cursors are at documents of the
collection. -/
theorem run_getQuery_eq_ok_iff (hs : s.failures = []) :
    ((Request.getQuery q source).run s).1 = .ok shown ↔
      (∀ cursor ∈ q.cursors, (s.collection q.collection.path).get? cursor.2.id ≠ none) ∧
        ∃ answer kept, q.Answers (s.collection q.collection.path) answer ∧ q.Keeps answer kept ∧
          shown = s.snapshots q.collection source kept := by
  rw [Request.run_getQuery hs]
  constructor
  · intro h
    cases hevaluate : q.evaluate (s.collection q.collection.path) with
    | error e =>
      rw [hevaluate] at h
      cases h
    | ok kept =>
      rw [hevaluate] at h
      obtain ⟨hcursors, answer, hanswer, hkeeps⟩ := Query.evaluate_eq_ok_iff.1 hevaluate
      exact ⟨hcursors, answer, kept, hanswer, hkeeps, (Except.ok.inj h).symm⟩
  · rintro ⟨hcursors, answer, kept, hanswer, hkeeps, rfl⟩
    rw [Query.evaluate_eq_ok_iff.2 ⟨hcursors, answer, hanswer, hkeeps⟩]
    rfl

/-- A query whose cursors are at documents of the collection is answered. -/
theorem exists_run_getQuery (hs : s.failures = []) (source : Source)
    (hcursors : ∀ cursor ∈ q.cursors, (s.collection q.collection.path).get? cursor.2.id ≠ none) :
    ∃ answer kept, q.Answers (s.collection q.collection.path) answer ∧ q.Keeps answer kept ∧
      ((Request.getQuery q source).run s).1 = .ok (s.snapshots q.collection source kept) := by
  have hanswer := q.answers_filter_sorted (s.collection q.collection.path)
  exact ⟨_, _, hanswer, Query.keeps_iff.2 rfl,
    (run_getQuery_eq_ok_iff hs).2 ⟨hcursors, _, _, hanswer, Query.keeps_iff.2 rfl, rfl⟩⟩

theorem run_getQuery_of_perm (hs : s.failures = []) (hcollection : q'.collection = q.collection)
    (hops : q'.ops.Perm q.ops) (horders : q.ops.countP QueryOp.isOrderBy ≤ 1)
    (hlimits : q.ops.countP QueryOp.isLimit ≤ 1)
    (h : ((Request.getQuery q source).run s).1 = .ok shown) :
    ((Request.getQuery q' source).run s).1 = .ok shown := by
  obtain ⟨hcursors, answer, kept, hanswer, hkeeps, hshown⟩ := (run_getQuery_eq_ok_iff hs).1 h
  rw [run_getQuery_eq_ok_iff hs, hcollection]
  refine ⟨fun cursor hcursor => hcursors cursor ?_, answer, kept,
    Query.answers_of_perm hops horders hanswer, Query.keeps_of_perm hops hlimits hkeeps, hshown⟩
  exact Query.mem_cursors_iff.2 (hops.mem_iff.1 (Query.mem_cursors_iff.1 hcursor))

/-- A query on a store that was not told to fail is refused for an invalid argument only. -/
theorem code_of_run_getQuery (hs : s.failures = []) {e : StoreError}
    (h : ((Request.getQuery q source).run s).1 = .error e) : e.code = .invalidArgument := by
  rw [Request.run_getQuery hs] at h
  cases hevaluate : q.evaluate (s.collection q.collection.path) with
  | error cause =>
    rw [hevaluate] at h
    obtain rfl := Except.error.inj h
    exact Request.code_of_evaluate hevaluate
  | ok documents =>
    rw [hevaluate] at h
    cases h

/-- What a query on a store comes to, where the documents of its cursors are documents of the
collection. It is refused, for an invalid argument, exactly if one of these is not stored. Otherwise
it shows what the last limit keeps of its answer: of the documents that pass all filters, have the
field that the last sort order sorts by and lie inside all windows, in strictly ascending order of
the query. Nothing of this depends on the order of the operations, as long as there is one sort
order and one limit at most. -/
theorem answers_of_getQuery (hs : s.failures = [])
    (hcursors : ∀ bound d, .cursor bound d ∈ q.ops → d.parent = q.collection) (source : Source) :
    ((∃ e, ((Request.getQuery q source).run s).1 = .error e ∧ e.code = .invalidArgument) ↔
      ∃ bound d, .cursor bound d ∈ q.ops ∧ s.document? d = none) ∧
    ((∀ bound d, .cursor bound d ∈ q.ops → s.document? d ≠ none) →
      ∃ answer kept, q.Answers (s.collection q.collection.path) answer ∧ q.Keeps answer kept ∧
        ((Request.getQuery q source).run s).1 = .ok (s.snapshots q.collection source kept)) ∧
    ∀ q' : Query, q'.collection = q.collection → q'.ops.Perm q.ops →
      q.ops.countP QueryOp.isOrderBy ≤ 1 → q.ops.countP QueryOp.isLimit ≤ 1 →
      ∀ shown, ((Request.getQuery q' source).run s).1 = .ok shown ↔
        ((Request.getQuery q source).run s).1 = .ok shown := by
  have hstored : ∀ cursor ∈ q.cursors, (s.collection q.collection.path).get? cursor.2.id =
      s.document? cursor.2 := fun cursor hcursor => by
    rw [document?, hcursors cursor.1 cursor.2 (Query.mem_cursors_iff.1 hcursor)]
  have hshows : (∀ bound d, .cursor bound d ∈ q.ops → s.document? d ≠ none) →
      ∃ answer kept, q.Answers (s.collection q.collection.path) answer ∧ q.Keeps answer kept ∧
        ((Request.getQuery q source).run s).1 = .ok (s.snapshots q.collection source kept) := by
    refine fun hall => exists_run_getQuery hs source fun cursor hcursor => ?_
    rw [hstored cursor hcursor]
    exact hall cursor.1 cursor.2 (Query.mem_cursors_iff.1 hcursor)
  refine ⟨⟨?_, ?_⟩, hshows, fun q' hcollection hops horders hlimits shown => ⟨?_, ?_⟩⟩
  · rintro ⟨e, herror, -⟩
    by_contra hall
    push Not at hall
    obtain ⟨answer, kept, -, -, hok⟩ := hshows hall
    cases herror.symm.trans hok
  · rintro ⟨bound, d, hcursor, hmissing⟩
    have hmem : (bound, d) ∈ q.cursors := Query.mem_cursors_iff.2 hcursor
    cases hrun : ((Request.getQuery q source).run s).1 with
    | error e => exact ⟨e, rfl, code_of_run_getQuery hs hrun⟩
    | ok shown =>
      have hget := ((run_getQuery_eq_ok_iff hs).1 hrun).1 (bound, d) hmem
      exact absurd hmissing (hstored (bound, d) hmem ▸ hget)
  · exact run_getQuery_of_perm hs hcollection.symm hops.symm
      ((hops.countP_eq _).le.trans horders) ((hops.countP_eq _).le.trans hlimits)
  · exact run_getQuery_of_perm hs hcollection hops horders hlimits

/-- Users of whom the first two have equivalent ages. -/
def rankedUsers : Collection :=
  ⟨[agedUser "u1" (.int 30), agedUser "u2" (.double (.ofInt 30)), agedUser "u3" (.int 25),
    agedUser "u4" (.int 20)], by decide⟩

/-- A store that holds them. -/
def rankedStore : Store := empty.put (.parse "users") rankedUsers

/-- The oldest of the users older than 22 that come after one of two users of equivalent ages and
before a user who is too young to be shown. -/
def behindTie : Query :=
  ⟨.ofText "users", [.limit 1, .cursor .endBefore (.ofText "users/u4"),
    .orderBy "age" .descending, .cursor .startAfter (.ofText "users/u2"),
    .filter ⟨"age", .greater, .int 22⟩]⟩

/-- The same query with a limit and a sort order in front, which do not count. -/
def behindTieRevised : Query :=
  ⟨behindTie.collection, .limit 3 :: .orderBy "name" .ascending :: behindTie.ops⟩

theorem sorted_rankedUsers
    (hselected : rankedUsers.entries.map (fun entry =>
      q.filters.all (·.accepts entry.2) && q.hasSortField entry.2) = [true, true, true, false])
    (hascending : [agedUser "u2" (.double (.ofInt 30)), agedUser "u1" (.int 30),
      agedUser "u3" (.int 25)].Pairwise fun a b => q.orderDocuments a b = .lt) :
    q.sorted rankedUsers = [agedUser "u2" (.double (.ofInt 30)), agedUser "u1" (.int 30),
      agedUser "u3" (.int 25)] := by
  obtain ⟨h₁, h₂, h₃, h₄, -⟩ : _ ∧ _ ∧ _ ∧ _ ∧ True := by
    simpa only [rankedUsers, List.map_cons, List.map_nil, List.cons.injEq] using hselected
  refine (q.eq_sorted_of_ascending ?_ hascending).symm
  simp only [Query.selected, rankedUsers, List.filter_cons, List.filter_nil, h₁, h₂, h₃, h₄,
    if_true, Bool.false_eq_true, if_false]
  exact .swap _ _ _

/-- The windows are in the order of the query, whatever the filters say of the documents of their
cursors, and the last limit cuts the answer off. -/
theorem answers_of_getQuery_behindTie :
    rankedStore.failures = [] ∧
      (∀ bound d, .cursor bound d ∈ behindTie.ops → d.parent = behindTie.collection) ∧
      (∃ answer kept, behindTieRevised.Answers rankedUsers answer ∧
        behindTieRevised.Keeps answer kept ∧
        ((Request.getQuery behindTieRevised .default).run rankedStore).1 =
          .ok (rankedStore.snapshots behindTie.collection .default kept) ∧
        answer.map Prod.fst = ["u1", "u3"] ∧ kept.map Prod.fst = ["u1"]) ∧
      ∃ shown, ((Request.getQuery behindTie .default).run rankedStore).1 = .ok shown ∧
        ((Request.getQuery ⟨behindTie.collection, behindTie.ops.reverse⟩ .default).run
          rankedStore).1 = .ok shown ∧
        shown.map Snapshot.id = ["u1"] := by
  have hcollection : rankedStore.collection behindTie.collection.path = rankedUsers :=
    collection_put_self empty (.parse "users") rankedUsers
  have hcursors : ∀ {q : Query}, (∀ cursor ∈ q.cursors,
      cursor.2.parent = behindTie.collection ∧ rankedStore.document? cursor.2 ≠ none) →
      ∀ bound d, .cursor bound d ∈ q.ops →
        d.parent = behindTie.collection ∧ rankedStore.document? d ≠ none :=
    fun h bound d hmem => h (bound, d) (Query.mem_cursors_iff.2 hmem)
  have hplain := @hcursors behindTie (by decide +kernel)
  have hrevised := @hcursors behindTieRevised (by decide +kernel)
  refine ⟨rfl, fun bound d hmem => (hplain bound d hmem).1, ?_, ?_⟩
  · obtain ⟨-, hshows, -⟩ := answers_of_getQuery (s := rankedStore) rfl
      (fun bound d hmem => (hrevised bound d hmem).1) .default
    obtain ⟨answer, kept, hanswer, hkeeps, hok⟩ := hshows fun bound d hmem =>
      (hrevised bound d hmem).2
    rw [show behindTieRevised.collection = behindTie.collection from rfl, hcollection] at hanswer
    refine ⟨answer, kept, hanswer, hkeeps, hok, ?_⟩
    rw [Query.keeps_iff.1 hkeeps,
      hanswer.unique (behindTieRevised.answers_filter_sorted rankedUsers),
      sorted_rankedUsers (by decide +kernel) (by decide +kernel)]
    decide +kernel
  · obtain ⟨-, hshows, hpermuted⟩ := answers_of_getQuery (s := rankedStore) rfl
      (fun bound d hmem => (hplain bound d hmem).1) .default
    obtain ⟨answer, kept, hanswer, hkeeps, hok⟩ := hshows fun bound d hmem =>
      (hplain bound d hmem).2
    have hreversed := (hpermuted ⟨behindTie.collection, behindTie.ops.reverse⟩ rfl
      (List.reverse_perm _) (by decide) (by decide) _).2 hok
    refine ⟨_, hok, hreversed, ?_⟩
    rw [hcollection] at hanswer
    rw [Query.keeps_iff.1 hkeeps, hanswer.unique (behindTie.answers_filter_sorted rankedUsers),
      sorted_rankedUsers (by decide +kernel) (by decide +kernel)]
    decide +kernel

end Store

end LiveDocs
