import LiveDocs.Proofs.Query.Order
import LiveDocs.Proofs.Store.Map

/-!
# Paging through a query

A client that wants the documents of a query a few at a time asks for a page, and then for the page
after the last document it has, until a page is short. The cursor finds its place by the order of
the query, and that order is strict on the documents of a collection, so that the next page begins
where the last one ended. Main statements: `evaluate_page`, a page is what comes next, up to the
size of a page; `pages_exact`, there is one way to page through a query, it ends, and its pages
together are the answer to the query.
-/

namespace LiveDocs

namespace Query

/-- The query for a page: `size` documents, those that come after a document if one is given. -/
def page (q : Query) (size : Nat) (after : Option DocumentRef) : Query :=
  ⟨q.collection, after.toList.map (.cursor .startAfter) ++ q.ops ++ [.limit size]⟩

variable {q : Query} {size : Nat} {after : Option DocumentRef}

theorem filters_page : (q.page size after).filters = q.filters := by
  cases after <;> simp [filters, page]

theorem sortOrder?_page : (q.page size after).sortOrder? = q.sortOrder? := by
  cases after <;> simp [sortOrder?, sortOrders, page]

theorem limit?_page : (q.page size after).limit? = some size := by
  cases after <;> simp [limit?, page]

theorem cursors_page (h : q.cursors = []) :
    (q.page size after).cursors = after.toList.map (Bound.startAfter, ·) := by
  rw [cursors] at h
  cases after <;> simp [cursors, page, h]

/-- A page sorts documents as the query does. -/
theorem orderDocuments_page : (q.page size after).orderDocuments = q.orderDocuments := by
  funext a b
  simp only [orderDocuments, sortKey, sortOrder?_page]

theorem sorted_page (c : Collection) : (q.page size after).sorted c = q.sorted c := by
  simp only [sorted, selected, hasSortField, filters_page, sortOrder?_page, orderDocuments_page]

/-! ### What a page shows -/

/-- A query without cursors and without a limit gives all that it selects. -/
theorem evaluate_of_unlimited (hcursors : q.cursors = []) (hlimit : q.limit? = none)
    (c : Collection) : q.evaluate c = .ok (q.sorted c) := by
  rw [evaluate, hcursors, hlimit]
  rfl

/-- In a list that ascends strictly, the elements greater than one of them are those behind it. -/
theorem filter_startAfter {cmp : String × Members → String × Members → Ordering}
    [Std.TransCmp cmp] {front rest : List (String × Members)} {entry : String × Members}
    (h : (front ++ entry :: rest).Pairwise fun a b => cmp a b = .lt) :
    (front ++ entry :: rest).filter (fun other => Bound.startAfter.keeps (cmp other entry)) =
      rest := by
  obtain ⟨-, hbehind, hfront⟩ := List.pairwise_append.1 h
  have hnone : front.filter (fun other => Bound.startAfter.keeps (cmp other entry)) = [] := by
    refine List.filter_eq_nil_iff.2 fun other hother => ?_
    rw [hfront other hother entry List.mem_cons_self]
    decide
  have hself : cmp entry entry = .eq := Std.ReflCmp.compare_self
  have hall : rest.filter (fun other => Bound.startAfter.keeps (cmp other entry)) = rest := by
    refine List.filter_eq_self.2 fun other hother => ?_
    rw [Std.OrientedCmp.gt_of_lt ((List.pairwise_cons.1 hbehind).1 other hother)]
    rfl
  rw [List.filter_append, hnone, List.nil_append, List.filter_cons_of_neg, hall]
  rw [hself]
  decide

/-- A page after the last of some documents, or the first page, shows what comes next. -/
theorem evaluate_page {c : Collection} {shown rest : List (String × Members)}
    (hcursors : q.cursors = []) (hsorted : q.sorted c = shown ++ rest)
    (hafter : after.map DocumentRef.id = shown.getLast?.map Prod.fst) :
    (q.page size after).evaluate c = .ok (rest.take size) := by
  rw [evaluate, limit?_page, cursors_page hcursors, sorted_page, hsorted]
  cases after with
  | none =>
    have hshown : shown = [] := by
      rw [← List.getLast?_eq_none_iff]
      simpa using hafter.symm
    subst hshown
    rfl
  | some d =>
    obtain ⟨entry, hlast, hid⟩ := Option.map_eq_some_iff.1 hafter.symm
    obtain ⟨front, rfl⟩ := List.getLast?_eq_some_iff.1 hlast
    -- the cursor's document is one of the collection, since it was shown
    have hmem : entry ∈ c.entries := by
      have hshown : entry ∈ q.sorted c := by
        rw [hsorted]
        simp
      exact (List.mem_filter.1 ((q.sorted_perm c).mem_iff.1 hshown)).1
    have hget : c.get? d.id = some entry.2 := by
      rw [← hid]
      exact Collection.get?_eq_some_iff.2 hmem
    have hascending := q.sorted_ascending c
    rw [hsorted, List.append_assoc, List.singleton_append] at hascending
    have hentry : (d.id, entry.2) = entry := Prod.ext hid.symm rfl
    simp only [Option.toList_some, List.map_cons, List.map_nil, cut, hget, hentry,
      orderDocuments_page, List.append_assoc, List.singleton_append,
      filter_startAfter hascending]
    rfl

end Query

namespace Store

/-- Paging through a query on a store that stays as it is: the pages that a client is shown, the
first of them after the given document. A page that is not full is the last one. -/
inductive Pages (s : Store) (q : Query) (source : Source) (size : Nat) :
    Option DocumentRef → List (List Snapshot) → Prop where
  | last {after : Option DocumentRef} {page : List Snapshot}
      (hpage : (Request.getQuery (q.page size after) source).run s = (.ok page, s))
      (hshort : page.length < size) : Pages s q source size after [page]
  | more {after : Option DocumentRef} {page : List Snapshot} {snapshot : Snapshot}
      {pages : List (List Snapshot)}
      (hpage : (Request.getQuery (q.page size after) source).run s = (.ok page, s))
      (hfull : size ≤ page.length) (hlast : page.getLast? = some snapshot)
      (hpages : Pages s q source size (some snapshot.reference) pages) :
      Pages s q source size after (page :: pages)

variable {s : Store} {q : Query} {source : Source} {size : Nat} {after : Option DocumentRef}

/-- There is at most one way to page. -/
theorem Pages.unique {pages pages' : List (List Snapshot)} (h : s.Pages q source size after pages)
    (h' : s.Pages q source size after pages') : pages = pages' := by
  induction h generalizing pages' with
  | last hpage hshort =>
    cases h' with
    | last hpage' =>
      cases hpage.symm.trans hpage'
      rfl
    | more hpage' hfull =>
      cases hpage.symm.trans hpage'
      omega
  | more hpage hfull hlast _ ih =>
    cases h' with
    | last hpage' hshort =>
      cases hpage.symm.trans hpage'
      omega
    | more hpage' _ hlast' hpages' =>
      cases hpage.symm.trans hpage'
      cases hlast.symm.trans hlast'
      rw [ih hpages']

/-- The snapshots of documents that a query on a collection shows. -/
def snapshots (s : Store) (c : CollectionRef) (source : Source)
    (documents : List (String × Members)) : List Snapshot :=
  documents.map fun (id, data) => s.snapshot (c.doc id) (some data) source

/-- From any document on, paging shows all that comes behind it and ends. -/
theorem exists_pages {shown rest : List (String × Members)} (hs : s.failures = [])
    (hsize : 0 < size) (hcursors : q.cursors = [])
    (hids : ∀ entry ∈ (s.collection q.collection.path).entries, IsSegment entry.1)
    (hsorted : q.sorted (s.collection q.collection.path) = shown ++ rest)
    (hafter : after.map DocumentRef.id = shown.getLast?.map Prod.fst) :
    ∃ pages, s.Pages q source size after pages ∧
      pages.flatten = s.snapshots q.collection source rest := by
  induction hlength : rest.length using Nat.strongRecOn generalizing shown rest after with
  | ind length ih =>
  have hpage : (Request.getQuery (q.page size after) source).run s =
      (.ok (s.snapshots q.collection source (rest.take size)), s) := by
    have hevaluate : (q.page size after).evaluate (s.collection q.collection.path) =
        .ok (rest.take size) := Query.evaluate_page hcursors hsorted hafter
    have hcollection : (q.page size after).collection = q.collection := rfl
    rw [Request.run_getQuery hs, hcollection, hevaluate]
    rfl
  have hpageLength : (s.snapshots q.collection source (rest.take size)).length =
      min size rest.length := by
    rw [snapshots, List.length_map, List.length_take]
  by_cases hshort : rest.length < size
  · refine ⟨_, .last hpage (by omega), ?_⟩
    rw [List.take_of_length_le (by omega), List.flatten_singleton]
  · -- the last document of the page becomes the next cursor
    obtain ⟨entry, hentry⟩ : ∃ entry, (rest.take size).getLast? = some entry := by
      rw [← Option.ne_none_iff_exists', ne_eq, List.getLast?_eq_none_iff, ← List.length_eq_zero_iff,
        List.length_take]
      omega
    have hid : IsSegment entry.1 := by
      have hmem : entry ∈ q.sorted (s.collection q.collection.path) := by
        rw [hsorted]
        exact List.mem_append_right _ (List.mem_of_mem_take (List.mem_of_getLast? hentry))
      exact hids entry (List.mem_filter.1 ((q.sorted_perm _).mem_iff.1 hmem)).1
    have hlast : (s.snapshots q.collection source (rest.take size)).getLast? =
        some (s.snapshot (q.collection.doc entry.1) (some entry.2) source) := by
      rw [snapshots, List.getLast?_map, hentry]
      rfl
    have hdrop : (rest.drop size).length < length := by
      rw [List.length_drop]
      omega
    have hnext : q.sorted (s.collection q.collection.path) =
        (shown ++ rest.take size) ++ rest.drop size := by
      rw [List.append_assoc, List.take_append_drop, hsorted]
    have hcursor : (some (q.collection.doc entry.1)).map DocumentRef.id =
        (shown ++ rest.take size).getLast?.map Prod.fst := by
      rw [List.getLast?_append, hentry, Option.map_some, q.collection.id_doc hid]
      rfl
    obtain ⟨pages, hpages, hflatten⟩ := ih _ hdrop hnext hcursor rfl
    refine ⟨_, .more hpage (by omega) hlast hpages, ?_⟩
    rw [List.flatten_cons, hflatten, snapshots, snapshots, ← List.map_append,
      List.take_append_drop]
    rfl

/-- Paging is exact. Let the ids of a collection be single segments, and let a query have any
filters and sort orders, but no cursor and no limit. Then there is exactly one way to page through
it; it ends, and its pages together are the answer to the query itself: the documents that the query
selects, each of them once, in strictly ascending order. -/
theorem pages_exact (hs : s.failures = []) (hsize : 0 < size) (hcursors : q.cursors = [])
    (hlimit : q.limit? = none)
    (hids : ∀ entry ∈ (s.collection q.collection.path).entries, IsSegment entry.1) :
    ∃ pages, (∀ pages', s.Pages q source size none pages' ↔ pages' = pages) ∧
      (Request.getQuery q source).run s = (.ok pages.flatten, s) ∧
      ∃ documents, pages.flatten = s.snapshots q.collection source documents ∧
        documents.Perm (q.selected (s.collection q.collection.path)) ∧
        documents.Pairwise fun a b => q.orderDocuments a b = .lt := by
  obtain ⟨pages, hpages, hflatten⟩ : ∃ pages, s.Pages q source size none pages ∧
      pages.flatten =
        s.snapshots q.collection source (q.sorted (s.collection q.collection.path)) :=
    exists_pages hs hsize hcursors hids (List.nil_append _).symm rfl
  refine ⟨pages, fun pages' => ⟨fun hpages' => hpages'.unique hpages, ?_⟩, ?_, _, hflatten,
    q.sorted_perm _, q.sorted_ascending _⟩
  · rintro rfl
    exact hpages
  · rw [Request.run_getQuery hs, Query.evaluate_of_unlimited hcursors hlimit, hflatten]
    rfl

/-- A user with an age. -/
def agedUser (id : String) (age : JsonNumber) : String × Members := (id, [("age", .number age)])

/-- Three users; the ages of the first two are equivalent, but not the same. -/
def agedUsers : Collection :=
  ⟨[agedUser "u1" (.int 30), agedUser "u2" (.double (.ofInt 30)), agedUser "u3" (.int 25)],
    by decide⟩

/-- A store that holds them. -/
def agedStore : Store := empty.put (.parse "users") agedUsers

/-- The users of age, the oldest first. -/
def oldestFirst : Query :=
  ⟨.ofText "users", [.filter ⟨"age", .greaterOrEqual, .int 18⟩, .orderBy "age" .descending]⟩

/-- Users of equivalent ages are told apart by id, which descends too. -/
theorem pages_exact_oldestFirst :
    agedStore.failures = [] ∧ oldestFirst.cursors = [] ∧ oldestFirst.limit? = none ∧
      ∃ pages, (∀ pages', agedStore.Pages oldestFirst .default 1 none pages' ↔ pages' = pages) ∧
        (Request.getQuery oldestFirst .default).run agedStore = (.ok pages.flatten, agedStore) ∧
        pages.flatten.map Snapshot.id = ["u2", "u1", "u3"] := by
  have hcollection : agedStore.collection oldestFirst.collection.path = agedUsers :=
    collection_put_self empty (.parse "users") agedUsers
  have hids : ∀ entry ∈ (agedStore.collection oldestFirst.collection.path).entries,
      IsSegment entry.1 := by
    rw [hcollection]
    intro entry hentry
    have hid : entry.1 ∈ ["u1", "u2", "u3"] := List.mem_map_of_mem hentry
    simp only [List.mem_cons, List.not_mem_nil, or_false] at hid
    rcases hid with h | h | h <;> rw [h] <;> exact ⟨by decide, by decide⟩
  obtain ⟨pages, hpages, hanswer, documents, hflatten, hperm, hascending⟩ :=
    pages_exact rfl Nat.one_pos rfl rfl hids
  refine ⟨rfl, rfl, rfl, pages, hpages, hanswer, ?_⟩
  have hselected : oldestFirst.selected agedUsers = agedUsers.entries :=
    List.filter_eq_self.2 (by decide +kernel)
  have hsorted : [agedUser "u2" (.double (.ofInt 30)), agedUser "u1" (.int 30),
      agedUser "u3" (.int 25)] = oldestFirst.sorted agedUsers := by
    refine oldestFirst.eq_sorted_of_ascending ?_ (by decide +kernel)
    rw [hselected]
    exact .swap _ _ _
  rw [hcollection] at hperm
  rw [hflatten, oldestFirst.eq_sorted_of_ascending hperm hascending, ← hsorted]
  decide +kernel

end Store

end LiveDocs
