import LiveDocs.Proofs.Json.Order
import LiveDocs.Query.Evaluate
import Mathlib.Data.List.Basic
import Mathlib.Data.List.Nodup
import Mathlib.Data.Set.Function

/-!
# The order of documents in a query

A query sorts documents by the value of a field and then by id. Values may be equivalent, but ids
within a collection differ, so that the order is total and strict on the documents of a collection,
in either direction. Main statements: `sorted_ascending`, each document of a sorted collection comes
strictly before those behind it; `eq_sorted_of_ascending`, no other arrangement has this property;
`strictTotalOrder_of_distinct_ids`, the laws behind both.
-/

namespace LiveDocs

/-- A transitive comparison of keys is a transitive comparison of what has the keys. -/
theorem transCmp_of_key {α β : Type} (cmp : β → β → Ordering) [Std.TransCmp cmp] (key : α → β) :
    Std.TransCmp fun a b => cmp (key a) (key b) where
  eq_swap := Std.OrientedCmp.eq_swap
  isLE_trans hab hbc := Std.TransCmp.isLE_trans hab hbc

namespace Query

variable (q : Query)

/-- The order of documents by sort key and id, both ascending. -/
def orderAscending : String × Members → String × Members → Ordering :=
  compareLex (fun a b => (q.sortKey a.2).order (q.sortKey b.2)) (fun a b => compare a.1 b.1)

instance : Std.TransCmp q.orderAscending := by
  have hkeys := transCmp_of_key Json.order fun entry : String × Members => q.sortKey entry.2
  have hids := transCmp_of_key compare (Prod.fst : String × Members → String)
  exact inferInstanceAs (Std.TransCmp (compareLex _ _))

/-- A descending order is the ascending one the other way round. -/
theorem orderDocuments_eq :
    q.orderDocuments = q.orderAscending ∨ q.orderDocuments = fun a b => q.orderAscending b a := by
  have hswap : ∀ a b, (q.orderAscending a b).swap = q.orderAscending b a := fun a b =>
    Std.OrientedCmp.eq_swap.symm
  rcases horder : q.sortOrder? with _ | ⟨field, ascending | descending⟩
  · left
    funext a b
    simp only [orderDocuments, horder, orderAscending, compareLex]
  · left
    funext a b
    simp only [orderDocuments, horder, orderAscending, compareLex]
  · right
    funext a b
    rw [← hswap]
    simp only [orderDocuments, horder, orderAscending, compareLex]

instance : Std.TransCmp q.orderDocuments := by
  rcases q.orderDocuments_eq with h | h
  · rw [h]
    infer_instance
  · rw [h]
    exact Std.TransCmp.opposite

variable {q}

/-- Documents that the order does not tell apart have the same id. -/
theorem fst_eq_of_orderDocuments {a b : String × Members} (h : q.orderDocuments a b = .eq) :
    a.1 = b.1 := by
  have hids : ∀ a b, q.orderAscending a b = .eq → a.1 = b.1 := by
    intro a b hab
    rw [orderAscending, compareLex_eq_eq] at hab
    exact Std.LawfulEqCmp.eq_of_compare hab.2
  rcases q.orderDocuments_eq with horder | horder
  · rw [horder] at h
    exact hids a b h
  · rw [horder] at h
    exact (hids b a h).symm

variable (q)

theorem sorted_perm (c : Collection) : (q.sorted c).Perm (q.selected c) :=
  List.mergeSort_perm _ _

/-- No id occurs twice among the sorted documents. -/
theorem sorted_pairwise_ne (c : Collection) : (q.sorted c).Pairwise fun a b => a.1 ≠ b.1 := by
  have hentries : c.entries.Pairwise fun a b => a.1 ≠ b.1 := List.pairwise_map.1 c.distinct_entries
  have hselected : (q.selected c).Pairwise fun a b => a.1 ≠ b.1 := hentries.filter _
  exact ((q.sorted_perm c).pairwise_iff fun hne => hne.symm).2 hselected

/-- Each of the sorted documents comes strictly before those behind it. -/
theorem sorted_ascending (c : Collection) :
    (q.sorted c).Pairwise fun a b => q.orderDocuments a b = .lt := by
  have hle : (q.sorted c).Pairwise fun a b => (q.orderDocuments a b != .gt) = true := by
    refine List.pairwise_mergeSort ?_ ?_ _
    · intro a b d hab hbd
      have hab' : (q.orderDocuments a b).isLE := Ordering.isLE_iff_ne_gt.2 (bne_iff_ne.1 hab)
      have hbd' : (q.orderDocuments b d).isLE := Ordering.isLE_iff_ne_gt.2 (bne_iff_ne.1 hbd)
      exact bne_iff_ne.2 (Ordering.isLE_iff_ne_gt.1 (Std.TransCmp.isLE_trans hab' hbd'))
    · intro a b
      have hswap : q.orderDocuments b a = (q.orderDocuments a b).swap := Std.OrientedCmp.eq_swap
      rw [hswap]
      cases q.orderDocuments a b <;> rfl
  refine hle.imp₂ ?_ (q.sorted_pairwise_ne c)
  intro a b hab hne
  cases h : q.orderDocuments a b with
  | lt => rfl
  | eq => exact absurd (fst_eq_of_orderDocuments h) hne
  | gt => simp [h] at hab

/-- There is one way to arrange the selected documents in strictly ascending order. -/
theorem eq_sorted_of_ascending {c : Collection} {documents : List (String × Members)}
    (hperm : documents.Perm (q.selected c))
    (hascending : documents.Pairwise fun a b => q.orderDocuments a b = .lt) :
    documents = q.sorted c := by
  refine (hperm.trans (q.sorted_perm c).symm).eq_of_pairwise ?_ hascending (q.sorted_ascending c)
  intro a b _ _ hab hba
  rw [Std.OrientedCmp.gt_of_lt hab] at hba
  cases hba

theorem isStrictTotalOrder_of_injOn {documents : Set (String × Members)}
    (hids : documents.InjOn Prod.fst) :
    IsStrictTotalOrder documents fun a b => q.orderDocuments a b = .lt where
  irrefl a h := by
    have hself : q.orderDocuments a a = .eq := Std.ReflCmp.compare_self
    rw [hself] at h
    cases h
  trans _ _ _ hab hbc := Std.TransCmp.lt_trans hab hbc
  trichotomous a b hab hba := by
    cases h : q.orderDocuments a b with
    | lt => exact absurd h hab
    | eq => exact Subtype.ext (hids a.2 b.2 (fst_eq_of_orderDocuments h))
    | gt => exact absurd (Std.OrientedCmp.lt_of_gt h) hba

/-- Values are compared by a total preorder. So on documents of which no two share an id, the order
of a query, by sort key and id and either way round, is a strict total order, and the documents that
a query selects from a collection can be arranged by it in one way. -/
theorem strictTotalOrder_of_distinct_ids {documents : Set (String × Members)}
    (hids : documents.InjOn Prod.fst) :
    Json.OrdersValues Json.order ∧
      (IsStrictTotalOrder documents fun a b => q.orderDocuments a b = .lt) ∧
      ∀ (c : Collection) (arranged : List (String × Members)),
        arranged = q.sorted c ↔ arranged.Perm (q.selected c) ∧
          arranged.Pairwise fun a b => q.orderDocuments a b = .lt := by
  refine ⟨Json.ordersValues_order, q.isStrictTotalOrder_of_injOn hids, fun c arranged => ?_⟩
  constructor
  · rintro rfl
    exact ⟨q.sorted_perm c, q.sorted_ascending c⟩
  · rintro ⟨hperm, hascending⟩
    exact q.eq_sorted_of_ascending hperm hascending

/-- Documents with ages of several types, two of them the same as doubles. -/
def mixedAges : List (String × Members) :=
  [("u1", [("age", .int 30)]), ("u2", [("age", .number (.double (.ofInt 30)))]),
    ("u3", [("age", .string "30")]), ("u4", [("age", .array [.int 30, .null])])]

/-- A query by age in descending order. -/
def byAgeDescending : Query := ⟨.ofText "users", [.orderBy "age" .descending]⟩

theorem strictTotalOrder_of_distinct_ids_mixedAges :
    Set.InjOn Prod.fst {entry | entry ∈ mixedAges} ∧
      Json.OrdersValues Json.order ∧
      (IsStrictTotalOrder {entry | entry ∈ mixedAges} fun a b =>
        byAgeDescending.orderDocuments a b = .lt) ∧
      ∀ (c : Collection) (arranged : List (String × Members)),
        arranged = byAgeDescending.sorted c ↔ arranged.Perm (byAgeDescending.selected c) ∧
          arranged.Pairwise fun a b => byAgeDescending.orderDocuments a b = .lt := by
  have hids : Set.InjOn Prod.fst {entry | entry ∈ mixedAges} := fun _ ha _ hb hab =>
    List.inj_on_of_nodup_map (by decide) ha hb hab
  exact ⟨hids, byAgeDescending.strictTotalOrder_of_distinct_ids hids⟩

end Query

end LiveDocs
