import LiveDocs.Proofs.Query.Building
import LiveDocs.Proofs.Query.Evaluation

/-!
# Cursors

The document of a cursor is looked up in the collection of the query by its id alone. A cursor at a
document of the collection is refused exactly if the document is not stored. A cursor at a document
that lies elsewhere should be refused too, but it is not if a document of the collection has the
same id: then it works as a cursor at that one. The cursors of a query that is built from arguments
lie in its collection if their ids are single segments; an id with a slash leads elsewhere. Main
statement: `refused_iff_of_cursors`.
-/

namespace LiveDocs

namespace Query

/-! ### Cursors that are built from arguments -/

/-- The cursors among some operations are at documents that a collection makes of ids. -/
def CursorsOf (c : CollectionRef) (ops : List QueryOp) : Prop :=
  ∀ bound d, .cursor bound d ∈ ops → ∃ id, d = c.doc id

theorem cursorsOf_of_describes {c : CollectionRef} {p : QueryParameter} {v : Json}
    {ops : List QueryOp} (h : QueryParameter.Describes c p v ops) : CursorsOf c ops := by
  intro bound d hmem
  cases h with
  | id | number =>
    obtain ⟨-, rfl⟩ := QueryOp.cursor.inj (List.mem_singleton.1 hmem)
    exact ⟨_, rfl⟩
  | filters =>
    obtain ⟨condition, -, hcondition⟩ := List.mem_map.1 hmem
    cases hcondition
  | orderBy | limit => cases List.mem_singleton.1 hmem

/-- The cursors of a query that is built from arguments are at documents that its collection makes of
ids. -/
theorem cursorsOf_build {scope : Scope} {args : QueryArguments} {q : Query}
    (h : build scope args = .ok q) :
    q.collection = scope.collection ∧ CursorsOf q.collection q.ops := by
  obtain ⟨hcollection, parts, hparts, hops⟩ := build_eq_ok_iff.1 h
  refine ⟨hcollection, fun bound d hmem => ?_⟩
  rw [hops] at hmem
  obtain ⟨part, hpart, hmem⟩ := List.mem_flatten.1 hmem
  obtain ⟨p, -, habsent | ⟨hv, hdescribes⟩⟩ := exists_of_forall₂ hparts.flip hpart
  · cases hmem
  · rw [hcollection]
    exact cursorsOf_of_describes hdescribes bound d hmem

end Query

namespace Store

variable {s : Store} {c : CollectionRef} {d : DocumentRef}

/-! ### Documents that work as cursors -/

/-- The document is one that is stored in the collection. -/
def Stores (s : Store) (c : CollectionRef) (d : DocumentRef) : Prop :=
  d.parent = c ∧ s.document? d ≠ none

/-- The document lies elsewhere, but one that is stored in the collection has its id. -/
def HasNamesake (s : Store) (c : CollectionRef) (d : DocumentRef) : Prop :=
  d.parent ≠ c ∧ (s.collection c.path).get? d.id ≠ none

theorem get?_ne_none_iff :
    (s.collection c.path).get? d.id ≠ none ↔ s.Stores c d ∨ s.HasNamesake c d := by
  by_cases hparent : d.parent = c
  · subst hparent
    simp [Stores, HasNamesake, document?]
  · simp [Stores, HasNamesake, hparent]

/-- A query is refused, for an invalid argument, exactly if the document of a cursor is not stored in
the collection and no document that is has its id. Otherwise the windows are those of the documents
with the ids of the cursors. If the query was built from arguments, its cursors are at documents that
its collection makes of ids; where such an id is a single segment, no namesake stands in for a
document that is not stored. -/
theorem refused_iff_of_cursors (hs : s.failures = []) (q : Query) (source : Source) :
    ((∃ e, ((Request.getQuery q source).run s).1 = .error e ∧ e.code = .invalidArgument) ↔
      ∃ cursor ∈ q.cursors, ¬ s.Stores q.collection cursor.2 ∧
        ¬ s.HasNamesake q.collection cursor.2) ∧
    ((∀ cursor ∈ q.cursors, s.Stores q.collection cursor.2 ∨ s.HasNamesake q.collection cursor.2) →
      ∃ answer kept, q.Answers (s.collection q.collection.path) answer ∧ q.Keeps answer kept ∧
        ((Request.getQuery q source).run s).1 = .ok (s.snapshots q.collection source kept)) ∧
    ∀ scope args, Query.build scope args = .ok q → ∀ cursor ∈ q.cursors,
      ∃ id, cursor.2 = q.collection.doc id ∧
        (IsSegment id → ¬ s.HasNamesake q.collection cursor.2) := by
  have hshows : (∀ cursor ∈ q.cursors, s.Stores q.collection cursor.2 ∨
      s.HasNamesake q.collection cursor.2) →
      ∃ answer kept, q.Answers (s.collection q.collection.path) answer ∧ q.Keeps answer kept ∧
        ((Request.getQuery q source).run s).1 = .ok (s.snapshots q.collection source kept) :=
    fun hall => exists_run_getQuery hs source fun cursor hcursor =>
      get?_ne_none_iff.2 (hall cursor hcursor)
  refine ⟨⟨?_, ?_⟩, hshows, ?_⟩
  · rintro ⟨e, herror, -⟩
    by_contra hall
    push Not at hall
    obtain ⟨answer, kept, -, -, hok⟩ := hshows fun cursor hcursor =>
      or_iff_not_imp_left.2 (hall cursor hcursor)
    cases herror.symm.trans hok
  · rintro ⟨cursor, hcursor, hstored, hnamesake⟩
    cases hrun : ((Request.getQuery q source).run s).1 with
    | error e => exact ⟨e, rfl, code_of_run_getQuery hs hrun⟩
    | ok shown =>
      have hget := ((run_getQuery_eq_ok_iff hs).1 hrun).1 cursor hcursor
      exact ((get?_ne_none_iff.1 hget).elim hstored hnamesake).elim
  · intro scope args hbuild cursor hcursor
    obtain ⟨-, hops⟩ := Query.cursorsOf_build hbuild
    obtain ⟨id, hid⟩ := hops cursor.1 cursor.2 (Query.mem_cursors_iff.1 hcursor)
    refine ⟨id, hid, fun hsegment hnamesake => hnamesake.1 ?_⟩
    rw [hid, q.collection.parent_doc hsegment]

/-- The users between two drafts, of which the first one only has the id of a user. -/
def betweenDrafts : Query :=
  ⟨.ofText "users", [.cursor .startAt (.ofText "users/drafts/u1"),
    .cursor .endAt (.ofText "users/drafts/u2")]⟩

theorem refused_iff_of_cursors_betweenDrafts :
    userStore.failures = [] ∧
      ∃ e, ((Request.getQuery betweenDrafts .default).run userStore).1 = .error e ∧
        e.code = .invalidArgument := by
  refine ⟨rfl, (refused_iff_of_cursors (s := userStore) rfl betweenDrafts .default).1.2 ?_⟩
  refine ⟨(.endAt, .ofText "users/drafts/u2"), List.mem_cons_of_mem _ List.mem_cons_self, ?_, ?_⟩
  · exact fun hstored => absurd hstored.1 (by decide)
  · exact fun hnamesake => hnamesake.2 rfl

/-- The users from a draft on that has the id of a user. -/
def fromDraft : Query := ⟨.ofText "users", [.cursor .startAt (.ofText "users/drafts/u1")]⟩

/-- The arguments that the query is built from. -/
def fromDraftArguments : QueryArguments where
  startAt := some (.ofValue (.string "drafts/u1"))

/-- A query is answered although its cursor is at a document that is not stored: a user has its
id. -/
theorem answered_fromDraft :
    Query.build ⟨.ofText "users", []⟩ fromDraftArguments = .ok fromDraft ∧
      userStore.failures = [] ∧
      (∀ cursor ∈ fromDraft.cursors, ¬ userStore.Stores fromDraft.collection cursor.2) ∧
      ∃ shown, ((Request.getQuery fromDraft .default).run userStore).1 = .ok shown ∧
        shown.map Snapshot.id = ["u1"] := by
  have hsorted : [("u1", [("name", .string "Alice")])] =
      fromDraft.sorted (userStore.collection fromDraft.collection.path) :=
    fromDraft.eq_sorted_of_ascending (.refl _) (List.pairwise_singleton _ _)
  have hstranger : ∀ cursor ∈ fromDraft.cursors,
      ¬ userStore.Stores fromDraft.collection cursor.2 := by
    intro cursor hcursor hstored
    obtain rfl := List.mem_singleton.1 hcursor
    exact absurd hstored.1 (by decide)
  refine ⟨rfl, rfl, hstranger, userStore.snapshots fromDraft.collection .default
    [("u1", [("name", .string "Alice")])], ?_, rfl⟩
  rw [Request.run_getQuery rfl, Query.evaluate, ← hsorted]
  rfl

end Store

end LiveDocs
