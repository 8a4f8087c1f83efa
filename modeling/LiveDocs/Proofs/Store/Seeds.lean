import LiveDocs.Proofs.Store.Map
import Mathlib.Data.List.Nodup

/-!
# Seeded stores

A seed lists documents by the path of a collection and an id. A store takes the path apart but keeps
the id as it stands, whereas a reference takes both apart; and of two paths with the same segments
the later one replaces all that the earlier one listed. A store can therefore accept a seed and not
show it. Main statements: `shows_iff`, a collection shows what is listed for it exactly if it names
the ids and holds the documents; `shows_seed_iff`, for which seeds the store shows all that they
list; `lost_of_ofSeed`, two seeds of which a document is lost.
-/

namespace LiveDocs

/-- A collection holds the listed documents and no others. -/
def Collection.Lists (c : Collection) (documents : List (String × Json)) : Prop :=
  ∀ id data, c.get? id = some data ↔ (id, .object data) ∈ documents

/-- A collection holds one list of documents only. -/
theorem Collection.Lists.subset {c : Collection} {documents documents' : List (String × Json)}
    (h : c.Lists documents) (h' : c.Lists documents')
    (hobjects : ∀ entry ∈ documents, ∃ data, entry.2 = .object data) : documents ⊆ documents' := by
  rintro ⟨id, value⟩ hentry
  obtain ⟨data, rfl⟩ := hobjects _ hentry
  exact (h' id data).1 ((h id data).2 hentry)

/-- The id of a document in a collection names it, whatever text the document was reached by. -/
theorem CollectionRef.names_id_doc (c : CollectionRef) (text : String) :
    c.Names (c.doc text).id := by
  rw [names_iff]
  by_cases hsegments : (c.path.child text).segments = []
  · -- nothing below the root
    have hroot : c.path.segments = [] := (List.append_eq_nil_iff.1 hsegments).1
    refine .inr ⟨?_, Path.last_eq_empty_iff.2 hsegments⟩
    rw [Path.isRoot, hroot]
    rfl
  · left
    have hmem : (c.path.child text).last ∈ (c.path.child text).segments := by
      rw [Path.segments_eq_append_last hsegments]
      simp
    exact (c.path.child text).isSegment _ hmem

namespace Store

variable {s s' : Store}

theorem document?_of_names {c : CollectionRef} {id : String} (h : c.Names id) :
    s.document? (c.doc id) = (s.collection c.path).get? id := by
  obtain ⟨hparent, hid⟩ := h
  rw [document?, hparent, hid]

/-! ### What a seed puts into a store -/

/-- The documents of an accepted list are added to those that are there, in place of any with the
same id. -/
theorem get?_seedDocuments_go {path : String} {documents : List (String × Json)} {c c' : Collection}
    (hdistinct : Bindings.Distinct documents) (h : seedDocuments.go path c documents = .ok c') :
    (∀ entry ∈ documents, ∃ data, entry.2 = .object data) ∧ ∀ id data, c'.get? id = some data ↔
      (id, .object data) ∈ documents ∨ id ∉ Bindings.keys documents ∧ c.get? id = some data := by
  induction documents generalizing c with
  | nil =>
    obtain rfl : c = c' := Except.ok.inj h
    simp [Bindings.keys]
  | cons head rest ih =>
    obtain ⟨key, value⟩ := head
    obtain ⟨hnew, hrest⟩ := List.nodup_cons.1 hdistinct
    cases value with
    | object data =>
      obtain ⟨hobjects, hget⟩ := ih hrest h
      refine ⟨fun entry hentry => ?_, fun id data' => ?_⟩
      · rcases List.mem_cons.1 hentry with rfl | hentry
        · exact ⟨data, rfl⟩
        · exact hobjects entry hentry
      · rw [hget]
        by_cases hid : id = key
        · subst hid
          have hkeys : id ∉ Bindings.keys rest := hnew
          have hnot : ∀ value, (id, value) ∉ rest := by
            intro value hmem
            exact hkeys (List.mem_map.2 ⟨_, hmem, rfl⟩)
          rw [Collection.get?_insert_self]
          simp [hnot, Bindings.keys, eq_comm]
        · rw [Collection.get?_insert_of_ne _ hid]
          simp [Bindings.keys, hid]
    | null | bool | number | string | array => cases h

theorem lists_of_seedDocuments {path : String} {documents : List (String × Json)} {c : Collection}
    (hdistinct : Bindings.Distinct documents) (h : seedDocuments path documents = .ok c) :
    (∀ entry ∈ documents, ∃ data, entry.2 = .object data) ∧ c.Lists documents := by
  obtain ⟨hobjects, hget⟩ := get?_seedDocuments_go hdistinct h
  refine ⟨hobjects, fun id data => ?_⟩
  have hempty : Collection.empty.get? id ≠ some data := fun hsome => by cases hsome
  rw [hget]
  simp [hempty]

/-- A store that was seeded was not told to fail. -/
theorem failures_of_seedCollections {collections : List (String × Json)}
    (h : seedCollections s collections = .ok s') : s'.failures = s.failures := by
  rw [eq_of_seedCollections h]

/-- Each of the seeded collections was accepted. -/
theorem exists_seedDocuments {collections : List (String × Json)}
    (h : seedCollections s collections = .ok s') {path : String} {documents : List (String × Json)}
    (hmem : (path, .object documents) ∈ collections) :
    ∃ c, seedDocuments path documents = .ok c := by
  induction collections generalizing s with
  | nil => cases hmem
  | cons head rest ih =>
    obtain ⟨listed, c, hhead, hc, hrest⟩ := exists_of_seedCollections_cons h
    rcases List.mem_cons.1 hmem with heq | hmem
    · rw [← heq] at hhead hc
      obtain rfl : documents = listed := Json.object.inj (Prod.mk.inj hhead).2
      exact ⟨c, hc⟩
    · exact ih hrest hmem

/-- The collection at a path is one of those that the seed lists there, if there are any. -/
theorem collection_of_seedCollections {collections : List (String × Json)}
    (h : seedCollections s collections = .ok s') (p : Path) :
    (∃ path documents, (path, .object documents) ∈ collections ∧ Path.parse path = p ∧
        seedDocuments path documents = .ok (s'.collection p)) ∨
      (∀ entry ∈ collections, Path.parse entry.1 ≠ p) ∧ s'.collection p = s.collection p := by
  induction collections generalizing s with
  | nil =>
    obtain rfl : s = s' := Except.ok.inj h
    exact .inr ⟨List.forall_mem_nil _, rfl⟩
  | cons head rest ih =>
    obtain ⟨listed, c, hhead, hc, hrest⟩ := exists_of_seedCollections_cons h
    rcases ih hrest with ⟨path, documents, hmem, hpath, hdocuments⟩ | ⟨hnone, hsame⟩
    · exact .inl ⟨path, documents, List.mem_cons_of_mem _ hmem, hpath, hdocuments⟩
    · -- no later collection replaces the first one
      by_cases hp : Path.parse head.1 = p
      · subst hp
        rw [collection_put_self] at hsame
        exact .inl ⟨head.1, listed, hhead ▸ List.mem_cons_self, rfl, by rw [hsame, hc]⟩
      · rw [collection_put_of_ne s (Ne.symm hp)] at hsame
        exact .inr ⟨List.forall_mem_cons.2 ⟨hp, hnone⟩, hsame⟩

/-! ### What a store shows -/

/-- A store shows a collection as it is listed. Each document reads as listed, and a query for the
collection gives the listed ids, each once, with references that read as listed too. -/
structure Shows (s : Store) (c : CollectionRef) (documents : List (String × Json)) : Prop where
  document : ∀ id data source, (id, .object data) ∈ documents →
    ∃ snapshot, (Request.getDocument (c.doc id) source).run s = (.ok snapshot, s) ∧
      snapshot.data = some data
  query : ∀ source, ∃ snapshots, (Request.getQuery (.all c) source).run s = (.ok snapshots, s) ∧
    (snapshots.map Snapshot.id).Perm (Bindings.keys documents) ∧
    ∀ snapshot ∈ snapshots, ∃ data again, (snapshot.id, .object data) ∈ documents ∧
      snapshot.data = some data ∧
      (Request.getDocument snapshot.reference source).run s = (.ok again, s) ∧
      again.data = some data

theorem run_getQuery_all (hs : s.failures = []) (c : CollectionRef) (source : Source) :
    (Request.getQuery (.all c) source).run s =
      (.ok ((s.collection c.path).entries.map fun (id, data) =>
        s.snapshot (c.doc id) (some data) source), s) := by
  rw [Request.run_getQuery hs, Query.evaluate_all]
  rfl

variable {c : CollectionRef} {documents : List (String × Json)}

/-- A collection that is shown names the listed ids: they are ids of its documents. -/
theorem Shows.names (h : s.Shows c documents) (hs : s.failures = []) {id : String}
    (hid : id ∈ Bindings.keys documents) : c.Names id := by
  obtain ⟨snapshots, hrun, hperm, -⟩ := h.query .default
  rw [run_getQuery_all hs] at hrun
  obtain rfl := Except.ok.inj (Prod.mk.inj hrun).1
  obtain ⟨snapshot, hsnapshot, rfl⟩ := List.mem_map.1 (hperm.mem_iff.2 hid)
  obtain ⟨⟨text, data⟩, -, rfl⟩ := List.mem_map.1 hsnapshot
  exact c.names_id_doc text

theorem Shows.lists (h : s.Shows c documents) (hs : s.failures = [])
    (hdistinct : Bindings.Distinct documents) : (s.collection c.path).Lists documents := by
  have hlisted : ∀ id data, (id, .object data) ∈ documents →
      (s.collection c.path).get? id = some data := by
    intro id data hmem
    obtain ⟨snapshot, hrun, hdata⟩ := h.document id data .default hmem
    rw [Request.run_getDocument hs] at hrun
    obtain rfl := Except.ok.inj (Prod.mk.inj hrun).1
    rw [← document?_of_names (h.names hs (List.mem_map_of_mem hmem))]
    exact hdata
  intro id data
  refine ⟨fun hget => ?_, hlisted id data⟩
  obtain ⟨snapshots, hrun, hperm, hshown⟩ := h.query .default
  rw [run_getQuery_all hs] at hrun
  obtain rfl := Except.ok.inj (Prod.mk.inj hrun).1
  have hentry : (id, data) ∈ (s.collection c.path).entries := Collection.get?_eq_some_iff.1 hget
  obtain ⟨data', -, hmem, hdata, -⟩ := hshown _ (List.mem_map_of_mem hentry)
  obtain rfl : data = data' := Option.some.inj hdata
  -- the id of the snapshot is an id of the collection too, and no id is shown twice
  have hother : ((c.doc id).id, data) ∈ (s.collection c.path).entries :=
    Collection.get?_eq_some_iff.1 (hlisted _ _ hmem)
  have hid : (c.doc (c.doc id).id).id = (c.doc id).id := (c.names_id_doc id).2
  have hnodup := (hperm.nodup_iff).2 hdistinct
  rw [List.map_map] at hnodup
  have heq : (id, data) = ((c.doc id).id, data) :=
    List.inj_on_of_nodup_map hnodup hentry hother hid.symm
  rw [(Prod.mk.inj heq).1]
  exact hmem

/-- A collection shows what is listed for it exactly if it names the ids and holds the documents. -/
theorem shows_iff (hs : s.failures = []) (hdistinct : Bindings.Distinct documents)
    (hobjects : ∀ entry ∈ documents, ∃ data, entry.2 = .object data) :
    s.Shows c documents ↔
      (∀ id ∈ Bindings.keys documents, c.Names id) ∧ (s.collection c.path).Lists documents := by
  refine ⟨fun h => ⟨fun id hid => h.names hs hid, h.lists hs hdistinct⟩, ?_⟩
  rintro ⟨hnames, hlists⟩
  have hread : ∀ id data source, (id, .object data) ∈ documents →
      ∃ snapshot, (Request.getDocument (c.doc id) source).run s = (.ok snapshot, s) ∧
        snapshot.data = some data := by
    intro id data source hmem
    refine ⟨_, Request.run_getDocument hs _ _, ?_⟩
    change s.document? (c.doc id) = some data
    rw [document?_of_names (hnames id (List.mem_map_of_mem hmem))]
    exact (hlists id data).2 hmem
  have hentries : ∀ entry ∈ (s.collection c.path).entries,
      (entry.1, .object entry.2) ∈ documents := fun entry hentry =>
    (hlists entry.1 entry.2).1 (Collection.get?_eq_some_iff.2 hentry)
  have hids : ∀ entry ∈ (s.collection c.path).entries, (c.doc entry.1).id = entry.1 :=
    fun entry hentry => (hnames entry.1 (List.mem_map_of_mem (hentries entry hentry))).2
  refine ⟨hread, fun source => ⟨_, run_getQuery_all hs c source, ?_, ?_⟩⟩
  · have hshown : ((s.collection c.path).entries.map fun (id, data) =>
        s.snapshot (c.doc id) (some data) source).map Snapshot.id =
        (s.collection c.path).entries.map Prod.fst := by
      rw [List.map_map]
      exact List.map_congr_left fun entry hentry => hids entry hentry
    have hnodup : ((s.collection c.path).entries.map Prod.fst).Nodup :=
      (s.collection c.path).distinct_entries
    rw [hshown]
    refine (List.perm_ext_iff_of_nodup hnodup hdistinct).2 fun id => ⟨fun hid => ?_, fun hid => ?_⟩
    · obtain ⟨entry, hentry, rfl⟩ := List.mem_map.1 hid
      exact List.mem_map_of_mem (hentries entry hentry)
    · obtain ⟨entry, hentry, rfl⟩ := List.mem_map.1 hid
      obtain ⟨data, hdata⟩ := hobjects entry hentry
      have hget := (hlists entry.1 data).2 (hdata ▸ hentry)
      exact List.mem_map_of_mem (Collection.get?_eq_some_iff.1 hget)
  · intro snapshot hsnapshot
    obtain ⟨⟨id, data⟩, hentry, rfl⟩ := List.mem_map.1 hsnapshot
    have hmem : (id, .object data) ∈ documents := hentries (id, data) hentry
    obtain ⟨again, hrun, hdata⟩ := hread id data source hmem
    refine ⟨data, again, ?_, rfl, hrun, hdata⟩
    change ((c.doc id).id, _) ∈ documents
    rw [hids (id, data) hentry]
    exact hmem

/-- What a seed lists is shown exactly if the keys of the seed say where things are. Let a store be
made from a seed, in which no collection has a key twice. Then the store shows every collection as
the seed lists it exactly if two things are the case: each id is a single segment, or the empty id
at the root; and collections whose paths have the same segments are listed with the same
documents. -/
theorem shows_seed_iff {collections : List (String × Json)}
    (hseed : ofSeed (.object collections) = .ok s)
    (hdistinct : ∀ path documents, (path, .object documents) ∈ collections →
      Bindings.Distinct documents) :
    (∀ path documents, (path, .object documents) ∈ collections →
      s.Shows (.ofText path) documents) ↔
    (∀ path documents, (path, .object documents) ∈ collections →
      ∀ id ∈ Bindings.keys documents,
        IsSegment id ∨ (Path.parse path).isRoot = true ∧ id = "") ∧
    (∀ path documents path' documents', (path, .object documents) ∈ collections →
      (path', .object documents') ∈ collections → Path.parse path = Path.parse path' →
        ∀ entry, entry ∈ documents ↔ entry ∈ documents') := by
  have hs : s.failures = [] := failures_of_seedCollections hseed
  have haccepted : ∀ path documents, (path, .object documents) ∈ collections →
      ∀ entry ∈ documents, ∃ data, entry.2 = .object data := by
    intro path documents hmem
    obtain ⟨c, hc⟩ := exists_seedDocuments hseed hmem
    exact (lists_of_seedDocuments (hdistinct path documents hmem) hc).1
  have hshows : ∀ path documents, (path, .object documents) ∈ collections →
      (s.Shows (.ofText path) documents ↔
        (∀ id ∈ Bindings.keys documents, (CollectionRef.ofText path).Names id) ∧
          (s.collection (.parse path)).Lists documents) := fun path documents hmem =>
    shows_iff hs (hdistinct path documents hmem) (haccepted path documents hmem)
  constructor
  · intro h
    refine ⟨fun path documents hmem id hid => ?_, ?_⟩
    · exact CollectionRef.names_iff.1 (((hshows path documents hmem).1 (h _ _ hmem)).1 id hid)
    · intro path documents path' documents' hmem hmem' hpath entry
      have hlists := ((hshows path documents hmem).1 (h _ _ hmem)).2
      have hlists' := ((hshows path' documents' hmem').1 (h _ _ hmem')).2
      rw [← hpath] at hlists'
      exact ⟨fun hentry => hlists.subset hlists' (haccepted path documents hmem) hentry,
        fun hentry => hlists'.subset hlists (haccepted path' documents' hmem') hentry⟩
  · rintro ⟨hids, hagree⟩ path documents hmem
    refine (hshows path documents hmem).2
      ⟨fun id hid => CollectionRef.names_iff.2 (hids path documents hmem id hid), ?_⟩
    rcases collection_of_seedCollections hseed (.parse path) with
      ⟨path', documents', hmem', hpath, hdocuments⟩ | ⟨hnone, -⟩
    · -- the collection that was stored is listed with the same documents
      have hlists := (lists_of_seedDocuments (hdistinct path' documents' hmem') hdocuments).2
      exact fun id data => (hlists id data).trans
        (hagree path' documents' path documents hmem' hmem hpath _)
    · exact absurd rfl (hnone _ hmem)

/-- Two users. -/
def blogUsers : List (String × Json) :=
  [("u1", .object [("name", .string "Ada")]), ("u2", .object [])]

/-- A seed that lists them twice, under two paths with the same segments. -/
def blogSeed : List (String × Json) :=
  [("users", .object blogUsers), ("/users/", .object blogUsers.reverse)]

/-- Both lists hold the same users, so that nothing is lost. -/
theorem shows_seed_iff_blog :
    (∀ path documents, (path, .object documents) ∈ blogSeed → Bindings.Distinct documents) ∧
      ∃ s, ofSeed (.object blogSeed) = .ok s ∧
        ∀ path documents, (path, .object documents) ∈ blogSeed →
          s.Shows (.ofText path) documents := by
  have hperm : ∀ path documents, (path, .object documents) ∈ blogSeed →
      documents.Perm blogUsers := by
    intro path documents hmem
    simp only [blogSeed, List.mem_cons, Prod.mk.injEq, Json.object.injEq, List.not_mem_nil,
      or_false] at hmem
    rcases hmem with ⟨-, rfl⟩ | ⟨-, rfl⟩
    · exact .refl _
    · exact List.reverse_perm _
  have hdistinct : ∀ path documents, (path, .object documents) ∈ blogSeed →
      Bindings.Distinct documents := fun path documents hmem =>
    ((hperm path documents hmem).map Prod.fst).nodup_iff.2 (by decide)
  refine ⟨hdistinct, _, rfl, (shows_seed_iff rfl hdistinct).2 ⟨?_, ?_⟩⟩
  · intro path documents hmem id hid
    have hids : id ∈ ["u1", "u2"] := ((hperm path documents hmem).map Prod.fst).mem_iff.1 hid
    simp only [List.mem_cons, List.not_mem_nil, or_false] at hids
    rcases hids with rfl | rfl <;> exact .inl ⟨by decide, by decide⟩
  · intro path documents path' documents' hmem hmem' _ entry
    exact ((hperm path documents hmem).trans (hperm path' documents' hmem').symm).mem_iff

/-! ### What is lost -/

theorem not_shows_of_document? (hs : s.failures = []) {id : String} {data : Members}
    (hmem : (id, .object data) ∈ documents) (h : s.document? (c.doc id) = none) :
    ¬ s.Shows c documents := by
  intro hshows
  obtain ⟨snapshot, hrun, hdata⟩ := hshows.document id data .default hmem
  rw [Request.run_getDocument hs, h] at hrun
  obtain rfl := Except.ok.inj (Prod.mk.inj hrun).1
  cases hdata

/-- A document whose id is not a single segment. -/
def nestedUsers : List (String × Json) := [("u1/draft", .object [("name", .string "Ada")])]

/-- The seed of a single user. -/
def adaUsers : List (String × Json) := [("u1", .object [("name", .string "Ada")])]

/-- The seed of another one. -/
def bobUsers : List (String × Json) := [("u2", .object [("name", .string "Bob")])]

/-- The first seed is accepted, but its document is not found by its id; the second one is accepted
too, but the user under the first of two paths with the same segments is gone. -/
theorem lost_of_ofSeed :
    (∃ s, ofSeed (.object [("users", .object nestedUsers)]) = .ok s ∧
      s.document? ((CollectionRef.ofText "users").doc "u1/draft") = none ∧
      ¬ s.Shows (.ofText "users") nestedUsers) ∧
    (∃ s, ofSeed (.object [("users", .object adaUsers), ("/users", .object bobUsers)]) = .ok s ∧
      s.document? ((CollectionRef.ofText "users").doc "u1") = none ∧
      ¬ s.Shows (.ofText "users") adaUsers) := by
  constructor
  · refine ⟨_, rfl, ?nested, not_shows_of_document? rfl List.mem_cons_self ?nested⟩
    exact Option.not_isSome_iff_eq_none.1 (by decide +kernel)
  · refine ⟨_, rfl, ?replaced, not_shows_of_document? rfl List.mem_cons_self ?replaced⟩
    exact Option.not_isSome_iff_eq_none.1 (by decide +kernel)

end Store

end LiveDocs
