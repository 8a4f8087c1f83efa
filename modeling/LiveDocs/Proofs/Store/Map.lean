import LiveDocs.Proofs.Bindings
import LiveDocs.Proofs.Request
import LiveDocs.Proofs.Store.Documents
import LiveDocs.Proofs.Store.Writes
import Mathlib.Logic.Function.Basic

/-!
# The store as a map

A store keeps collections of documents by id and makes references out of both. Seen from outside it
is a map from references to data: a write changes the map at one reference, a read looks it up, and
a query without conditions lists the documents of a collection by id. What carries this is that
every id in a collection is the id of the reference made of it, which holds even at the root.
Main statements: `Holds.step`, an answered request does to the store what it does to the map;
`answersAs_of_serves`, after any run of such requests the store answers as the map does.
-/

namespace LiveDocs

/-- Documents by reference. -/
abbrev DocumentMap := DocumentRef → Option Members

/-- What a write of `data` makes of the data that are there. -/
def WriteMode.apply (data : Members) (mode : WriteMode) (current : Members) : Members :=
  match mode with
  | .replace => data
  | .merge => Json.mergeMembers data current
  | .fields paths => (Store.writeFields data paths current).1

/-- A request together with its answer. -/
structure Answered where
  {α : Type}
  request : Request α
  answer : α

namespace DocumentMap

/-- The map without documents. -/
def empty : DocumentMap := fun _ => none

/-- The map after some documents were put into it, one after the other. -/
def putAll (m : DocumentMap) (documents : List (DocumentRef × Members)) : DocumentMap :=
  documents.foldl (fun m (d, data) => Function.update m d (some data)) m

/-- The map after a request. An added document is found at the reference that was answered. -/
def after {α : Type} (m : DocumentMap) : Request α → α → DocumentMap
  | .getDocument _ _, _ => m
  | .getQuery _ _, _ => m
  | .add _ data, d => Function.update m d (some data)
  | .set d data mode, _ => Function.update m d (some (mode.apply data ((m d).getD [])))
  | .update d data, _ =>
    Function.update m d ((m d).map (data.foldl fun acc (path, v) => Members.write path v acc))
  | .delete d, _ => Function.update m d none
  | .listen _ _, _ => m

/-- The map after several requests. -/
def afterAll (m : DocumentMap) (log : List Answered) : DocumentMap :=
  log.foldl (fun m answered => m.after answered.request answered.answer) m

/-- The documents that a seed lists. -/
def seeded (collections : List (String × Json)) : List (DocumentRef × Members) :=
  collections.flatMap fun (path, documents) =>
    (documents.members?.getD []).map fun (id, data) =>
      ((CollectionRef.ofText path).doc id, data.members?.getD [])

end DocumentMap

/-! ### Entries of a collection -/

namespace Collection

theorem get?_eq_some_iff {c : Collection} {id : String} {data : Members} :
    c.get? id = some data ↔ (id, data) ∈ c.entries :=
  Bindings.get?_eq_some_iff c.distinct_entries

end Collection

/-- A query without conditions selects all documents of a collection, by id. -/
theorem Query.evaluate_all (ref : CollectionRef) (c : Collection) :
    (Query.all ref).evaluate c = .ok c.entries := by
  have hselected : (Query.all ref).selected c = c.entries :=
    List.filter_eq_self.2 fun entry _ => by
      simp [filters, hasSortField, sortOrder?, sortOrders, all]
  have hsorted : (Query.all ref).sorted c = c.entries := by
    rw [sorted, hselected]
    refine List.mergeSort_of_pairwise (c.ascending.imp fun {a b} hlt => ?_)
    have hcompare : compare a.1 b.1 = .lt := by
      change compareOfLessAndEq a.1 b.1 = .lt
      rw [compareOfLessAndEq, if_pos hlt]
    have horder : (Query.all ref).orderDocuments a b = compare a.1 b.1 := rfl
    rw [horder, hcompare]
    rfl
  rw [evaluate, hsorted]
  rfl

namespace Store

variable {s s' : Store} {m : DocumentMap}

/-! ### Stores and maps -/

/-- A store holds the documents of a map, and nothing else that a read could show. The ids in its
collections are ids of documents. -/
structure Holds (s : Store) (m : DocumentMap) : Prop where
  failures : s.failures = []
  pending : s.pending = []
  document : ∀ d, s.document? d = m d
  names : ∀ c : CollectionRef, ∀ entry ∈ (s.collection c.path).entries, c.Names entry.1

theorem Holds.of_collection (h : s.Holds m) (hfailures : s'.failures = s.failures)
    (hpending : s'.pending = s.pending) (hcollection : ∀ p, s'.collection p = s.collection p) :
    s'.Holds m where
  failures := hfailures.trans h.failures
  pending := hpending.trans h.pending
  document d := by rw [document?, hcollection, ← document?, h.document]
  names c entry hentry := h.names c entry (by rwa [hcollection] at hentry)

theorem holds_empty : Store.empty.Holds .empty :=
  ⟨rfl, rfl, fun _ => rfl, fun _ _ hentry => by cases hentry⟩

/-- To replace the collection of a document by one that differs at that document only is to update
the map there. -/
theorem Holds.put (h : s.Holds m) {d : DocumentRef} {c : Collection}
    (hc : ∀ id, id ≠ d.id → c.get? id = (s.collection d.parent.path).get? id) :
    (s.put d.parent.path c).Holds (Function.update m d (c.get? d.id)) where
  failures := h.failures
  pending := h.pending
  document e := by
    by_cases hne : e = d
    · subst hne
      rw [document?_put_self, Function.update_self]
    · rw [document?_put_of_ne hne hc, Function.update_of_ne hne, h.document]
  names ref entry hentry := by
    by_cases hpath : ref.path = d.parent.path
    · obtain rfl : ref = d.parent := congrArg CollectionRef.mk hpath
      rw [collection_put_self] at hentry
      by_cases hid : entry.1 = d.id
      · rw [hid]
        exact d.names_parent_id
      · have hget : c.get? entry.1 = some entry.2 := Collection.get?_eq_some_iff.2 hentry
        rw [hc _ hid] at hget
        exact h.names _ entry (Collection.get?_eq_some_iff.1 hget)
    · rw [collection_put_of_ne s hpath] at hentry
      exact h.names ref entry hentry

theorem Holds.putDocument (h : s.Holds m) (d : DocumentRef) (data : Members) :
    (s.putDocument d data).Holds (Function.update m d (some data)) := by
  have hput := h.put (d := d) (c := (s.collection d.parent.path).insert d.id data)
    fun _ hid => Collection.get?_insert_of_ne _ hid data
  rwa [Collection.get?_insert_self] at hput

theorem Holds.notify (h : s.Holds m) (d : DocumentRef) : (s.notify d).Holds m :=
  h.of_collection rfl rfl fun _ => rfl

/-! ### Requests -/

/-- An answered request does to the store what it does to the map. -/
theorem Holds.step {α : Type} {r : Request α} {a : α} (h : s.Holds m)
    (hrun : r.run s = (.ok a, s')) : s'.Holds (m.after r a) := by
  cases r with
  | getDocument d source =>
    rw [Request.run_getDocument h.failures] at hrun
    obtain rfl := (Prod.mk.inj hrun).2
    exact h
  | getQuery q source =>
    rw [Request.run_getQuery h.failures] at hrun
    obtain rfl := (Prod.mk.inj hrun).2
    exact h
  | add c data =>
    rw [run_add h.failures] at hrun
    obtain ⟨hanswer, rfl⟩ := Prod.mk.inj hrun
    obtain rfl := Except.ok.inj hanswer
    have hcounted : { s with generated := s.generated + 1 }.Holds m :=
      h.of_collection rfl rfl fun _ => rfl
    exact (hcounted.putDocument _ data).notify _
  | set d data mode =>
    simp only [Request.run, Store.set, guarded_of_failures_nil h.failures, h.document] at hrun
    cases mode with
    | replace =>
      obtain rfl := (Prod.mk.inj hrun).2
      exact (h.putDocument d _).notify d
    | merge =>
      obtain rfl := (Prod.mk.inj hrun).2
      exact (h.putDocument d _).notify d
    | fields paths =>
      simp only at hrun
      split at hrun
      · rename_i written hwritten
        obtain rfl := (Prod.mk.inj hrun).2
        rw [DocumentMap.after, WriteMode.apply, hwritten]
        exact (h.putDocument d written).notify d
      · cases hrun
  | update d data =>
    simp only [Request.run, Store.update, guarded_of_failures_nil h.failures, h.document] at hrun
    split at hrun
    · cases hrun
    · rename_i current hcurrent
      obtain rfl := (Prod.mk.inj hrun).2
      rw [DocumentMap.after, hcurrent]
      exact (h.putDocument d _).notify d
  | delete d =>
    simp only [Request.run, Store.delete, guarded_of_failures_nil h.failures, h.document] at hrun
    split at hrun
    · rename_i hcurrent
      obtain rfl := (Prod.mk.inj hrun).2
      rwa [DocumentMap.after, ← hcurrent, Function.update_eq_self]
    · obtain rfl := (Prod.mk.inj hrun).2
      have hput := h.put (d := d) (c := (s.collection d.parent.path).erase d.id)
        fun _ hid => Collection.get?_erase_of_ne _ hid
      rw [Collection.get?_erase_self] at hput
      exact hput.notify d
  | listen target box =>
    simp only [Request.run, Store.listen, guarded_of_failures_nil h.failures] at hrun
    obtain rfl := (Prod.mk.inj hrun).2
    exact h.of_collection rfl rfl fun _ => rfl

/-- A store that answers requests one after the other, none of them with an error. -/
inductive Serves : Store → List Answered → Store → Prop where
  | nil (s : Store) : Serves s [] s
  | cons {α : Type} {r : Request α} {a : α} {s s' s'' : Store} {log : List Answered}
      (h : r.run s = (.ok a, s')) (hrest : Serves s' log s'') : Serves s (⟨r, a⟩ :: log) s''

theorem Holds.serves {log : List Answered} (h : s.Holds m) (hserves : Serves s log s') :
    s'.Holds (m.afterAll log) := by
  induction hserves generalizing m with
  | nil s => exact h
  | cons hrun _ ih => exact ih (h.step hrun)

/-! ### Seeds -/

theorem replaceEntry_replaceEntry {α : Type} (path : Path) (value value' : α)
    (table : List (Path × α)) :
    replaceEntry path value' (replaceEntry path value table) = replaceEntry path value' table := by
  induction table with
  | nil => simp [replaceEntry]
  | cons head rest ih =>
    obtain ⟨p, a⟩ := head
    by_cases hp : p = path <;> simp [replaceEntry, hp, ih]

theorem put_put (s : Store) (path : Path) (c c' : Collection) :
    (s.put path c).put path c' = s.put path c' := by
  simp only [put, replaceEntry_replaceEntry]

theorem Holds.seedDocuments {path : String} {documents : List (String × Json)} {c c' : Collection}
    (hids : ∀ id ∈ Bindings.keys documents, IsSegment id)
    (h : (s.put (.parse path) c).Holds m)
    (hseed : seedDocuments.go path c documents = .ok c') :
    (s.put (.parse path) c').Holds (m.putAll (documents.map fun (id, data) =>
      ((CollectionRef.ofText path).doc id, data.members?.getD []))) := by
  induction documents generalizing c m with
  | nil =>
    obtain rfl : c = c' := Except.ok.inj hseed
    exact h
  | cons head rest ih =>
    obtain ⟨id, data⟩ := head
    have hid : IsSegment id := hids id (by simp [Bindings.keys])
    have hrest : ∀ id ∈ Bindings.keys rest, IsSegment id := fun id hid => hids id (by
      rw [Bindings.keys] at hid ⊢
      exact List.mem_cons_of_mem _ hid)
    cases data with
    | object data =>
      obtain ⟨hparent, hname⟩ := (CollectionRef.ofText path).names_of_isSegment hid
      have hput := h.putDocument ((CollectionRef.ofText path).doc id) data
      rw [Store.putDocument, hparent, hname, CollectionRef.ofText, collection_put_self,
        put_put] at hput
      exact ih hrest hput hseed
    | null | bool | number | string | array => cases hseed

/-- A seed is held as the map of the documents that it lists, if no two of its paths are the same
and its ids are single segments. -/
theorem Holds.seedCollections {collections : List (String × Json)} (h : s.Holds m)
    (hpaths : (collections.map fun entry => Path.parse entry.1).Nodup)
    (hids : ∀ path documents, (path, .object documents) ∈ collections →
      ∀ id ∈ Bindings.keys documents, IsSegment id)
    (hempty : ∀ entry ∈ collections, s.collection (.parse entry.1) = .empty)
    (hseed : seedCollections s collections = .ok s') :
    s'.Holds (m.putAll (DocumentMap.seeded collections)) := by
  induction collections generalizing s m with
  | nil =>
    obtain rfl : s = s' := Except.ok.inj hseed
    exact h
  | cons head rest ih =>
    obtain ⟨documents, c, hhead, hc, hrest⟩ := exists_of_seedCollections_cons hseed
    obtain ⟨path, value⟩ := head
    obtain ⟨-, rfl⟩ := Prod.mk.inj hhead
    obtain ⟨hnew, hdistinct⟩ := List.nodup_cons.1 hpaths
    -- nothing was there, so the seeded collection is all there is at its path
    have hstart : (s.put (.parse path) .empty).Holds m := by
      refine h.of_collection rfl rfl fun p => ?_
      by_cases hp : p = .parse path
      · rw [hp, collection_put_self, hempty _ List.mem_cons_self]
      · exact collection_put_of_ne s hp _
    have hfirst := hstart.seedDocuments (hids path documents List.mem_cons_self) hc
    rw [DocumentMap.seeded, List.flatMap_cons, DocumentMap.putAll, List.foldl_append]
    refine ih hfirst hdistinct
      (fun path documents hmem => hids path documents (List.mem_cons_of_mem _ hmem))
      (fun entry hentry => ?_) hrest
    have hne : Path.parse entry.1 ≠ .parse path := fun hpath =>
      hnew (List.mem_map.2 ⟨entry, hentry, hpath⟩)
    rw [collection_put_of_ne s hne]
    exact hempty entry (List.mem_cons_of_mem _ hentry)

/-- How a store may start: empty, or from a seed of distinct paths whose ids are single segments. -/
inductive Starts : Store → DocumentMap → Prop where
  | empty : Starts .empty .empty
  | seed {collections : List (String × Json)} {s : Store}
      (hseed : ofSeed (.object collections) = .ok s)
      (hpaths : (collections.map fun entry => Path.parse entry.1).Nodup)
      (hids : ∀ path documents, (path, .object documents) ∈ collections →
        ∀ id ∈ Bindings.keys documents, IsSegment id) :
      Starts s (DocumentMap.empty.putAll (DocumentMap.seeded collections))

theorem Starts.holds (h : Starts s m) : s.Holds m := by
  cases h with
  | empty => exact holds_empty
  | seed hseed hpaths hids =>
    exact holds_empty.seedCollections hpaths hids (fun _ _ => rfl) hseed

/-! ### Answers -/

/-- A store answers as a map does. A document reads as the map has it, and a query for a collection
gives its documents once each and by ascending id. A new document comes to lie in the collection it
is added to. To update a document that is missing, and only that, is refused as not found; to delete
one changes nothing, and nobody is told. -/
structure AnswersAs (s : Store) (m : DocumentMap) : Prop where
  getDocument : ∀ d source, (Request.getDocument d source).run s =
    (.ok ⟨d, m d, [], source == .cache⟩, s)
  getQuery : ∀ c source, ∃ snapshots, (Request.getQuery (.all c) source).run s =
    (.ok snapshots, s) ∧ (snapshots.Pairwise fun a b => a.id < b.id) ∧
    ∀ snapshot, snapshot ∈ snapshots ↔ ∃ d data, d.parent = c ∧ m d = some data ∧
      snapshot = ⟨d, some data, [], source == .cache⟩
  add : ∀ c data, ∃ d s', (Request.add c data).run s = (.ok d, s') ∧ d.parent = c
  update : ∀ d data, (∃ e s', (Request.update d data).run s = (.error e, s') ∧
    e.code = .notFound) ↔ m d = none
  delete : ∀ d, m d = none → (Request.delete d).run s = (.ok (), s)

theorem snapshot_of_pending_nil (h : s.pending = []) (d : DocumentRef) (data : Option Members)
    (source : Source) : s.snapshot d data source = ⟨d, data, [], source == .cache⟩ := by
  rw [snapshot, h]
  rfl

/-- The documents of a collection are its entries under the references made of their ids. -/
theorem Holds.mem_entries_iff (h : s.Holds m) {c : CollectionRef} {d : DocumentRef}
    {data : Members} :
    (∃ id, (id, data) ∈ (s.collection c.path).entries ∧ c.doc id = d) ↔
      d.parent = c ∧ m d = some data := by
  constructor
  · rintro ⟨id, hmem, rfl⟩
    obtain ⟨hparent, hid⟩ := h.names c _ hmem
    refine ⟨hparent, ?_⟩
    rw [← h.document, document?, hparent, hid]
    exact Collection.get?_eq_some_iff.2 hmem
  · rintro ⟨rfl, hd⟩
    rw [← h.document] at hd
    exact ⟨d.id, Collection.get?_eq_some_iff.1 hd, d.doc_parent_id⟩

theorem Holds.answersAs (h : s.Holds m) : s.AnswersAs m where
  getDocument d source := by
    rw [Request.run_getDocument h.failures, snapshot_of_pending_nil h.pending, h.document]
  getQuery c source := by
    rw [Request.run_getQuery h.failures, Query.evaluate_all]
    refine ⟨_, rfl, ?_, fun snapshot => ?_⟩
    · refine List.pairwise_map.2 ((s.collection c.path).ascending.imp_of_mem ?_)
      intro a b ha hb hlt
      rw [Snapshot.id, Snapshot.id]
      change (c.doc a.1).id < (c.doc b.1).id
      rw [(h.names c a ha).2, (h.names c b hb).2]
      exact hlt
    · simp only [List.mem_map, snapshot_of_pending_nil h.pending]
      constructor
      · rintro ⟨⟨id, data⟩, hmem, rfl⟩
        obtain ⟨hparent, hd⟩ := h.mem_entries_iff.1 ⟨id, hmem, rfl⟩
        exact ⟨c.doc id, data, hparent, hd, rfl⟩
      · rintro ⟨d, data, hparent, hd, rfl⟩
        obtain ⟨id, hmem, rfl⟩ := h.mem_entries_iff.2 ⟨hparent, hd⟩
        exact ⟨(id, data), hmem, rfl⟩
  add c data := by
    exact ⟨_, _, run_add h.failures c data, c.parent_doc (isSegment_generatedId _)⟩
  update d data := by
    simp only [Request.run, Store.update, guarded_of_failures_nil h.failures, h.document]
    cases m d with
    | none => exact iff_of_true ⟨_, _, rfl, rfl⟩ rfl
    | some current => simp
  delete d hd := by
    simp only [Request.run, Store.delete, guarded_of_failures_nil h.failures, h.document, hd]

/-- A store that started empty or from a seed, and answered any requests since, answers as the map
does that the documents of the seed and the answered requests make. -/
theorem answersAs_of_serves {s₀ : Store} {log : List Answered} (hstart : Starts s₀ m)
    (hserves : Serves s₀ log s) : s.AnswersAs (m.afterAll log) :=
  (hstart.holds.serves hserves).answersAs

/-- A seed of one user. -/
def userSeed : List (String × Json) :=
  [("users", .object [("u1", .object [("name", .string "Alice")])])]

/-- The store that holds the seed. -/
def userStore : Store :=
  empty.put (.parse "users") (Collection.empty.insert "u1" [("name", .string "Alice")])

/-- The user is renamed and deleted, and another one is added. -/
def userChanges : List Answered :=
  [⟨.update (.ofText "users/u1") [("name", .string "Alicia")], ()⟩,
    ⟨.delete (.ofText "users/u1"), ()⟩,
    ⟨.add (.ofText "users") [("name", .string "Bob")], .ofText "users/00000000000000000001"⟩]

/-- The store after that. -/
def changedStore : Store :=
  userChanges.foldl (fun s answered => (answered.request.run s).2) userStore

theorem answersAs_of_serves_userChanges :
    Starts userStore (DocumentMap.empty.putAll (DocumentMap.seeded userSeed)) ∧
      Serves userStore userChanges changedStore ∧
      changedStore.AnswersAs ((DocumentMap.empty.putAll (DocumentMap.seeded userSeed)).afterAll
        userChanges) := by
  have hids : ∀ path documents, (path, .object documents) ∈ userSeed →
      ∀ id ∈ Bindings.keys documents, IsSegment id := by
    intro path documents hmem id hid
    obtain ⟨-, rfl⟩ : path = "users" ∧
        documents = [("u1", .object [("name", .string "Alice")])] := by
      simpa [userSeed] using hmem
    obtain rfl : id = "u1" := by simpa [Bindings.keys] using hid
    exact ⟨by decide, by decide⟩
  have hseed : ofSeed (.object userSeed) = .ok userStore := rfl
  have hstart : Starts userStore _ := .seed hseed (by decide) hids
  have hserves : Serves userStore userChanges changedStore :=
    .cons rfl (.cons rfl (.cons rfl (.nil _)))
  exact ⟨hstart, hserves, answersAs_of_serves hstart hserves⟩

end Store

end LiveDocs
