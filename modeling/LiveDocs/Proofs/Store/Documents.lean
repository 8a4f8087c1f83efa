import LiveDocs.Store
import Mathlib.Data.List.Basic

/-!
# Documents of a store

A reference is determined by the collection that holds it and its id, so a write at one reference
is not seen at any other. Main statements: `document?_putDocument_self` and
`document?_putDocument_of_ne`, reading after writing; `putDocument_of_document?`, writing what is
there already changes nothing at all.
-/

namespace LiveDocs

namespace Path

theorem segments_eq_append_last {p : Path} (h : p.segments ≠ []) :
    p.segments = p.parent.segments ++ [p.last] := by
  have hlast : p.last = p.segments.getLast h := by
    rw [last, List.getLast?_eq_some_getLast h, Option.getD_some]
  rw [segments_parent, hlast, List.dropLast_append_getLast h]

/-- Segments are not empty, so an empty last segment is no segment. -/
theorem last_eq_empty_iff {p : Path} : p.last = "" ↔ p.segments = [] := by
  constructor
  · intro h
    by_contra hne
    have hmem : p.last ∈ p.segments := by
      rw [segments_eq_append_last hne]
      simp
    exact (p.isSegment _ hmem).1 h
  · intro h
    rw [last, h]
    rfl

/-- A path is determined by its parent and its last segment. -/
theorem eq_of_parent_of_last {p q : Path} (hparent : p.parent = q.parent)
    (hlast : p.last = q.last) : p = q := by
  by_cases hp : p.segments = []
  · have hq : q.segments = [] := by rw [← last_eq_empty_iff, ← hlast, last_eq_empty_iff, hp]
    exact ext (hp.trans hq.symm)
  · have hq : q.segments ≠ [] := by rwa [ne_eq, ← last_eq_empty_iff, ← hlast, last_eq_empty_iff]
    refine ext ?_
    rw [segments_eq_append_last hp, segments_eq_append_last hq, hparent, hlast]

end Path

theorem DocumentRef.eq_of_parent_of_id {d e : DocumentRef} (hparent : d.parent = e.parent)
    (hid : d.id = e.id) : d = e := by
  have hpath : d.path = e.path :=
    Path.eq_of_parent_of_last (congrArg CollectionRef.path hparent) hid
  cases d
  cases e
  exact congrArg DocumentRef.mk hpath

/-! ### Ids in a collection -/

theorem CollectionRef.id_doc (c : CollectionRef) {id : String} (h : IsSegment id) :
    (c.doc id).id = id := last_of_isSegment c.path h

/-- A document is what its collection makes of its id, also at the root. -/
theorem DocumentRef.doc_parent_id (d : DocumentRef) : d.parent.doc d.id = d := by
  obtain ⟨p⟩ := d
  refine congrArg DocumentRef.mk (Path.ext ?_)
  rw [id, parent, Path.segments_child]
  by_cases hp : p.segments = []
  · rw [Path.last_eq_empty_iff.2 hp, Path.segments_parent, hp]
    simp [Path.segmentsOf, Text.split, Text.splitChars]
  · have hlast : IsSegment p.last := p.isSegment _ (by
      rw [Path.segments_eq_append_last hp]
      simp)
    rw [Path.segmentsOf_of_isSegment hlast, ← Path.segments_eq_append_last hp]

/-- A collection names a document by an id if the reference that it makes of the id lies in the
collection and has that id. -/
def CollectionRef.Names (c : CollectionRef) (id : String) : Prop :=
  (c.doc id).parent = c ∧ (c.doc id).id = id

theorem CollectionRef.names_of_isSegment (c : CollectionRef) {id : String} (h : IsSegment id) :
    c.Names id := ⟨c.parent_doc h, c.id_doc h⟩

theorem DocumentRef.names_parent_id (d : DocumentRef) : d.parent.Names d.id := by
  rw [CollectionRef.Names, d.doc_parent_id]
  exact ⟨rfl, rfl⟩

/-- A collection names its documents by single segments; the root, which is a document too, goes by
the empty id. -/
theorem CollectionRef.names_iff {c : CollectionRef} {id : String} :
    c.Names id ↔ IsSegment id ∨ c.path.isRoot = true ∧ id = "" := by
  obtain ⟨p⟩ := c
  constructor
  · rintro ⟨hparent, hid⟩
    have hsegments : (p.segments ++ Path.segmentsOf id).dropLast = p.segments :=
      congrArg (fun c => c.path.segments) hparent
    have hlast : (p.segments ++ Path.segmentsOf id).getLast?.getD "" = id := hid
    rcases List.eq_nil_or_concat (Path.segmentsOf id) with hnil | ⟨front, s, hs⟩
    · rw [hnil, List.append_nil] at hsegments hlast
      have hroot : p.segments = [] := by
        have hlength := congrArg List.length hsegments
        rw [List.length_dropLast] at hlength
        exact List.eq_nil_of_length_eq_zero (by omega)
      rw [hroot] at hlast
      exact .inr ⟨by simp [Path.isRoot, hroot], hlast.symm⟩
    · rw [hs, List.concat_eq_append, ← List.append_assoc, List.getLast?_concat,
        Option.getD_some] at hlast
      have hmem : s ∈ Path.segmentsOf id := by
        rw [hs]
        simp
      exact .inl (hlast ▸ Path.isSegment_of_mem_segmentsOf hmem)
  · rintro (hid | ⟨hroot, rfl⟩)
    · exact names_of_isSegment _ hid
    · -- the empty id leads from the root to the root
      have hp : p = Path.root := Path.ext (List.isEmpty_iff.1 hroot)
      subst hp
      exact ⟨rfl, rfl⟩

/-! ### Writing what is there already -/

theorem Collection.insertEntry_of_get? {id : String} {data : Members}
    {entries : List (String × Members)} (hasc : entries.Pairwise fun a b => a.1 < b.1)
    (h : Bindings.get? id entries = some data) : insertEntry id data entries = entries := by
  induction entries with
  | nil => simp [Bindings.get?] at h
  | cons head rest ih =>
    obtain ⟨key, value⟩ := head
    obtain ⟨hhead, hrest⟩ := List.pairwise_cons.1 hasc
    rw [Bindings.get?] at h
    split at h
    · rename_i hkey
      obtain rfl : value = data := Option.some.inj h
      rw [insertEntry, if_neg (hkey ▸ String.lt_irrefl key), if_pos hkey, hkey]
    · rename_i hkey
      -- the id is further on, so it lies above the first key
      have hmem : id ∈ Bindings.keys rest := by
        by_contra hnot
        rw [Bindings.get?_eq_none_iff.2 hnot] at h
        cases h
      obtain ⟨entry, hentry, rfl⟩ := List.mem_map.1 hmem
      have hlt : key < entry.1 := hhead entry hentry
      rw [insertEntry, if_neg (String.lt_asymm hlt), if_neg hkey, ih hrest h]

theorem Collection.insert_of_get? {c : Collection} {id : String} {data : Members}
    (h : c.get? id = some data) : c.insert id data = c := by
  cases c with
  | mk entries hasc =>
    have hentries : insertEntry id data entries = entries := insertEntry_of_get? hasc h
    simp only [insert, hentries]

namespace Store

theorem replaceEntry_of_lookup {α : Type} {path : Path} {value : α} {table : List (Path × α)}
    (h : lookup path table = some value) : replaceEntry path value table = table := by
  induction table with
  | nil => cases h
  | cons head rest ih =>
    obtain ⟨p, a⟩ := head
    rw [lookup] at h
    split at h
    · rename_i hp
      obtain rfl : a = value := Option.some.inj h
      rw [replaceEntry, if_pos hp]
    · rename_i hp
      rw [replaceEntry, if_neg hp, ih h]

/-- Writing what is there already changes nothing at all. -/
theorem putDocument_of_document? {s : Store} {d : DocumentRef} {data : Members}
    (h : s.document? d = some data) : s.putDocument d data = s := by
  have hcollection : (s.collection d.parent.path).insert d.id data = s.collection d.parent.path :=
    Collection.insert_of_get? h
  have hlookup : lookup d.parent.path s.collections = some (s.collection d.parent.path) := by
    cases hc : lookup d.parent.path s.collections with
    | some c => simp only [collection, hc, Option.getD_some]
    | none =>
      -- a collection that was never written holds no document
      simp only [document?, collection, hc, Option.getD_none] at h
      cases h
  rw [putDocument, put, hcollection, replaceEntry_of_lookup hlookup]

/-! ### Reading after writing -/

@[simp] theorem document?_put_self (s : Store) (d : DocumentRef) (c : Collection) :
    (s.put d.parent.path c).document? d = c.get? d.id := by
  rw [document?, collection_put_self]

/-- A write to one document of a collection is not seen at another reference. -/
theorem document?_put_of_ne {s : Store} {d e : DocumentRef} {c : Collection} (hne : e ≠ d)
    (hc : ∀ id, id ≠ d.id → c.get? id = (s.collection d.parent.path).get? id) :
    (s.put d.parent.path c).document? e = s.document? e := by
  by_cases hparent : e.parent = d.parent
  · have hid : e.id ≠ d.id := fun hid => hne (DocumentRef.eq_of_parent_of_id hparent hid)
    rw [document?, document?, hparent, collection_put_self, hc e.id hid]
  · have hpath : e.parent.path ≠ d.parent.path := fun hpath =>
      hparent (by
        rw [DocumentRef.parent, DocumentRef.parent]
        exact congrArg CollectionRef.mk hpath)
    rw [document?, document?, collection_put_of_ne s hpath]

theorem document?_putDocument_self (s : Store) (d : DocumentRef) (data : Members) :
    (s.putDocument d data).document? d = some data := by
  rw [putDocument, document?_put_self, Collection.get?_insert_self]

theorem document?_putDocument_of_ne (s : Store) {d e : DocumentRef} (h : e ≠ d)
    (data : Members) : (s.putDocument d data).document? e = s.document? e :=
  document?_put_of_ne h fun _ hid => Collection.get?_insert_of_ne _ hid data

/-! ### Seeds -/

/-- A seed is accepted one collection after the other. -/
theorem exists_of_seedCollections_cons {s s' : Store} {entry : String × Json}
    {rest : List (String × Json)}
    (h : seedCollections s (entry :: rest) = .ok s') :
    ∃ documents c, entry = (entry.1, .object documents) ∧
      seedDocuments entry.1 documents = .ok c ∧
      seedCollections (s.put (.parse entry.1) c) rest = .ok s' := by
  obtain ⟨path, value⟩ := entry
  cases value with
  | object documents =>
    rw [seedCollections] at h
    cases hc : seedDocuments path documents with
    | error e =>
      rw [hc] at h
      cases h
    | ok c =>
      rw [hc] at h
      exact ⟨documents, c, rfl, hc, h⟩
  | null | bool | number | string | array => cases h

/-- To seed a store is to replace its collections, and nothing else. -/
theorem eq_of_seedCollections {s s' : Store} {collections : List (String × Json)}
    (h : seedCollections s collections = .ok s') :
    s' = { s with collections := s'.collections } := by
  induction collections generalizing s with
  | nil =>
    obtain rfl : s = s' := Except.ok.inj h
    rfl
  | cons head rest ih =>
    obtain ⟨documents, c, -, -, hrest⟩ := exists_of_seedCollections_cons h
    have heq : s' = { s.put (.parse head.1) c with collections := s'.collections } := ih hrest
    exact heq

theorem eq_of_ofSeed {seed : Json} {s : Store} (h : ofSeed seed = .ok s) :
    s = { empty with collections := s.collections } := by
  cases seed with
  | object collections => exact eq_of_seedCollections h
  | null | bool | number | string | array => cases h

end Store

end LiveDocs
