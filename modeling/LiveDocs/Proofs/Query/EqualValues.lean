import LiveDocs.Proofs.Json.Equality
import LiveDocs.Proofs.Query.Filters

/-!
# Filters for equal values

The filters that look for an equal value select a document by what its value coincides with, since
that is what compares as equal: values without objects are found under every spelling of their
numbers, and an object only if its members are given in the order in which they are stored, each
number written as it is stored. Main statements: `selects_coinciding`, what the filters select;
`missed_reordered`, an object that is equal but for the order of its members is not found.
-/

namespace LiveDocs

namespace FilterOp

variable {v w : Json}

theorem relates_equal_iff : equal.Relates w v ↔ w.Coincides v := Json.order_eq_iff

theorem relates_among_singleton_iff : among.Relates w (.array [v]) ↔ w.Coincides v := by
  rw [relates_among_iff]
  simp only [List.mem_singleton, exists_eq_left, relates_equal_iff]

theorem relates_arrayContains_iff {items : List Json} :
    arrayContains.Relates (.array items) v ↔ ∃ item ∈ items, item.Coincides v := by
  constructor
  · rintro ⟨_, ⟨rfl⟩, item, hmem, horder⟩
    exact ⟨item, hmem, Json.order_eq_iff.1 horder⟩
  · rintro ⟨item, hmem, hitem⟩
    exact ⟨items, rfl, item, hmem, Json.order_eq_iff.2 hitem⟩

end FilterOp

/-- The value of the document at a path, as it is stored. -/
def Snapshot.value? (x : Snapshot) (path : String) : Option Json := x.data.bind (Members.read path)

/-- What filters for equal values make of a document, whatever query they stand in. -/
structure AcceptsCoinciding (path : String) (data : Members) : Prop where
  equal : ∀ v w, data.read path = some w →
    ((Filter.mk path .equal v).accepts data = true ↔ w.Coincides v)
  among : ∀ v w, data.read path = some w →
    ((Filter.mk path .among (.array [v])).accepts data = true ↔ w.Coincides v)
  arrayContains : ∀ v items, data.read path = some (.array items) →
    ((Filter.mk path .arrayContains v).accepts data = true ↔ ∃ item ∈ items, item.Coincides v)

/-- What filters for equal values select: `shown` are the documents that each operator selects by
the values at a path and an operand. -/
structure SelectsCoinciding (path : String) (documents : List Snapshot)
    (shown : FilterOp → Json → List Snapshot) : Prop where
  equal : ∀ v, ∀ x ∈ documents, ∀ w, x.value? path = some w →
    (x ∈ shown .equal v ↔ w.Coincides v)
  among : ∀ v, ∀ x ∈ documents, ∀ w, x.value? path = some w →
    (x ∈ shown .among (.array [v]) ↔ w.Coincides v)
  arrayContains : ∀ v, ∀ x ∈ documents, ∀ items, x.value? path = some (.array items) →
    (x ∈ shown .arrayContains v ↔ ∃ item ∈ items, item.Coincides v)

theorem acceptsCoinciding (path : String) (data : Members) : AcceptsCoinciding path data where
  equal _ _ hw := (Filter.accepts_iff_of_read hw).trans FilterOp.relates_equal_iff
  among _ _ hw := (Filter.accepts_iff_of_read hw).trans FilterOp.relates_among_singleton_iff
  arrayContains _ _ hw := (Filter.accepts_iff_of_read hw).trans FilterOp.relates_arrayContains_iff

/-- The documents among some that a filter selects. -/
def Filter.select (f : Filter) (documents : List Snapshot) : List Snapshot :=
  documents.filter fun x => x.data.any f.accepts

/-- A filter selects a document by the value at its path. -/
theorem Filter.mem_select_of_value? {path : String} {documents : List Snapshot} {x : Snapshot}
    {w : Json} (hx : x ∈ documents) (hw : x.value? path = some w) {op : FilterOp} {operand : Json} :
    x ∈ (Filter.mk path op operand).select documents ↔ op.Relates w operand := by
  obtain ⟨data, hdata, hread⟩ := Option.bind_eq_some_iff.1 hw
  rw [select, List.mem_filter, hdata, Option.any_some, accepts_iff_of_read hread]
  exact and_iff_right hx

theorem selectsCoinciding_select (path : String) (documents : List Snapshot) :
    SelectsCoinciding path documents fun op v => (Filter.mk path op v).select documents where
  equal _ _ hx _ hw := (Filter.mem_select_of_value? hx hw).trans FilterOp.relates_equal_iff
  among _ _ hx _ hw := (Filter.mem_select_of_value? hx hw).trans
    FilterOp.relates_among_singleton_iff
  arrayContains _ _ hx _ hw := (Filter.mem_select_of_value? hx hw).trans
    FilterOp.relates_arrayContains_iff

namespace Store

variable {s : Store} {q : Query}

theorem snapshots_filter (s : Store) (c : CollectionRef) (source : Source) (f : Filter)
    (documents : List (String × Members)) :
    s.snapshots c source (documents.filter (f.accepts ·.2)) =
      f.select (s.snapshots c source documents) := by
  rw [snapshots, snapshots, Filter.select, List.filter_map]
  rfl

/-- A query with one more filter shows those of the documents it showed that the filter selects. -/
theorem exists_shown (hs : s.failures = []) (hcursors : q.cursors = []) (hlimit : q.limit? = none)
    (source : Source) : ∃ documents, (Request.getQuery q source).run s = (.ok documents, s) ∧
      ∀ f : Filter,
        (Request.getQuery (q.filtered f) source).run s = (.ok (f.select documents), s) := by
  refine ⟨_, run_getQuery_of_unlimited hs hcursors hlimit source, fun f => ?_⟩
  rw [run_getQuery_of_unlimited hs (Query.cursors_filtered.trans hcursors)
    (Query.limit?_filtered.trans hlimit), Query.sorted_filtered, snapshots_filter]
  rfl

/-- A query that selects nothing shows nothing. -/
theorem run_getQuery_of_selected_eq_nil (hs : s.failures = []) (hcursors : q.cursors = [])
    (hlimit : q.limit? = none) (source : Source)
    (h : q.selected (s.collection q.collection.path) = []) :
    (Request.getQuery q source).run s = (.ok [], s) := by
  rw [run_getQuery_of_unlimited hs hcursors hlimit, Query.sorted, h, List.mergeSort_nil]
  rfl

/-- Two values compare as equal exactly if they coincide, which values that are equal as JSON values
do at least where there is no object in them. The filters for equal values accept exactly the
documents whose value, or an item of it, coincides with the operand, and with one of them a query
shows exactly those of the documents that it shows without. -/
theorem selects_coinciding (hs : s.failures = []) (hcursors : q.cursors = [])
    (hlimit : q.limit? = none) (source : Source) (path : String) :
    (∀ v w : Json, (v.order w = .eq ↔ v.Coincides w) ∧ (v.Coincides w → v.Agrees w) ∧
      (v.ObjectFree → v.Agrees w → v.Coincides w)) ∧
    (∀ data, AcceptsCoinciding path data) ∧
    ∃ documents, (Request.getQuery q source).run s = (.ok documents, s) ∧
      ∃ shown : FilterOp → Json → List Snapshot,
        (∀ op v, (Request.getQuery (q.filtered ⟨path, op, v⟩) source).run s =
          (.ok (shown op v), s)) ∧
        SelectsCoinciding path documents shown := by
  obtain ⟨documents, hrun, hshown⟩ := exists_shown hs hcursors hlimit source
  refine ⟨fun v w => ⟨Json.order_eq_iff, Json.agrees_of_coincides v w,
    Json.coincides_of_agrees v w⟩, acceptsCoinciding path, documents, hrun, ?_⟩
  exact ⟨fun op v => (Filter.mk path op v).select documents, fun op v => hshown ⟨path, op, v⟩,
    selectsCoinciding_select path documents⟩

/-- An address. -/
def oslo : Json := .object [("city", .string "Oslo"), ("zip", .int 1)]

/-- The same address, with its members the other way round. -/
def osloReordered : Json := .object [("zip", .int 1), ("city", .string "Oslo")]

/-- A store with one user, who has an address. -/
def addressStore : Store := empty.put (.parse "users") ⟨[("u1", [("home", oslo)])], by decide⟩

theorem selects_coinciding_addresses :
    addressStore.failures = [] ∧ (Query.all (.ofText "users")).cursors = [] ∧
      (Query.all (.ofText "users")).limit? = none ∧
      (∀ v w : Json, (v.order w = .eq ↔ v.Coincides w) ∧ (v.Coincides w → v.Agrees w) ∧
        (v.ObjectFree → v.Agrees w → v.Coincides w)) ∧
      (∀ data, AcceptsCoinciding "home" data) ∧
      ∃ documents, (Request.getQuery (.all (.ofText "users")) .default).run addressStore =
          (.ok documents, addressStore) ∧
        ∃ shown : FilterOp → Json → List Snapshot,
          (∀ op v, (Request.getQuery ((Query.all (.ofText "users")).filtered ⟨"home", op, v⟩)
            .default).run addressStore = (.ok (shown op v), addressStore)) ∧
          SelectsCoinciding "home" documents shown :=
  ⟨rfl, rfl, rfl, selects_coinciding rfl rfl rfl .default "home"⟩

/-- The two addresses are equal as JSON values; they do not compare as equal, and the user who has
the one is not found by the other. -/
theorem missed_reordered :
    oslo.Agrees osloReordered ∧ oslo.order osloReordered ≠ .eq ∧
      (∃ x, (Request.getDocument (.ofText "users/u1") .default).run addressStore =
        (.ok x, addressStore) ∧ x.value? "home" = some oslo) ∧
      (Request.getQuery ((Query.all (.ofText "users")).filtered ⟨"home", .equal, osloReordered⟩)
        .default).run addressStore = (.ok [], addressStore) := by
  have hne : oslo.order osloReordered ≠ .eq := by decide +kernel
  refine ⟨?_, hne, ⟨_, rfl, rfl⟩, ?_⟩
  · refine .object (by decide) fun key v v' hv hv' => ?_
    rcases eq_or_ne "city" key with rfl | hcity
    · obtain rfl : v = v' := Option.some.inj (hv.symm.trans hv')
      exact .refl v
    · rcases eq_or_ne "zip" key with rfl | hzip
      · obtain rfl : v = v' := Option.some.inj (hv.symm.trans hv')
        exact .refl v
      · simp [Bindings.get?, hcity, hzip] at hv
  · exact run_getQuery_of_selected_eq_nil rfl rfl rfl .default (by decide +kernel)

end Store

end LiveDocs
