import LiveDocs.Proofs.Query.Evaluation

/-!
# Filters

What an operator selects depends on the value of a document at the path of the filter and on the
operand, and a query with one more filter shows those of the documents it showed that pass it. So
the laws of the operators are laws of the answers to queries. Main statements: `sorted_filtered`,
one more filter; `filtersAgree_of_relates`, the laws; `filters_agree`, the operators agree on what
they accept and on what they select from the documents of a collection.
-/

namespace LiveDocs

namespace Query

variable {q : Query} {f : Filter}

/-- The query with one more filter. -/
def filtered (q : Query) (f : Filter) : Query := ⟨q.collection, q.ops ++ [.filter f]⟩

theorem cursors_filtered : (q.filtered f).cursors = q.cursors := by
  simp [cursors, filtered]

theorem limit?_filtered : (q.filtered f).limit? = q.limit? := by
  simp [limit?, filtered]

theorem filters_filtered : (q.filtered f).filters = q.filters ++ [f] := by
  simp [filters, filtered]

theorem sortOrder?_filtered : (q.filtered f).sortOrder? = q.sortOrder? := by
  simp [sortOrder?, sortOrders, filtered]

/-- A filter leaves the order of the documents alone. -/
theorem orderDocuments_filtered : (q.filtered f).orderDocuments = q.orderDocuments := by
  funext a b
  simp only [orderDocuments, sortKey, sortOrder?_filtered]

theorem selected_filtered (c : Collection) :
    (q.filtered f).selected c = (q.selected c).filter (f.accepts ·.2) := by
  rw [selected, selected, List.filter_filter]
  refine List.filter_congr fun entry _ => ?_
  simp only [filters_filtered, hasSortField, sortOrder?_filtered, List.all_append, List.all_cons,
    List.all_nil, Bool.and_true]
  ac_rfl

/-- With one more filter, the documents that pass it are left, in the order in which they were. -/
theorem sorted_filtered (c : Collection) :
    (q.filtered f).sorted c = (q.sorted c).filter (f.accepts ·.2) := by
  have hperm : ((q.sorted c).filter (f.accepts ·.2)).Perm ((q.filtered f).selected c) := by
    rw [selected_filtered]
    exact (q.sorted_perm c).filter _
  refine ((q.filtered f).eq_sorted_of_ascending hperm ?_).symm
  rw [orderDocuments_filtered]
  exact (q.sorted_ascending c).filter _

end Query

/-! ### What the operators agree on -/

/-- The operators agree on a document, with this value at a path if it has one: `selects` says which
of them select it by this value, and for which operands. -/
structure FiltersAgree (value? : Option Json) (selects : FilterOp → Json → Prop) : Prop where
  /-- A document without a value at the path is selected by none. -/
  present : value? = none → ∀ op v, ¬ selects op v
  /-- Exactly one of less, equal and greater selects a document with a value of the same type. -/
  trichotomy : ∀ w v, value? = some w → w.OneType v →
    (selects .less v ∧ ¬ selects .equal v ∧ ¬ selects .greater v) ∨
    (¬ selects .less v ∧ selects .equal v ∧ ¬ selects .greater v) ∨
    (¬ selects .less v ∧ ¬ selects .equal v ∧ selects .greater v)
  oneType : ∀ op, op = .less ∨ op = .equal ∨ op = .greater → ∀ w v, value? = some w →
    selects op v → w.OneType v
  lessOrEqual : ∀ v, selects .lessOrEqual v ↔ selects .less v ∨ selects .equal v
  greaterOrEqual : ∀ v, selects .greaterOrEqual v ↔ selects .greater v ∨ selects .equal v
  notEqual : ∀ v, selects .notEqual v ↔ (∃ w, value? = some w ∧ w ≠ .null) ∧ ¬ selects .equal v
  among : ∀ vs, selects .among (.array vs) ↔ ∃ v ∈ vs, selects .equal v
  notAmong : ∀ vs, selects .notAmong (.array vs) ↔
    (∃ w, value? = some w ∧ w ≠ .null) ∧ ¬ selects .among (.array vs)
  arrayContainsAny : ∀ vs, selects .arrayContainsAny (.array vs) ↔
    ∃ v ∈ vs, selects .arrayContains v
  /-- What takes a list of candidates selects nothing if it is given something else. -/
  candidates : ∀ op, op = .among ∨ op = .notAmong ∨ op = .arrayContainsAny → ∀ v,
    selects op v → ∃ vs, v = .array vs

/-- Operators agree on a document if each of them selects it exactly if it relates the value of the
document to the operand. -/
theorem filtersAgree_of_relates {value? : Option Json} {selects : FilterOp → Json → Prop}
    (h : ∀ op v, selects op v ↔ ∃ w, value? = some w ∧ op.Relates w v) :
    FiltersAgree value? selects := by
  obtain rfl : selects = fun op v => ∃ w, value? = some w ∧ op.Relates w v :=
    funext fun op => funext fun v => propext (h op v)
  cases value? with
  | none => constructor <;> simp
  | some w =>
    simp only [Option.some.injEq, exists_eq_left']
    exact {
      present := fun hnone => by cases hnone
      trichotomy := by
        -- for values of one type, the three are the outcomes of the comparison
        rintro _ v ⟨rfl⟩ htype
        simp only [FilterOp.Relates, htype, true_and]
        cases w.order v <;> decide
      oneType := by
        rintro op hop _ v ⟨rfl⟩ hrelates
        exact FilterOp.oneType_of_relates hop hrelates
      lessOrEqual := fun v => FilterOp.relates_lessOrEqual_iff
      greaterOrEqual := fun v => FilterOp.relates_greaterOrEqual_iff
      notEqual := fun v => by simp [FilterOp.Relates]
      among := fun vs => FilterOp.relates_among_iff
      notAmong := fun vs => by
        simpa using FilterOp.relates_notAmong_iff
      arrayContainsAny := fun vs => FilterOp.relates_arrayContainsAny_iff
      candidates := fun op hop v => FilterOp.exists_candidates_of_relates hop }

/-! ### What queries show -/

namespace Store

variable {s : Store} {q : Query}

/-- A query without cursors and without a limit shows its answer. -/
theorem run_getQuery_of_unlimited (hs : s.failures = []) (hcursors : q.cursors = [])
    (hlimit : q.limit? = none) (source : Source) :
    (Request.getQuery q source).run s = (.ok (s.snapshots q.collection source
      (q.sorted (s.collection q.collection.path))), s) := by
  rw [Request.run_getQuery hs, Query.evaluate_of_unlimited hcursors hlimit]
  rfl

/-- The operators agree, whatever the path. They agree on which documents their filters accept. And
let a query have neither cursors nor a limit, for instance the query for all documents of a
collection: it shows its answer, with one more filter it shows a part of it, which is the answer to
the query with this filter, and the operators agree on which documents these parts contain. -/
theorem filters_agree (hs : s.failures = []) (hcursors : ∀ bound d, .cursor bound d ∉ q.ops)
    (hlimit : ∀ count, .limit count ∉ q.ops) (source : Source) (path : String) :
    (∀ data, FiltersAgree (Members.read path data) fun op v =>
      (Filter.mk path op v).accepts data = true) ∧
    ∃ documents, q.Answers (s.collection q.collection.path) documents ∧
      (Request.getQuery q source).run s =
        (.ok (s.snapshots q.collection source documents), s) ∧
      ∃ selected : FilterOp → Json → List (String × Members),
        (∀ op v, (q.filtered ⟨path, op, v⟩).Answers (s.collection q.collection.path)
            (selected op v) ∧
          (Request.getQuery (q.filtered ⟨path, op, v⟩) source).run s =
            (.ok (s.snapshots q.collection source (selected op v)), s) ∧
          (selected op v).Sublist documents) ∧
        ∀ entry ∈ documents, FiltersAgree (Members.read path entry.2) fun op v =>
          entry ∈ selected op v := by
  have hcursors' : q.cursors = [] := Query.cursors_eq_nil_iff.2 hcursors
  have hlimit' : q.limit? = none := Query.limit?_eq_none_iff.2 hlimit
  have hanswers : ∀ q' : Query, q'.cursors = [] →
      q'.Answers (s.collection q.collection.path) (q'.sorted (s.collection q.collection.path)) :=
    fun q' h => Query.answers_of_perm_selected h (q'.sorted_perm _) (q'.sorted_ascending _)
  have hmem : ∀ entry ∈ q.sorted (s.collection q.collection.path), ∀ op v,
      entry ∈ (q.filtered ⟨path, op, v⟩).sorted (s.collection q.collection.path) ↔
        ∃ w, Members.read path entry.2 = some w ∧ op.Relates w v := by
    intro entry hentry op v
    rw [Query.sorted_filtered, List.mem_filter, Filter.accepts_iff]
    exact and_iff_right hentry
  refine ⟨fun data => filtersAgree_of_relates fun op v => Filter.accepts_iff, _,
    hanswers q hcursors', run_getQuery_of_unlimited hs hcursors' hlimit' source, _,
    fun op v => ⟨hanswers _ (Query.cursors_filtered.trans hcursors'), ?_, ?_⟩,
    fun entry hentry => filtersAgree_of_relates (hmem entry hentry)⟩
  · exact run_getQuery_of_unlimited hs (Query.cursors_filtered.trans hcursors')
      (Query.limit?_filtered.trans hlimit') source
  · rw [Query.sorted_filtered]
    exact List.filter_sublist

/-- Users of which no two have ages of one type; one of them has none. -/
def mixedUsers : Collection :=
  ⟨[("u1", [("age", .number (.int 30))]), ("u2", [("age", .string "thirty")]),
    ("u3", [("age", .null)]), ("u4", [("age", .array [.number (.int 30)])]), ("u5", [])],
    by decide⟩

/-- A store that holds them. -/
def mixedStore : Store := empty.put (.parse "users") mixedUsers

theorem filters_agree_mixed :
    let users := Query.all (.ofText "users")
    mixedStore.failures = [] ∧ (∀ bound d, .cursor bound d ∉ users.ops) ∧
      (∀ count, .limit count ∉ users.ops) ∧
      ∃ documents, users.Answers mixedUsers documents ∧
        (Request.getQuery users .default).run mixedStore =
          (.ok (mixedStore.snapshots users.collection .default documents), mixedStore) ∧
        documents.map Prod.fst = ["u1", "u2", "u3", "u4", "u5"] ∧
        ∃ selected : FilterOp → Json → List (String × Members),
          (∀ op v, (Request.getQuery (users.filtered ⟨"age", op, v⟩) .default).run mixedStore =
            (.ok (mixedStore.snapshots users.collection .default (selected op v)), mixedStore)) ∧
          (∀ entry ∈ documents, FiltersAgree (Members.read "age" entry.2) fun op v =>
            entry ∈ selected op v) ∧
          (selected .less (.int 31)).map Prod.fst = ["u1"] ∧
          (selected .less (.int 30)).map Prod.fst = [] ∧
          (selected .lessOrEqual (.int 30)).map Prod.fst = ["u1"] ∧
          (selected .equal .null).map Prod.fst = ["u3"] ∧
          (selected .notEqual (.int 30)).map Prod.fst = ["u2", "u4"] ∧
          (selected .among (.array [.int 30, .string "thirty"])).map Prod.fst = ["u1", "u2"] ∧
          (selected .notAmong (.array [.int 30, .null])).map Prod.fst = ["u2", "u4"] ∧
          (selected .arrayContainsAny (.array [.int 20, .int 30])).map Prod.fst = ["u4"] := by
  intro users
  have hcursors : ∀ bound d, .cursor bound d ∉ users.ops := fun _ _ => List.not_mem_nil
  have hlimit : ∀ count, .limit count ∉ users.ops := fun _ => List.not_mem_nil
  have hcollection : mixedStore.collection users.collection.path = mixedUsers :=
    collection_put_self empty (.parse "users") mixedUsers
  obtain ⟨-, documents, hdocuments, hshown, selected, hselected, hagree⟩ :=
    filters_agree (s := mixedStore) (q := users) rfl hcursors hlimit .default "age"
  rw [hcollection] at hdocuments
  -- the users are stored in the order of their ids
  have hascending : mixedUsers.entries.Pairwise fun a b => users.orderDocuments a b = .lt := by
    decide +kernel
  have hids : ∀ op v, selected op v =
      mixedUsers.entries.filter fun entry => (Filter.mk "age" op v).accepts entry.2 := by
    intro op v
    have hanswers := (hselected op v).1
    rw [hcollection] at hanswers
    refine hanswers.unique (Query.answers_of_perm_selected rfl ?_ ?_)
    · rw [Query.selected_filtered]
      exact .refl _
    · rw [Query.orderDocuments_filtered]
      exact hascending.filter _
  have hall : documents = mixedUsers.entries :=
    hdocuments.unique (Query.answers_of_perm_selected rfl (.refl _) hascending)
  refine ⟨rfl, hcursors, hlimit, documents, hdocuments, hshown, by rw [hall]; rfl, selected,
    fun op v => (hselected op v).2.1, hagree, ?_⟩
  simp only [hids]
  decide +kernel

end Store

end LiveDocs
