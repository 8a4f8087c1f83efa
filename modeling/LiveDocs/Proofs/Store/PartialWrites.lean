import LiveDocs.Proofs.Json.FieldPath
import LiveDocs.Proofs.Json.Merge
import LiveDocs.Proofs.Request
import LiveDocs.Proofs.Store.Documents

/-!
# Writing parts of a document

An update writes fields of a document that exists; a write of listed fields takes them from the
data it is given, and makes the document if there is none. Both come to the same: if all that they
name is given, the fields are written one after the other, and the listeners are told. A merge
writes an object into another one. Main statements: `FieldWrite.exact_of_run`, a write of fields
that lie apart writes those and no others, in whatever order; `Store.merges_of_set`, where the
fields come from after a merge, and that a second one changes nothing.
-/

namespace LiveDocs

/-! ### Reading a document -/

theorem Members.read_nil (path : String) : Members.read path [] = none := by
  rw [Members.read_eq_follow, Json.follow_empty (Text.split_ne_nil '.' path)]

/-- A document reads as the fields have it, wherever no value is pending; what is missing reads as
null. -/
def Store.Reads (s : Store) (d : DocumentRef) (fields : Members) : Prop :=
  ∀ source, ∃ snapshot, (Request.getDocument d source).run s = (.ok snapshot, s) ∧
    ∀ path mode, Bindings.get? path snapshot.pending = none →
      snapshot.get path mode = (fields.read path).getD .null

/-- A document that does not exist reads as one without fields. -/
theorem Store.reads_document? {s : Store} (hs : s.failures = []) (d : DocumentRef) :
    s.Reads d ((s.document? d).getD []) := by
  intro source
  refine ⟨_, Request.run_getDocument hs d source, fun path mode hpending => ?_⟩
  cases hdata : s.document? d with
  | none =>
    rw [hdata] at hpending
    rw [Snapshot.get_of_missing rfl hpending, Option.getD_none, Members.read_nil, Option.getD_none]
  | some data =>
    rw [hdata] at hpending
    rw [Snapshot.get_of_data rfl hpending, Option.getD_some]

/-- A document that was written reads as it was written. -/
theorem Store.reads_putDocument {s : Store} (hs : s.failures = []) (d : DocumentRef)
    (fields : Members) : ((s.putDocument d fields).notify d).Reads d fields := by
  have hstored : ((s.putDocument d fields).notify d).document? d = some fields :=
    document?_putDocument_self s d fields
  have hreads := reads_document? (s := (s.putDocument d fields).notify d) hs d
  rwa [hstored, Option.getD_some] at hreads

/-! ### Writing fields -/

/-- A write of some fields of a document. -/
inductive FieldWrite where
  | update (data : Members)
  | set (data : Members) (paths : List String)

namespace FieldWrite

/-- The write as a request. -/
def request (d : DocumentRef) : FieldWrite → Request Unit
  | update data => .update d data
  | set data paths => .set d data (.fields paths)

/-- The paths that are named. -/
def paths : FieldWrite → List String
  | update data => Bindings.keys data
  | set _ paths => paths

/-- The value that is given for a path. -/
def given (path : String) : FieldWrite → Option Json
  | update data => Bindings.get? path data
  | set data _ => data.read path

/-- The fields that are written, one after the other. -/
def fields : FieldWrite → List (String × Json)
  | update data => data
  | set data paths => paths.filterMap fun path => (data.read path).map (path, ·)

/-- The store has what the write needs: the document of an update, the listed fields of the data. -/
def Applies (s : Store) (d : DocumentRef) : FieldWrite → Prop
  | update _ => ∃ data, s.document? d = some data
  | set data paths => ∀ path ∈ paths, ∃ value, data.read path = some value

/-- The same fields in any order. -/
inductive SameFields : FieldWrite → FieldWrite → Prop where
  | update {data data' : Members} (h : data.Perm data') : SameFields (update data) (update data')
  | set (data : Members) {paths paths' : List String} (h : paths.Perm paths') :
      SameFields (set data paths) (set data paths')

/-- A document is what a write has made of another one: each named path reads what is given for it,
and a path that lies apart from all of them reads as before. -/
structure Exact (w : FieldWrite) (before after : Members) : Prop where
  written : ∀ path ∈ w.paths, ∃ value, w.given path = some value ∧ after.read path = some value
  kept : ∀ path, (∀ named ∈ w.paths, FieldPath.Apart named path) →
    after.read path = before.read path

variable {w w' : FieldWrite} {s s' : Store} {d : DocumentRef}

/-! ### What a write comes to -/

theorem writeFields_of_forall {data : Members} {paths : List String}
    (h : ∀ path ∈ paths, ∃ value, data.read path = some value) (current : Members) :
    Store.writeFields data paths current =
      (current.writeAll (set data paths).fields, none) := by
  induction paths generalizing current with
  | nil => rfl
  | cons path rest ih =>
    obtain ⟨⟨value, hvalue⟩, hrest⟩ := List.forall_mem_cons.1 h
    have hfields : (set data (path :: rest)).fields = (path, value) :: (set data rest).fields := by
      rw [fields, List.filterMap_cons, hvalue]
      rfl
    rw [Store.writeFields, hvalue, hfields]
    exact ih hrest _

theorem forall_of_writeFields {data written : Members} {paths : List String} {current : Members}
    (h : Store.writeFields data paths current = (written, none)) :
    ∀ path ∈ paths, ∃ value, data.read path = some value := by
  induction paths generalizing current with
  | nil => exact List.forall_mem_nil _
  | cons path rest ih =>
    rw [Store.writeFields] at h
    split at h
    · rename_i value hvalue
      exact List.forall_mem_cons.2 ⟨⟨value, hvalue⟩, ih h⟩
    · cases h

/-- A write that has what it needs writes its fields and tells the listeners. -/
theorem run_of_applies (hs : s.failures = []) (h : w.Applies s d) :
    (w.request d).run s = (.ok (), (s.putDocument d
      (((s.document? d).getD []).writeAll w.fields)).notify d) := by
  cases w with
  | update data =>
    obtain ⟨current, hcurrent⟩ := h
    simp only [request, Request.run, Store.update, Store.guarded_of_failures_nil hs, hcurrent]
    rfl
  | set data paths =>
    simp only [request, Request.run, Store.set, Store.guarded_of_failures_nil hs,
      writeFields_of_forall h]

theorem applies_of_run (hs : s.failures = []) (h : (w.request d).run s = (.ok (), s')) :
    w.Applies s d := by
  cases w with
  | update data =>
    simp only [request, Request.run, Store.update, Store.guarded_of_failures_nil hs] at h
    split at h
    · cases h
    · rename_i current hcurrent
      exact ⟨current, hcurrent⟩
  | set data paths =>
    simp only [request, Request.run, Store.set, Store.guarded_of_failures_nil hs] at h
    split at h
    · rename_i written hwritten
      exact forall_of_writeFields hwritten
    · cases h

/-! ### The fields of a write -/

theorem map_fst_fields (h : w.Applies s d) : w.fields.map Prod.fst = w.paths := by
  cases w with
  | update data => rfl
  | set data paths =>
    have hfilter : ∀ path ∈ paths, ((data.read path).map (path, ·)).map Prod.fst = some path := by
      intro path hpath
      obtain ⟨value, hvalue⟩ := h path hpath
      rw [hvalue]
      rfl
    rw [fields, List.map_filterMap, FieldWrite.paths, List.filterMap_congr hfilter,
      List.filterMap_some]

theorem pairwise_fields (hapart : w.paths.Pairwise FieldPath.Apart) (h : w.Applies s d) :
    w.fields.Pairwise fun a b => FieldPath.Apart a.1 b.1 := by
  rw [← map_fst_fields h] at hapart
  exact List.pairwise_map.1 hapart

/-- What is written at a path is what is given for it. -/
theorem given_of_mem_fields (hdistinct : w.paths.Nodup) {path : String} {value : Json}
    (h : (path, value) ∈ w.fields) : w.given path = some value := by
  cases w with
  | update data => exact (Bindings.get?_eq_some_iff hdistinct).2 h
  | set data paths =>
    obtain ⟨named, -, hnamed⟩ := List.mem_filterMap.1 h
    obtain ⟨v, hv, hpair⟩ := Option.map_eq_some_iff.1 hnamed
    obtain ⟨rfl, rfl⟩ := Prod.mk.inj hpair
    exact hv

theorem SameFields.fields_perm (h : w.SameFields w') : w.fields.Perm w'.fields := by
  cases h with
  | update h => exact h
  | set data h => exact h.filterMap _

theorem SameFields.applies (h : w.SameFields w') (happlies : w.Applies s d) : w'.Applies s d := by
  cases h with
  | update h => exact happlies
  | set data h => exact fun path hpath => happlies path (h.mem_iff.2 hpath)

/-- Fields that lie apart are all there after they were written, and nothing else has changed. -/
theorem exact_writeAll (hapart : w.paths.Pairwise FieldPath.Apart) (h : w.Applies s d)
    (before : Members) : w.Exact before (before.writeAll w.fields) := by
  have hfst : w.fields.map Prod.fst = w.paths := map_fst_fields h
  constructor
  · intro path hpath
    rw [← hfst] at hpath
    obtain ⟨field, hmem, rfl⟩ := List.mem_map.1 hpath
    have hdistinct : w.paths.Nodup := hapart.imp FieldPath.Apart.ne
    exact ⟨field.2, given_of_mem_fields hdistinct hmem,
      Members.read_writeAll_of_mem (pairwise_fields hapart h) hmem before⟩
  · intro path hpath
    refine Members.read_writeAll_of_apart (fun field hmem => hpath field.1 ?_) before
    rw [← hfst]
    exact List.mem_map_of_mem hmem

/-- A write of fields that lie apart, if it succeeds, writes the given values and leaves every path
that lies apart from them as it was; reads show just that. The same fields in another order make
the same document, up to the order of keys. -/
theorem exact_of_run (hapart : w.paths.Pairwise FieldPath.Apart)
    (h : (w.request d).run s = (.ok (), s')) :
    ∃ after, s'.document? d = some after ∧ w.Exact ((s.document? d).getD []) after ∧
      s.Reads d ((s.document? d).getD []) ∧ s'.Reads d after ∧
      ∀ w', w.SameFields w' → ∃ s'' after', (w'.request d).run s = (.ok (), s'') ∧
        s''.document? d = some after' ∧ Json.Reordered (.object after) (.object after') := by
  have hs : s.failures = [] := Request.failures_eq_nil_of_run h
  have happlies : w.Applies s d := applies_of_run hs h
  obtain ⟨-, rfl⟩ := Prod.mk.inj (h.symm.trans (run_of_applies hs happlies))
  have hstored : ∀ fields, ((s.putDocument d fields).notify d).document? d = some fields :=
    fun fields => Store.document?_putDocument_self s d fields
  refine ⟨_, hstored _, exact_writeAll hapart happlies _, Store.reads_document? hs d,
    Store.reads_putDocument hs d _, fun w' hsame => ?_⟩
  refine ⟨_, _, run_of_applies hs (hsame.applies happlies), hstored _, ?_⟩
  exact .of_perm hsame.fields_perm (pairwise_fields hapart happlies) _

/-- A document with a value that is no object. -/
def planStore : Store :=
  .empty |>.put (.parse "users") (Collection.empty.insert "u1"
    [("plan", .string "free"), ("name", .object [("first", .string "Ada")])])

/-- The paths lead through a value that is no object, and through empty segments. -/
def planChange : FieldWrite :=
  .update [("plan.kind", .string "team"), ("", .bool true), ("name..", .array []),
    ("plan.seats", .number (.int 3))]

theorem exact_of_run_planChange :
    planChange.paths.Pairwise FieldPath.Apart ∧
      ∃ s' after, (planChange.request (.ofText "users/u1")).run planStore = (.ok (), s') ∧
        s'.document? (.ofText "users/u1") = some after ∧
        planChange.Exact ((planStore.document? (.ofText "users/u1")).getD []) after := by
  have hapart : planChange.paths.Pairwise FieldPath.Apart := by decide
  have hrun : (planChange.request (.ofText "users/u1")).run planStore =
      (.ok (), ((planChange.request (.ofText "users/u1")).run planStore).2) := rfl
  obtain ⟨after, hafter, hexact, -⟩ := exact_of_run hapart hrun
  exact ⟨hapart, _, after, hrun, hafter, hexact⟩

end FieldWrite

/-! ### Merging -/

namespace Store

theorem run_setMerge {s : Store} (hs : s.failures = []) (d : DocumentRef) (data : Members) :
    (Request.set d data .merge).run s =
      (.ok (), (s.putDocument d (Json.mergeMembers data ((s.document? d).getD []))).notify d) := by
  simp only [Request.run, set, guarded_of_failures_nil hs]

/-- After a merge each field comes from where it should, and reads show just that. To merge the same
again leaves all documents as they are, their keys in the same order. -/
theorem merges_of_set {s : Store} (hs : s.failures = []) (d : DocumentRef) {data : Members}
    (hdata : (Json.object data).HasDistinctKeys) :
    ∃ merged s', (Request.set d data .merge).run s = (.ok (), s') ∧ s'.document? d = some merged ∧
      Members.Merges data ((s.document? d).getD []) merged ∧
      s.Reads d ((s.document? d).getD []) ∧ s'.Reads d merged ∧
      ∃ s'', (Request.set d data .merge).run s' = (.ok (), s'') ∧
        s''.collections = s'.collections := by
  have hstored : ∀ fields, ((s.putDocument d fields).notify d).document? d = some fields :=
    fun fields => document?_putDocument_self s d fields
  have hfailures : ∀ fields, ((s.putDocument d fields).notify d).failures = [] := fun _ => hs
  refine ⟨_, _, run_setMerge hs d data, hstored _, Members.merges_mergeMembers hdata _,
    reads_document? hs d, reads_putDocument hs d _, _, run_setMerge (hfailures _) d data, ?_⟩
  rw [hstored, Option.getD_some, Json.mergeMembers_mergeMembers hdata]
  have hsame := congrArg Store.collections (putDocument_of_document? (hstored
    (Json.mergeMembers data ((s.document? d).getD []))))
  exact hsame

/-- Objects that meet an object, a value that is none, and nothing at all. -/
def settings : Members :=
  [("name", .object [("last", .string "Lovelace")]), ("plan", .object [("kind", .string "team")]),
    ("tags", .array []), ("limits", .object [])]

theorem merges_of_set_settings :
    FieldWrite.planStore.failures = [] ∧ (Json.object settings).HasDistinctKeys ∧
      ∃ merged s', (Request.set (.ofText "users/u1") settings .merge).run FieldWrite.planStore =
          (.ok (), s') ∧
        s'.document? (.ofText "users/u1") = some merged ∧ Members.Merges settings
          ((FieldWrite.planStore.document? (.ofText "users/u1")).getD []) merged := by
  have hsettings : (Json.object settings).HasDistinctKeys :=
    Json.hasDistinctKeys_merged (.object settings)
  obtain ⟨merged, s', hrun, hmerged, hmerges, -⟩ :=
    merges_of_set (s := FieldWrite.planStore) rfl (.ofText "users/u1") hsettings
  exact ⟨rfl, hsettings, merged, s', hrun, hmerged, hmerges⟩

end Store

end LiveDocs
