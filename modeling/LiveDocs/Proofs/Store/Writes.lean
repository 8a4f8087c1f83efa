import LiveDocs.Proofs.Request
import LiveDocs.Proofs.Store.Documents

/-!
# What a write changes

A write that succeeds stores or removes one document and tells the listeners whose targets it
affects. Two stores are alike at a target if they hold the same where it lies, and a write is seen
at the targets that it affects only. Main statements: `run_of_wrote`, what a write comes to;
`readsAlike_of_not_told`, a mailbox that gets no notice of a write watches nothing that has changed.
-/

namespace LiveDocs

namespace ListenTarget

/-- Two stores hold the same where a target lies. -/
def ReadsAlike (s s' : Store) : ListenTarget → Prop
  | document d => s.document? d = s'.document? d
  | query q => s.collection q.collection.path = s'.collection q.collection.path

variable {s s' s'' : Store} {target : ListenTarget}

theorem ReadsAlike.of_collections (h : s.collections = s'.collections) (target : ListenTarget) :
    target.ReadsAlike s s' := by
  have hcollection : ∀ path, s.collection path = s'.collection path := fun path => by
    rw [Store.collection, Store.collection, h]
  cases target with
  | document d => exact congrArg (·.get? d.id) (hcollection d.parent.path)
  | query q => exact hcollection q.collection.path

theorem ReadsAlike.trans (h : target.ReadsAlike s s') (h' : target.ReadsAlike s' s'') :
    target.ReadsAlike s s'' := by
  cases target with
  | document d => exact Eq.trans h h'
  | query q => exact Eq.trans h h'

/-- Targets that are the same up to the order of members are affected by the same writes. -/
theorem isAffectedBy_of_same {a b : ListenTarget} (h : a.same b = true) (d : DocumentRef) :
    a.isAffectedBy d = b.isAffectedBy d := by
  cases a with
  | document e =>
    cases b with
    | document e' => rw [isAffectedBy, isAffectedBy, beq_iff_eq.1 h]
    | query q => cases h
  | query q =>
    cases b with
    | document e => cases h
    | query q' =>
      rw [same, Query.same, Bool.and_eq_true, Bool.and_eq_true] at h
      rw [isAffectedBy, isAffectedBy, beq_iff_eq.1 h.1.1]

/-- A write to one document is not seen at a target that it does not affect. -/
theorem readsAlike_put {d : DocumentRef} {c : Collection}
    (hc : ∀ id, id ≠ d.id → c.get? id = (s.collection d.parent.path).get? id)
    (h : target.isAffectedBy d = false) : target.ReadsAlike s (s.put d.parent.path c) := by
  cases target with
  | document e => exact (Store.document?_put_of_ne (beq_eq_false_iff_ne.1 h) hc).symm
  | query q =>
    have hne : q.collection ≠ d.parent := beq_eq_false_iff_ne.1 h
    refine (Store.collection_put_of_ne s (fun hpath => hne ?_) c).symm
    exact congrArg CollectionRef.mk hpath

end ListenTarget

/-! ### Reads -/

/-- The target that a call reads. -/
def Call.target? : Call → Option ListenTarget
  | getDocument d _ => some (.document d)
  | getQuery q _ => some (.query q)
  | _ => none

/-- Stores that are alike at the target of a read, and have the same pending values, give it the
same answer. -/
theorem Request.run_of_readsAlike {α : Type} {r : Request α} (hr : r.Reads) {s s' : Store}
    (hs : s.failures = []) (hs' : s'.failures = []) (hpending : s'.pending = s.pending)
    (h : ∀ target, r.call.target? = some target → target.ReadsAlike s s') :
    (r.run s').1 = (r.run s).1 := by
  cases r with
  | getDocument d source =>
    have hdocument : s.document? d = s'.document? d := h (.document d) rfl
    rw [run_getDocument hs, run_getDocument hs', hdocument, Store.snapshot, Store.snapshot,
      hpending]
  | getQuery q source =>
    have hcollection : s.collection q.collection.path = s'.collection q.collection.path :=
      h (.query q) rfl
    rw [run_getQuery hs, run_getQuery hs', hcollection]
    simp only [Store.snapshot, hpending]
  | add | set | update | delete | listen => exact hr.elim

/-! ### Generated ids -/

theorem Store.toList_generatedId (n : Nat) :
    (Store.generatedId n).toList = List.replicate (20 - (Nat.toDigits 10 n).length) '0' ++
      Nat.toDigits 10 n := by
  rw [Store.generatedId, String.toList_ofList, List.leftpad]

theorem Store.isDigit_of_mem_generatedId {n : Nat} {c : Char}
    (h : c ∈ (Store.generatedId n).toList) : c.isDigit = true := by
  rw [toList_generatedId] at h
  rcases List.mem_append.1 h with hzero | hdigit
  · rw [List.eq_of_mem_replicate hzero]
    rfl
  · exact Nat.isDigit_of_mem_toDigits (by decide) (by decide) hdigit

theorem Store.isSegment_generatedId (n : Nat) : IsSegment (Store.generatedId n) := by
  constructor
  · intro hempty
    have hlist := toList_generatedId n
    rw [hempty] at hlist
    exact Nat.toDigits_ne_nil (List.append_eq_nil_iff.1 hlist.symm).2
  · exact fun hslash => absurd (isDigit_of_mem_generatedId hslash) (by decide)

namespace Request

variable {α : Type}

/-- The document that an answered write has written; the one that was added is the answer. -/
def wrote? : Request α → α → Option DocumentRef
  | add _ _, d => some d
  | set d _ _, _ => some d
  | update d _, _ => some d
  | delete d, _ => some d
  | getDocument _ _, _ => none
  | getQuery _ _, _ => none
  | listen _ _, _ => none

/-- There is something to write or to remove: only the deletion of a missing document has no
effect. -/
def TakesEffect (s : Store) : Request α → Prop
  | delete d => s.document? d ≠ none
  | _ => True

theorem exists_wrote?_of_writes {r : Request α} (hr : r.Writes) (a : α) :
    ∃ d, r.wrote? a = some d := by
  cases r with
  | add => exact ⟨a, rfl⟩
  | set d | update d | delete d => exact ⟨d, rfl⟩
  | getDocument | getQuery | listen => exact hr.elim

end Request

namespace Store

/-! ### Writes -/

variable {α : Type} {s s' : Store}

/-- An added document is stored under the next generated id. -/
theorem run_add (hs : s.failures = []) (c : CollectionRef) (data : Members) :
    (Request.add c data).run s =
      (.ok (c.doc (generatedId (s.generated + 1))),
        ({ s with generated := s.generated + 1 }.putDocument
          (c.doc (generatedId (s.generated + 1))) data).notify
            (c.doc (generatedId (s.generated + 1)))) := by
  have hsegment := isSegment_generatedId (s.generated + 1)
  rw [Request.run, add, guarded_of_failures_nil hs, putDocument, c.parent_doc hsegment,
    c.id_doc hsegment]

/-- One document was stored or removed, the others of its collection are as before, and the
listeners were told. -/
inductive Wrote (s : Store) : Store → Prop where
  | document (generated : Nat) (d : DocumentRef) (c : Collection)
      (hc : ∀ id, id ≠ d.id → c.get? id = (s.collection d.parent.path).get? id) :
      Wrote s (({ s with generated }.put d.parent.path c).notify d)

/-- A write that succeeds stores or removes the document that it names and leaves the others of its
collection as they are; a deletion of nothing leaves the store as it is. -/
theorem run_of_wrote {r : Request α} (hs : s.failures = []) {a : α} (h : r.run s = (.ok a, s'))
    {d : DocumentRef} (hd : r.wrote? a = some d) :
    (r.TakesEffect s ∧ ∃ generated c,
      (∀ id, id ≠ d.id → c.get? id = (s.collection d.parent.path).get? id) ∧
        s' = ({ s with generated }.put d.parent.path c).notify d) ∨
      (¬ r.TakesEffect s ∧ s' = s) := by
  have hinsert : ∀ (e : DocumentRef) (data : Members) (id : String), id ≠ e.id →
      ((s.collection e.parent.path).insert e.id data).get? id =
        (s.collection e.parent.path).get? id := fun e data id hid =>
    Collection.get?_insert_of_ne _ hid data
  cases r with
  | add c data =>
    rw [run_add hs] at h
    obtain ⟨hadded, rfl⟩ := Prod.mk.inj h
    obtain rfl : c.doc (generatedId (s.generated + 1)) = a := Except.ok.inj hadded
    obtain rfl := Option.some.inj hd
    exact .inl ⟨trivial, s.generated + 1, _, hinsert _ data, rfl⟩
  | set e data mode =>
    obtain rfl := Option.some.inj hd
    simp only [Request.run, Store.set, guarded_of_failures_nil hs] at h
    cases mode with
    | replace =>
      exact .inl ⟨trivial, s.generated, _, hinsert e _, (Prod.mk.inj h).2.symm⟩
    | merge =>
      exact .inl ⟨trivial, s.generated, _, hinsert e _, (Prod.mk.inj h).2.symm⟩
    | fields paths =>
      simp only at h
      split at h
      · exact .inl ⟨trivial, s.generated, _, hinsert e _, (Prod.mk.inj h).2.symm⟩
      · cases h
  | update e data =>
    obtain rfl := Option.some.inj hd
    simp only [Request.run, Store.update, guarded_of_failures_nil hs] at h
    split at h
    · cases h
    · exact .inl ⟨trivial, s.generated, _, hinsert e _, (Prod.mk.inj h).2.symm⟩
  | delete e =>
    obtain rfl := Option.some.inj hd
    simp only [Request.run, Store.delete, guarded_of_failures_nil hs] at h
    split at h
    · rename_i hnone
      exact .inr ⟨fun htakes => htakes hnone, (Prod.mk.inj h).2.symm⟩
    · rename_i data hsome
      refine .inl ⟨fun hnone => ?_, s.generated, _, fun _ hid => Collection.get?_erase_of_ne _ hid,
        (Prod.mk.inj h).2.symm⟩
      cases hsome.symm.trans hnone
  | getDocument | getQuery | listen => cases hd

/-- A write that succeeds writes one document, unless it deletes one that does not exist. -/
theorem run_of_writes {r : Request α} (hr : r.Writes) (hs : s.failures = []) {a : α}
    (h : r.run s = (.ok a, s')) : s' = s ∨ s.Wrote s' := by
  obtain ⟨d, hd⟩ := Request.exists_wrote?_of_writes hr a
  rcases run_of_wrote hs h hd with ⟨-, generated, c, hc, rfl⟩ | ⟨-, hsame⟩
  · exact .inr (.document generated d c hc)
  · exact .inl hsame

/-- A listener of a mailbox watches a target. -/
def Watches (s : Store) (box : Mailbox) (target : ListenTarget) : Prop :=
  ∃ l ∈ s.listeners, l.mailbox = box ∧ l.target.same target = true

instance (s : Store) (box : Mailbox) (target : ListenTarget) : Decidable (s.Watches box target) :=
  inferInstanceAs (Decidable (∃ l ∈ s.listeners, l.mailbox = box ∧ l.target.same target = true))

/-- A change waits in a mailbox. -/
def Told (s : Store) (box : Mailbox) : Prop := ∃ target, .ok target ∈ s.notices box

/-- A write that affects a watched target is told to the mailbox. -/
theorem told_notify {box : Mailbox} {target : ListenTarget} {d : DocumentRef}
    (hwatched : s.Watches box target) (h : target.isAffectedBy d = true) :
    (s.notify d).Told box := by
  obtain ⟨l, hl, hbox, hsame⟩ := hwatched
  have haffected : l.target.isAffectedBy d = true := by
    rw [ListenTarget.isAffectedBy_of_same hsame, h]
  have hmem : l ∈ (s.listeners.filter (·.target.isAffectedBy d)).filter (·.mailbox == box) :=
    List.mem_filter.2 ⟨List.mem_filter.2 ⟨hl, haffected⟩, beq_iff_eq.2 hbox⟩
  refine ⟨l.target, ?_⟩
  rw [notices_notify]
  exact List.mem_append_right _ (List.mem_map_of_mem hmem)

theorem Told.notify {box : Mailbox} (h : s.Told box) (d : DocumentRef) : (s.notify d).Told box := by
  obtain ⟨target, hmem⟩ := h
  refine ⟨target, ?_⟩
  rw [notices_notify]
  exact List.mem_append_left _ hmem

/-- A mailbox in which no change waits after a write had none before, and the stores before and
after the write are alike at every target that it watches. -/
theorem readsAlike_of_not_told {r : Request α} (hr : r.Writes) (hs : s.failures = []) {a : α}
    (h : r.run s = (.ok a, s')) {box : Mailbox} (hnot : ¬ s'.Told box) :
    ¬ s.Told box ∧ ∀ target, s.Watches box target → target.ReadsAlike s s' := by
  rcases run_of_writes hr hs h with rfl | ⟨n, d, c, hc⟩
  · exact ⟨hnot, fun target _ => .of_collections rfl target⟩
  · refine ⟨fun htold => hnot (Told.notify htold d), fun target hwatched => ?_⟩
    -- had the write affected the target, the mailbox would have been told
    cases haffected : target.isAffectedBy d with
    | true => exact absurd (told_notify hwatched haffected) hnot
    | false => exact (ListenTarget.readsAlike_put hc haffected).trans (.of_collections rfl target)

/-- A write that succeeds touches neither the pending values nor the listeners. -/
theorem keeps_of_writes {r : Request α} (hr : r.Writes) (hs : s.failures = []) {a : α}
    (h : r.run s = (.ok a, s')) :
    s'.failures = [] ∧ s'.pending = s.pending ∧ s'.listeners = s.listeners := by
  rcases run_of_writes hr hs h with rfl | ⟨n, d, c, hc⟩
  · exact ⟨hs, rfl, rfl⟩
  · exact ⟨hs, rfl, rfl⟩

/-! ### Listeners and their mail -/

theorem detachAll_eq (s : Store) (ids : List Nat) :
    s.detachAll ids =
      { s with
        listeners := s.listeners.filter (·.id ∉ ids)
        detached := s.detached + ids.length } := by
  induction ids generalizing s with
  | nil => simp [detachAll]
  | cons id rest ih =>
    have hcons : s.detachAll (id :: rest) = (s.detach id).detachAll rest := rfl
    have hlisteners : (s.listeners.filter (·.id != id)).filter (·.id ∉ rest) =
        s.listeners.filter (·.id ∉ id :: rest) := by
      rw [List.filter_filter]
      refine List.filter_congr fun l _ => ?_
      by_cases hid : l.id = id <;> simp [hid]
    have hcount : s.detached + 1 + rest.length = s.detached + (id :: rest).length := by
      rw [List.length_cons]
      omega
    rw [hcons, ih, ← hlisteners, ← hcount]
    rfl

theorem takeFirst_eq_some {box : Mailbox} {mail rest : List (Mailbox × Notice)} {notice : Notice}
    (h : takeFirst box mail = some (notice, rest)) :
    (mail.filter (·.1 == box)).map (·.2) = notice :: (rest.filter (·.1 == box)).map (·.2) := by
  induction mail generalizing rest with
  | nil => cases h
  | cons entry mail ih =>
    obtain ⟨b, n⟩ := entry
    rw [takeFirst] at h
    split at h
    · rename_i hbox
      obtain ⟨rfl, rfl⟩ := Prod.mk.inj (Option.some.inj h)
      rw [List.filter_cons_of_pos (by simpa using hbox), List.map_cons]
    · rename_i hbox
      obtain ⟨⟨first, left⟩, hfirst, heq⟩ := Option.map_eq_some_iff.1 h
      obtain ⟨rfl, rfl⟩ := Prod.mk.inj heq
      rw [List.filter_cons_of_neg (by simpa using hbox),
        List.filter_cons_of_neg (by simpa using hbox)]
      exact ih hfirst

/-- A notice that is collected leaves the mailbox, and nothing else changes. -/
theorem receive?_eq_some {box : Mailbox} {notice : Notice}
    (h : s.receive? box = some (notice, s')) :
    s.notices box = notice :: s'.notices box ∧ s' = { s with mail := s'.mail } := by
  rw [receive?] at h
  obtain ⟨⟨first, mail⟩, hfirst, heq⟩ := Option.map_eq_some_iff.1 h
  obtain ⟨rfl, rfl⟩ := Prod.mk.inj heq
  exact ⟨takeFirst_eq_some hfirst, rfl⟩

theorem perm_of_takeFirst {box : Mailbox} {mail rest : List (Mailbox × Notice)} {notice : Notice}
    (h : takeFirst box mail = some (notice, rest)) : mail.Perm ((box, notice) :: rest) := by
  induction mail generalizing rest with
  | nil => cases h
  | cons entry mail ih =>
    obtain ⟨b, n⟩ := entry
    rw [takeFirst] at h
    split at h
    · rename_i hbox
      obtain ⟨rfl, rfl⟩ := Prod.mk.inj (Option.some.inj h)
      obtain rfl : b = box := hbox
      exact .refl _
    · obtain ⟨⟨first, left⟩, hfirst, heq⟩ := Option.map_eq_some_iff.1 h
      obtain ⟨rfl, rfl⟩ := Prod.mk.inj heq
      exact ((ih hfirst).cons (b, n)).trans (.swap _ _ _)

/-- The mail is what was collected together with what is left. -/
theorem mail_perm_of_receive {box : Mailbox} {notice : Notice}
    (h : s.receive? box = some (notice, s')) : s.mail.Perm ((box, notice) :: s'.mail) := by
  rw [receive?] at h
  obtain ⟨⟨first, mail⟩, hfirst, heq⟩ := Option.map_eq_some_iff.1 h
  obtain ⟨rfl, rfl⟩ := Prod.mk.inj heq
  exact perm_of_takeFirst hfirst

theorem takeFirst_eq_none_iff {box : Mailbox} {mail : List (Mailbox × Notice)} :
    takeFirst box mail = none ↔ ∀ notice, (box, notice) ∉ mail := by
  induction mail with
  | nil => simp [takeFirst]
  | cons entry mail ih =>
    obtain ⟨b, n⟩ := entry
    rw [takeFirst]
    split
    · rename_i hbox
      refine iff_of_false (by simp) fun hnone => hnone n ?_
      rw [hbox]
      exact List.mem_cons_self
    · rename_i hbox
      rw [Option.map_eq_none_iff, ih]
      refine forall_congr' fun notice => not_congr ?_
      rw [List.mem_cons, Prod.mk.injEq, or_iff_right fun heq => hbox heq.1.symm]

/-- There is nothing to collect exactly if no notice waits in the mailbox. -/
theorem receive?_eq_none_iff {box : Mailbox} :
    s.receive? box = none ↔ ∀ notice, (box, notice) ∉ s.mail := by
  rw [receive?, Option.map_eq_none_iff, takeFirst_eq_none_iff]

end Store

end LiveDocs
