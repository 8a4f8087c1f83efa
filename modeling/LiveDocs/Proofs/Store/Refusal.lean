import LiveDocs.Proofs.Request
import LiveDocs.Proofs.Store.Documents

/-!
# Refused requests

A request that is refused should leave the store as it was, up to the queued failure that it may
have used up. One request does not: a `set` that lists a field its data lack has by then written
the listed fields before that one, or made an empty document, and nobody is told.
Main statements: `unchanged_of_refused_iff`, this is the only way in which a refused request
changes a store; `document?_of_refused_set`, an input on which it does.
-/

namespace LiveDocs

namespace Store

theorem writeFields_append {data : Members} {front : List String} {current written : Members}
    (h : writeFields data front current = (written, none)) (rest : List String) :
    writeFields data (front ++ rest) current = writeFields data rest written := by
  induction front generalizing current with
  | nil =>
    obtain rfl : current = written := (Prod.mk.inj h).1
    rfl
  | cons field front ih =>
    rw [writeFields] at h
    rw [List.cons_append, writeFields]
    cases hread : data.read field with
    | none =>
      rw [hread] at h
      cases h
    | some v =>
      rw [hread] at h
      exact ih h

/-- Writing listed fields stops at the first of them that the data lack. -/
theorem writeFields_eq_some_iff {data current written : Members} {fields : List String}
    {field : String} :
    writeFields data fields current = (written, some field) ↔
      ∃ front rest, fields = front ++ field :: rest ∧ data.read field = none ∧
        writeFields data front current = (written, none) := by
  constructor
  · intro h
    induction fields generalizing current with
    | nil => cases h
    | cons first fields ih =>
      rw [writeFields] at h
      cases hread : data.read first with
      | none =>
        rw [hread] at h
        cases h
        exact ⟨[], fields, rfl, hread, rfl⟩
      | some v =>
        rw [hread] at h
        obtain ⟨front, rest, rfl, hfield, hfront⟩ := ih h
        refine ⟨first :: front, rest, rfl, hfield, ?_⟩
        rw [writeFields, hread]
        exact hfront
  · rintro ⟨front, rest, rfl, hfield, hfront⟩
    rw [writeFields_append hfront, writeFields, hfield]

end Store

namespace Request

variable {α : Type}

/-- The request is a `set` that stops at a listed field its data lack, and what the listed fields
before it make of the document is not what the store holds. -/
def StopsHalfway (s : Store) : Request α → Prop
  | set d data (.fields fields) =>
    s.failures = [] ∧ ∃ front field rest written, fields = front ++ field :: rest ∧
      data.read field = none ∧
      Store.writeFields data front ((s.document? d).getD []) = (written, none) ∧
      s.document? d ≠ some written
  | _ => False

/-- A refused `set` has stopped at a listed field that its data lack. -/
theorem refused_set {d : DocumentRef} {data : Members} {mode : WriteMode} {s s' : Store}
    {e : StoreError} (hs : s.failures = []) (h : (set d data mode).run s = (.error e, s')) :
    ∃ fields front field rest written, mode = .fields fields ∧ fields = front ++ field :: rest ∧
      data.read field = none ∧
      Store.writeFields data front ((s.document? d).getD []) = (written, none) ∧
      s' = s.putDocument d written := by
  simp only [run, Store.set, Store.guarded_of_failures_nil hs] at h
  cases mode with
  | replace => cases h
  | merge => cases h
  | fields fields =>
    simp only at h
    split at h
    · cases h
    · rename_i written field hwritten
      obtain ⟨front, rest, hfields, hread, hfront⟩ := Store.writeFields_eq_some_iff.1 hwritten
      exact ⟨fields, front, field, rest, written, rfl, hfields, hread, hfront,
        (Prod.mk.inj h).2.symm⟩

/-- The request writes a whole document. -/
def IsSet : Request α → Prop
  | set _ _ _ => True
  | _ => False

theorem StopsHalfway.isSet {r : Request α} {s : Store} (h : r.StopsHalfway s) : r.IsSet := by
  cases r with
  | set d data mode => trivial
  | getDocument | getQuery | add | update | delete | listen => exact h.elim

theorem StopsHalfway.failures_eq_nil {r : Request α} {s : Store} (h : r.StopsHalfway s) :
    s.failures = [] := by
  cases r with
  | set d data mode =>
    cases mode with
    | fields fields => exact h.1
    | replace | merge => exact h.elim
  | getDocument | getQuery | add | update | delete | listen => exact h.elim

/-- Any request but `set` that is refused without a queued failure leaves the store as it is. -/
theorem store_of_refused_of_not_isSet {r : Request α} (hr : ¬ r.IsSet) {s s' : Store}
    {e : StoreError} (hs : s.failures = []) (h : r.run s = (.error e, s')) : s' = s := by
  cases r with
  | getDocument d source =>
    rw [run_getDocument hs] at h
    cases h
  | getQuery q source =>
    rw [run_getQuery hs] at h
    exact (Prod.mk.inj h).2.symm
  | add c data => simp [run, Store.add, Store.guarded_of_failures_nil hs] at h
  | set d data mode => exact absurd trivial hr
  | update d data =>
    simp only [run, Store.update, Store.guarded_of_failures_nil hs] at h
    split at h
    · exact (Prod.mk.inj h).2.symm
    · cases h
  | delete d =>
    simp only [run, Store.delete, Store.guarded_of_failures_nil hs] at h
    split at h <;> cases h
  | listen target box => simp [run, Store.listen, Store.guarded_of_failures_nil hs] at h

/-- A `set` that is refused without a queued failure leaves the store as it is unless it stops
halfway, and even then changes no more than one document. -/
theorem store_of_refused_set {d : DocumentRef} {data : Members} {mode : WriteMode}
    {s s' : Store} {e : StoreError} (hs : s.failures = [])
    (h : (set d data mode).run s = (.error e, s')) :
    (s' = s ↔ ¬ (set d data mode).StopsHalfway s) ∧ ∃ written, s' = s.putDocument d written := by
  obtain ⟨fields, front, field, rest, written, rfl, hfields, hread, hfront, rfl⟩ :=
    refused_set hs h
  refine ⟨⟨?_, ?_⟩, written, rfl⟩
  · rintro hsame ⟨-, front', field', rest', written', hfields', hread', hfront', hne⟩
    -- the two accounts of where the `set` stopped are one
    have hstop := Store.writeFields_eq_some_iff.2 ⟨front, rest, hfields, hread, hfront⟩
    have hstop' := Store.writeFields_eq_some_iff.2 ⟨front', rest', hfields', hread', hfront'⟩
    obtain rfl : written = written' := (Prod.mk.inj (hstop.symm.trans hstop')).1
    refine hne ?_
    rw [← Store.document?_putDocument_self s d written, hsame]
  · intro hnot
    by_cases hdocument : s.document? d = some written
    · exact Store.putDocument_of_document? hdocument
    · exact absurd ⟨hs, front, field, rest, written, hfields, hread, hfront, hdocument⟩ hnot

/-- A refused request leaves the store as it was, up to the queued failure it may have used up,
exactly unless it is a `set` that stops halfway. In no case does it touch the pending values, the
listeners, their mail or the counters. -/
theorem unchanged_of_refused_iff {r : Request α} {s s' : Store} {e : StoreError}
    (h : r.run s = (.error e, s')) :
    (s' = { s with failures := s.failures.tail } ↔ ¬ r.StopsHalfway s) ∧
      s'.pending = s.pending ∧ s'.listeners = s.listeners ∧ s'.mail = s.mail ∧
      s'.generated = s.generated ∧ s'.nextListener = s.nextListener ∧
      s'.detached = s.detached := by
  cases hs : s.failures with
  | cons first rest =>
    -- a queued failure answers before anything is written
    rw [run_of_failures_cons r hs] at h
    obtain rfl := (Prod.mk.inj h).2
    have hnot : ¬ r.StopsHalfway s := fun hstop => by
      rw [hstop.failures_eq_nil] at hs
      cases hs
    exact ⟨iff_of_true rfl hnot, rfl, rfl, rfl, rfl, rfl, rfl⟩
  | nil =>
    have htail : { s with failures := ([] : List StoreError).tail } = s := by
      rw [List.tail_nil, ← hs]
    rw [htail]
    by_cases hr : r.IsSet
    · cases r with
      | set d data mode =>
        obtain ⟨hiff, written, rfl⟩ := store_of_refused_set hs h
        exact ⟨hiff, rfl, rfl, rfl, rfl, rfl, rfl⟩
      | getDocument | getQuery | add | update | delete | listen => exact hr.elim
    · obtain rfl := store_of_refused_of_not_isSet hr hs h
      exact ⟨iff_of_true rfl fun hstop => hr hstop.isSet, rfl, rfl, rfl, rfl, rfl, rfl⟩

/-- A `set` of a missing document whose only listed field is missing too. -/
def setMissingField : Request Unit := set (.ofText "users/u1") [] (.fields ["name"])

theorem unchanged_of_refused_iff_setMissingField :
    ∃ e s', setMissingField.run .empty = (.error e, s') ∧
      (s' = { Store.empty with failures := Store.empty.failures.tail } ↔
        ¬ setMissingField.StopsHalfway .empty) ∧
      s'.pending = Store.empty.pending ∧ s'.listeners = Store.empty.listeners ∧
      s'.mail = Store.empty.mail ∧ s'.generated = Store.empty.generated ∧
      s'.nextListener = Store.empty.nextListener ∧ s'.detached = Store.empty.detached :=
  ⟨_, _, rfl, unchanged_of_refused_iff rfl⟩

/-- It is refused, and an empty document is there afterwards. -/
theorem document?_of_refused_set :
    ∃ e s', setMissingField.run .empty = (.error e, s') ∧
      Store.empty.document? (.ofText "users/u1") = none ∧
      s'.document? (.ofText "users/u1") = some [] ∧
      s' ≠ { Store.empty with failures := Store.empty.failures.tail } := by
  refine ⟨_, _, rfl, rfl, Store.document?_putDocument_self _ _ _, fun h => ?_⟩
  have hlength := congrArg (fun s => s.collections.length) h
  cases hlength

end Request

end LiveDocs
