import LiveDocs.Proofs.Store.History

/-!
# Pending values of missing documents

A store keeps pending values apart from documents. They are set from outside, by document and field,
and nothing takes them away again: a document that is deleted, or was never written, still has them,
and a snapshot reads a pending value before it asks whether the document exists. Main statements:
`pending?_of_evolves`, the value that is pending is the last one that was set;
`get_eq_null_iff_of_missing`, when a missing document reads as null; `estimate_of_deleted`, a
deleted one that does not.
-/

namespace LiveDocs

/-- The value that was marked as pending in a field of a document. -/
def StoreEvent.pending? (d : DocumentRef) (field : String) : StoreEvent → Option PendingValue
  | .setPending e name v => if e = d ∧ name = field then some v else none
  | _ => none

/-- The last value that was marked as pending in a field of a document. -/
def lastPending (d : DocumentRef) (field : String) (events : List StoreEvent) :
    Option PendingValue :=
  events.reverse.findSome? (StoreEvent.pending? d field)

theorem lastPending_cons (d : DocumentRef) (field : String) (event : StoreEvent)
    (events : List StoreEvent) :
    lastPending d field (event :: events) =
      (lastPending d field events).or (event.pending? d field) := by
  rw [lastPending, List.reverse_cons, List.findSome?_append, List.findSome?_singleton, lastPending]

namespace Store

variable {s s' : Store} {event : StoreEvent} {events : List StoreEvent}

/-- The value that is pending in a field of a document. -/
def pending? (s : Store) (d : DocumentRef) (field : String) : Option PendingValue :=
  Bindings.get? field ((lookup d.path s.pending).getD [])

theorem pending?_setPending (s : Store) (e : DocumentRef) (name : String) (v : PendingValue)
    (d : DocumentRef) (field : String) :
    (s.setPending e name v).pending? d field =
      if e = d ∧ name = field then some v else s.pending? d field := by
  rw [pending?, setPending]
  by_cases hd : e = d
  · subst hd
    rw [lookup_replaceEntry_self, Option.getD_some]
    by_cases hfield : name = field
    · rw [hfield, Bindings.get?_insert_self, if_pos ⟨rfl, rfl⟩]
    · rw [Bindings.get?_insert_of_ne (Ne.symm hfield), if_neg fun h => hfield h.2, pending?]
  · have hpath : d.path ≠ e.path := fun hpath => hd (congrArg DocumentRef.mk hpath.symm)
    rw [lookup_replaceEntry_of_ne hpath, if_neg fun h => hd h.1, pending?]

/-- An event that sets no pending value leaves those that are there. -/
theorem pending_of_happens (h : s.Happens event s')
    (hnot : ∀ d field v, event ≠ .setPending d field v) : s'.pending = s.pending := by
  cases h with
  | @request _ r answer _ _ h =>
    have htouches := r.touches_run s
    rw [h] at htouches
    exact htouches.pending
  | receive h => rw [(receive?_eq_some h).2]
  | setPending => exact absurd rfl (hnot _ _ _)
  | clear | detach | failNext | failListeners => rfl

theorem pending?_of_happens (h : s.Happens event s') (d : DocumentRef) (field : String) :
    s'.pending? d field = (event.pending? d field).or (s.pending? d field) := by
  by_cases hset : ∃ e name v, event = .setPending e name v
  · obtain ⟨e, name, v, rfl⟩ := hset
    cases h
    rw [pending?_setPending, StoreEvent.pending?]
    split <;> rfl
  · have hpending := pending_of_happens h fun e name v heq => hset ⟨e, name, v, heq⟩
    have hnone : event.pending? d field = none := by
      cases event with
      | setPending e name v => exact absurd ⟨e, name, v, rfl⟩ hset
      | request | receive | clear | detach | failNext | failListeners => rfl
    rw [pending?, hpending, hnone, Option.none_or, pending?]

/-- What is pending is the last value that was set, whatever else has happened. -/
theorem pending?_of_evolves (h : s.Evolves events s') (d : DocumentRef) (field : String) :
    s'.pending? d field = (lastPending d field events).or (s.pending? d field) := by
  induction h with
  | nil s => rfl
  | cons h _ ih => rw [ih, pending?_of_happens h, lastPending_cons, Option.or_assoc]

/-- Nothing is pending in a store that was just seeded. -/
theorem pending?_of_ofSeed {seed : Json} (h : ofSeed seed = .ok s) (d : DocumentRef)
    (field : String) : s.pending? d field = none := by
  rw [pending?, eq_of_ofSeed h]
  rfl

/-- A missing document reads what is pending, and null where nothing is. -/
theorem get_snapshot_none (s : Store) (d : DocumentRef) (source : Source) (path : String)
    (mode : PendingMode) : (s.snapshot d none source).get path mode =
      ((s.pending? d path).map (·.read mode)).getD .null := by
  have hread : Bindings.get? path (s.snapshot d none source).pending = s.pending? d path := rfl
  cases hpending : s.pending? d path with
  | none => exact Snapshot.get_of_missing rfl (hread.trans hpending) mode
  | some v => exact Snapshot.get_of_pending (hread.trans hpending) mode

/-- A document that is missing is answered as one that does not exist. A field of it reads as null
exactly if none of its values was ever marked as pending, or the last one that was is null in the
mode of the read. -/
theorem get_eq_null_iff_of_missing {seed : Json} {s₀ : Store} (hseed : ofSeed seed = .ok s₀)
    (hevolves : s₀.Evolves events s) (hs : s.failures = []) {d : DocumentRef}
    (hd : s.document? d = none) (source : Source) :
    ∃ snapshot, (Request.getDocument d source).run s = (.ok snapshot, s) ∧
      snapshot.exists? = false ∧ ∀ path mode, snapshot.get path mode = .null ↔
        ∀ v, lastPending d path events = some v → v.read mode = .null := by
  refine ⟨s.snapshot d none source, ?_, rfl, fun path mode => ?_⟩
  · rw [Request.run_getDocument hs, hd]
  · rw [get_snapshot_none, pending?_of_evolves hevolves, pending?_of_ofSeed hseed, Option.or_none]
    cases lastPending d path events with
    | none => simp
    | some v => simp

/-- A seed with one user. -/
def adaSeed : Json := .object [("users", .object [("ada", .object [])])]

/-- The store that holds it. -/
def adaStore : Store := empty.put (.parse "users") (Collection.empty.insert "ada" [])

/-- The time of a visit is estimated and not confirmed yet. -/
def visit : PendingValue := ⟨.int 12, .null⟩

/-- Ada's visit is marked as pending, and then she is deleted. -/
def departure : List StoreEvent :=
  [.setPending (.ofText "users/ada") "visit" visit,
    .request (.delete (.ofText "users/ada")) (.ok ())]

/-- The store after that. -/
def leftStore : Store :=
  ((Request.delete (.ofText "users/ada")).run
    (adaStore.setPending (.ofText "users/ada") "visit" visit)).2

theorem evolves_departure : adaStore.Evolves departure leftStore :=
  .cons (.setPending _ _ _ _) (.cons (.request rfl) (.nil _))

theorem get_eq_null_iff_of_missing_departure :
    ofSeed adaSeed = .ok adaStore ∧ adaStore.Evolves departure leftStore ∧
      leftStore.failures = [] ∧ leftStore.document? (.ofText "users/ada") = none ∧
      ∃ snapshot, (Request.getDocument (.ofText "users/ada") .default).run leftStore =
          (.ok snapshot, leftStore) ∧
        snapshot.exists? = false ∧ snapshot.get "visit" .previous = .null := by
  have hseed : ofSeed adaSeed = .ok adaStore := rfl
  have hmissing : leftStore.document? (.ofText "users/ada") = none := by decide +kernel
  obtain ⟨snapshot, hrun, hexists, hget⟩ :=
    get_eq_null_iff_of_missing hseed evolves_departure rfl hmissing .default
  refine ⟨rfl, evolves_departure, rfl, hmissing, snapshot, hrun, hexists, (hget _ _).2 ?_⟩
  intro v hv
  obtain rfl : visit = v := Option.some.inj hv
  rfl

/-- The estimate outlives the document. -/
theorem estimate_of_deleted :
    ofSeed adaSeed = .ok adaStore ∧ adaStore.Evolves departure leftStore ∧
      leftStore.document? (.ofText "users/ada") = none ∧
      ∃ snapshot, (Request.getDocument (.ofText "users/ada") .default).run leftStore =
          (.ok snapshot, leftStore) ∧
        snapshot.exists? = false ∧ snapshot.get "visit" .estimate = .int 12 :=
  ⟨rfl, evolves_departure, by decide +kernel, _, rfl, rfl, rfl⟩

end Store

end LiveDocs
