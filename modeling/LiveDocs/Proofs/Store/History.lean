import LiveDocs.Proofs.Store.Writes

/-!
# Histories of a store

What happens to a store is a request with its answer, or one of the things that are done to it from
outside: a notice is collected, a listener is detached, a value is marked as pending, a failure is
queued. A history is a list of these, as it can be seen without looking into the store. Main
statements: `touches_run`, what a request leaves alone; `generated_of_evolves` and `ids_addedIn`,
the documents that were added are counted and get the ids that follow.
-/

namespace LiveDocs

/-- Something that happened to a store. -/
inductive StoreEvent where
  | request {α : Type} (r : Request α) (answer : Except StoreError α)
  | receive (box : Mailbox) (notice : Notice)
  | clear (box : Mailbox)
  | detach (id : Nat)
  | setPending (d : DocumentRef) (field : String) (v : PendingValue)
  | failNext (e : StoreError)
  | failListeners (e : StoreError)

/-- The document that was added. -/
def StoreEvent.added? : StoreEvent → Option DocumentRef
  | .request (.add _ _) (.ok d) => some d
  | _ => none

/-- The documents that were added, one after the other. -/
def addedIn (events : List StoreEvent) : List DocumentRef := events.filterMap StoreEvent.added?

namespace Store

/-- An event takes one store to another. -/
inductive Happens : Store → StoreEvent → Store → Prop where
  | request {α : Type} {r : Request α} {answer : Except StoreError α} {s s' : Store}
      (h : r.run s = (answer, s')) : Happens s (.request r answer) s'
  | receive {s s' : Store} {box : Mailbox} {notice : Notice}
      (h : s.receive? box = some (notice, s')) : Happens s (.receive box notice) s'
  | clear (s : Store) (box : Mailbox) : Happens s (.clear box) (s.clear box)
  | detach (s : Store) (id : Nat) : Happens s (.detach id) (s.detach id)
  | setPending (s : Store) (d : DocumentRef) (field : String) (v : PendingValue) :
      Happens s (.setPending d field v) (s.setPending d field v)
  | failNext (s : Store) (e : StoreError) : Happens s (.failNext e) (s.failNext e)
  | failListeners (s : Store) (e : StoreError) : Happens s (.failListeners e) (s.failListeners e)

/-- A history takes one store to another. -/
inductive Evolves : Store → List StoreEvent → Store → Prop where
  | nil (s : Store) : Evolves s [] s
  | cons {s s' s'' : Store} {event : StoreEvent} {events : List StoreEvent}
      (h : Happens s event s') (hrest : Evolves s' events s'') : Evolves s (event :: events) s''

end Store

/-! ### What a request leaves alone -/

namespace Request

variable {α : Type}

/-- The collection that a request writes in. -/
def collection? : Request α → Option CollectionRef
  | add c _ => some c
  | set d _ _ => some d.parent
  | update d _ => some d.parent
  | delete d => some d.parent
  | getDocument _ _ => none
  | getQuery _ _ => none
  | listen _ _ => none

/-- The request adds a document. -/
def Adds : Request α → Prop
  | add _ _ => True
  | _ => False

/-- All that a request may change of the pending values, the counter and the collections. -/
structure Touches (r : Request α) (s s' : Store) : Prop where
  pending : s'.pending = s.pending
  generated : ¬ r.Adds → s'.generated = s.generated
  collection : ∀ c, r.collection? ≠ some c → s'.collection c.path = s.collection c.path

theorem Touches.of_collections {r : Request α} {s s' : Store} (hpending : s'.pending = s.pending)
    (hgenerated : s'.generated = s.generated) (hcollections : s'.collections = s.collections) :
    r.Touches s s' :=
  ⟨hpending, fun _ => hgenerated, fun c _ => by
    rw [Store.collection, hcollections, Store.collection]⟩

theorem collection_of_put {r : Request α} {s s' : Store} {written : CollectionRef} {c : Collection}
    (hwritten : r.collection? = some written)
    (hput : s'.collections = (s.put written.path c).collections) (ref : CollectionRef)
    (href : r.collection? ≠ some ref) : s'.collection ref.path = s.collection ref.path := by
  have hpath : ref.path ≠ written.path := fun hpath =>
    href (hwritten.trans (congrArg (fun path => some (CollectionRef.mk path)) hpath.symm))
  rw [Store.collection, hput, ← Store.collection, Store.collection_put_of_ne s hpath]

/-- A request that writes a document writes in its collection. -/
theorem Touches.of_put {r : Request α} {s s' : Store} {d : DocumentRef} {c : Collection}
    (hd : r.collection? = some d.parent) (hpending : s'.pending = s.pending)
    (hgenerated : s'.generated = s.generated)
    (hput : s'.collections = (s.put d.parent.path c).collections) : r.Touches s s' :=
  ⟨hpending, fun _ => hgenerated, collection_of_put hd hput⟩

/-- A request counts and writes only what it names, and marks nothing as pending. -/
theorem touches_run (r : Request α) (s : Store) : r.Touches s (r.run s).2 := by
  cases hs : s.failures with
  | cons e rest =>
    rw [run_of_failures_cons r hs]
    exact .of_collections rfl rfl rfl
  | nil =>
    cases r with
    | getDocument d source =>
      rw [run_getDocument hs]
      exact .of_collections rfl rfl rfl
    | getQuery q source =>
      rw [run_getQuery hs]
      exact .of_collections rfl rfl rfl
    | add c data =>
      rw [run, Store.add, Store.guarded_of_failures_nil hs]
      exact ⟨rfl, fun hadds => absurd trivial hadds, collection_of_put rfl rfl⟩
    | set d data mode =>
      rw [run, Store.set, Store.guarded_of_failures_nil hs]
      cases mode with
      | replace | merge => exact .of_put rfl rfl rfl rfl
      | fields paths =>
        simp only
        split <;> exact .of_put rfl rfl rfl rfl
    | update d data =>
      rw [run, Store.update, Store.guarded_of_failures_nil hs]
      split
      · exact .of_collections rfl rfl rfl
      · exact .of_put rfl rfl rfl rfl
    | delete d =>
      rw [run, Store.delete, Store.guarded_of_failures_nil hs]
      split
      · exact .of_collections rfl rfl rfl
      · exact .of_put rfl rfl rfl rfl
    | listen target box =>
      rw [run, Store.listen, Store.guarded_of_failures_nil hs]
      exact .of_collections rfl rfl rfl

end Request

namespace Store

variable {s s' : Store} {event : StoreEvent} {events : List StoreEvent}

/-! ### Counting -/

/-- An event counts the document that it adds, which gets the next id. -/
theorem generated_of_happens (h : s.Happens event s') :
    event.added? = none ∧ s'.generated = s.generated ∨
      ∃ c : CollectionRef, event.added? = some (c.doc (generatedId (s.generated + 1))) ∧
        s'.generated = s.generated + 1 := by
  cases h with
  | @request _ r answer _ _ h =>
    have htouches := r.touches_run s
    rw [h] at htouches
    cases r with
    | add c data =>
      cases answer with
      | error e =>
        -- only a queued failure refuses to add
        cases hs : s.failures with
        | nil =>
          rw [run_add hs] at h
          cases h
        | cons e rest =>
          rw [Request.run_of_failures_cons _ hs] at h
          obtain rfl := (Prod.mk.inj h).2
          exact .inl ⟨rfl, rfl⟩
      | ok d =>
        rw [run_add (Request.failures_eq_nil_of_run h)] at h
        obtain ⟨hanswer, rfl⟩ := Prod.mk.inj h
        obtain rfl := Except.ok.inj hanswer
        exact .inr ⟨c, rfl, rfl⟩
    | getDocument | getQuery | set | update | delete | listen =>
      exact .inl ⟨rfl, htouches.generated id⟩
  | receive h =>
    rw [(receive?_eq_some h).2]
    exact .inl ⟨rfl, rfl⟩
  | clear | detach | setPending | failNext | failListeners => exact .inl ⟨rfl, rfl⟩

/-- The counter stands where the documents that were added have brought it. -/
theorem generated_of_evolves (h : s.Evolves events s') :
    s'.generated = s.generated + (addedIn events).length := by
  induction h with
  | nil s => rfl
  | cons h _ ih =>
    rcases generated_of_happens h with ⟨hnone, hsame⟩ | ⟨c, hsome, hnext⟩
    · rw [ih, hsame, addedIn, addedIn, List.filterMap_cons_none hnone]
    · rw [ih, hnext, addedIn, addedIn, List.filterMap_cons_some hsome, List.length_cons]
      omega

/-- The documents that were added got the ids that follow, none of them left out. -/
theorem ids_addedIn (h : s.Evolves events s') :
    (addedIn events).map DocumentRef.id =
      (List.range' (s.generated + 1) (addedIn events).length).map generatedId := by
  induction h with
  | nil s => rfl
  | cons h _ ih =>
    rcases generated_of_happens h with ⟨hnone, hsame⟩ | ⟨c, hsome, hnext⟩
    · rw [addedIn, List.filterMap_cons_none hnone, ← addedIn, ih, hsame]
    · rw [addedIn, List.filterMap_cons_some hsome, ← addedIn, List.map_cons, ih, hnext,
        List.length_cons, List.range'_succ, List.map_cons, c.id_doc (isSegment_generatedId _)]

end Store

end LiveDocs
