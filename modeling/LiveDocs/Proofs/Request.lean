import LiveDocs.Client

/-!
# Requests

A request is a call to a store together with the type of its answer, so that a statement about
every call is a statement about one family. Main statements: `run_of_failures_cons`, a queued
failure answers any request and nothing else happens; `failures_run`, and it is used up by that;
`store_run_of_reads`, a read leaves the store as it is; `error_code_of_run`, a store that was not
told to fail refuses a request only because an argument is invalid or a document is missing.
-/

namespace LiveDocs

/-- A call to a store, with the type of its answer. -/
inductive Request : Type → Type where
  | getDocument (ref : DocumentRef) (source : Source) : Request Snapshot
  | getQuery (query : Query) (source : Source) : Request (List Snapshot)
  | add (collection : CollectionRef) (data : Members) : Request DocumentRef
  | set (ref : DocumentRef) (data : Members) (mode : WriteMode) : Request Unit
  | update (ref : DocumentRef) (data : Members) : Request Unit
  | delete (ref : DocumentRef) : Request Unit
  | listen (target : ListenTarget) (box : Mailbox) : Request Nat

/-- A store that was not told to fail runs a call. -/
theorem Store.guarded_of_failures_nil {α : Type} {run : Store → Answer α} {s : Store}
    (h : s.failures = []) : s.guarded run = run s := by
  rw [guarded, h]

namespace Request

variable {α : Type}

/-- The call as a client logs it. -/
def call : Request α → Call
  | getDocument ref source => .getDocument ref source
  | getQuery query source => .getQuery query source
  | add collection data => .add collection data
  | set ref data mode => .set ref data mode
  | update ref data => .update ref data
  | delete ref => .delete ref
  | listen target _ => .listen target

/-- The answer of a store, and the store after it. -/
def run : Request α → Store → Answer α
  | getDocument ref source => Store.getDocument ref source
  | getQuery query source => Store.getQuery query source
  | add collection data => Store.add collection data
  | set ref data mode => Store.set ref data mode
  | update ref data => Store.update ref data
  | delete ref => Store.delete ref
  | listen target box => Store.listen target box

/-- The request reads documents. -/
def Reads : Request α → Prop
  | getDocument _ _ | getQuery _ _ => True
  | _ => False

/-- The request writes a document. -/
def Writes : Request α → Prop
  | add _ _ | set _ _ _ | update _ _ | delete _ => True
  | _ => False

/-- The reference that a request writes to: a document, or the collection that one is added to. -/
def written? : Request α → Option Reference
  | add collection _ => some (.collection collection)
  | set ref _ _ => some (.document ref)
  | update ref _ => some (.document ref)
  | delete ref => some (.document ref)
  | getDocument _ _ => none
  | getQuery _ _ => none
  | listen _ _ => none

/-- The request attaches a listener. -/
def Listens : Request α → Prop
  | listen _ _ => True
  | _ => False

theorem Reads.not_listens {r : Request α} (h : r.Reads) : ¬ r.Listens := by
  cases r with
  | listen target box => exact h.elim
  | getDocument | getQuery | add | set | update | delete => exact fun hlistens => hlistens

theorem Writes.not_listens {r : Request α} (h : r.Writes) : ¬ r.Listens := by
  cases r with
  | listen target box => exact h.elim
  | getDocument | getQuery | add | set | update | delete => exact fun hlistens => hlistens

theorem writes_of_written? {r : Request α} {reference : Reference}
    (h : r.written? = some reference) : r.Writes := by
  cases r with
  | add | set | update | delete => trivial
  | getDocument | getQuery | listen => cases h

/-- A queued failure answers any request, and leaves the rest of the store as it is. -/
theorem run_of_failures_cons (r : Request α) {s : Store} {e : StoreError}
    {rest : List StoreError} (h : s.failures = e :: rest) :
    r.run s = (.error e, { s with failures := rest }) := by
  cases r <;>
    simp only [run, Store.getDocument, Store.getQuery, Store.add, Store.set, Store.update,
      Store.delete, Store.listen, Store.guarded, h]

/-- A store that answers was not told to fail. -/
theorem failures_eq_nil_of_run {r : Request α} {s s' : Store} {a : α}
    (h : r.run s = (.ok a, s')) : s.failures = [] := by
  cases hs : s.failures with
  | nil => rfl
  | cons e rest =>
    rw [run_of_failures_cons r hs] at h
    cases h

/-- Every request uses up a queued failure, if there is one. -/
theorem failures_run (r : Request α) (s : Store) : (r.run s).2.failures = s.failures.tail := by
  cases hs : s.failures with
  | cons e rest => rw [run_of_failures_cons r hs, List.tail_cons]
  | nil =>
    cases r with
    | getDocument | getQuery | add | listen =>
      simp only [run, Store.getDocument, Store.getQuery, Store.add, Store.listen,
        Store.guarded_of_failures_nil hs]
      exact hs
    | set d data mode =>
      simp only [run, Store.set, Store.guarded_of_failures_nil hs]
      cases mode with
      | replace | merge => exact hs
      | fields paths =>
        simp only
        split <;> exact hs
    | update d data =>
      simp only [run, Store.update, Store.guarded_of_failures_nil hs]
      split <;> exact hs
    | delete d =>
      simp only [run, Store.delete, Store.guarded_of_failures_nil hs]
      split <;> exact hs

/-! ### Reads -/

theorem run_getDocument {s : Store} (h : s.failures = []) (d : DocumentRef) (source : Source) :
    (getDocument d source).run s = (.ok (s.snapshot d (s.document? d) source), s) := by
  simp only [run, Store.getDocument, Store.guarded_of_failures_nil h]

theorem run_getQuery {s : Store} (h : s.failures = []) (q : Query) (source : Source) :
    (getQuery q source).run s =
      ((q.evaluate (s.collection q.collection.path)).map
        (·.map fun (id, data) => s.snapshot (q.collection.doc id) (some data) source), s) := by
  simp only [run, Store.getQuery, Store.guarded_of_failures_nil h]

/-- A read leaves the store as it is. -/
theorem store_run_of_reads {r : Request α} (hr : r.Reads) {s : Store} (h : s.failures = []) :
    (r.run s).2 = s := by
  cases r with
  | getDocument d source => rw [run_getDocument h]
  | getQuery q source => rw [run_getQuery h]
  | add | set | update | delete | listen => exact hr.elim

/-! ### Reasons to refuse -/

theorem code_of_cut {q : Query} {c : Collection} {e : StoreError}
    {cursors : List (Bound × DocumentRef)} {documents : List (String × Members)}
    (h : q.cut c cursors documents = .error e) : e.code = .invalidArgument := by
  induction cursors generalizing documents with
  | nil => cases h
  | cons cursor rest ih =>
    obtain ⟨bound, document⟩ := cursor
    rw [Query.cut] at h
    split at h
    · cases h
      rfl
    · exact ih h

/-- A query is refused only because a cursor leads to no document. -/
theorem code_of_evaluate {q : Query} {c : Collection} {e : StoreError}
    (h : q.evaluate c = .error e) : e.code = .invalidArgument := by
  rw [Query.evaluate] at h
  cases hcut : q.cut c q.cursors (q.sorted c) with
  | error e' =>
    rw [hcut] at h
    obtain rfl : e' = e := by simpa [bind, Except.bind] using h
    exact code_of_cut hcut
  | ok documents =>
    rw [hcut] at h
    cases hlimit : q.limit? <;> simp [hlimit, bind, Except.bind, pure, Except.pure] at h

/-- A store that was not told to fail refuses a request only because an argument is invalid or a
document is missing. -/
theorem error_code_of_run {r : Request α} {s : Store} (hs : s.failures = []) {e : StoreError}
    (h : (r.run s).1 = .error e) : e.code = .invalidArgument ∨ e.code = .notFound := by
  cases r with
  | getDocument d source =>
    rw [run_getDocument hs] at h
    cases h
  | getQuery q source =>
    rw [run_getQuery hs] at h
    cases heval : q.evaluate (s.collection q.collection.path) with
    | error e' =>
      obtain rfl : e' = e := by simpa [heval, Except.map] using h
      exact .inl (code_of_evaluate heval)
    | ok documents => simp [heval, Except.map] at h
  | add c data => simp [run, Store.add, Store.guarded_of_failures_nil hs] at h
  | set d data mode =>
    simp only [run, Store.set, Store.guarded_of_failures_nil hs] at h
    cases mode with
    | replace => cases h
    | merge => cases h
    | fields paths =>
      simp only at h
      split at h
      · cases h
      · cases h
        exact .inl rfl
  | update d data =>
    simp only [run, Store.update, Store.guarded_of_failures_nil hs] at h
    split at h
    · cases h
      exact .inr rfl
    · cases h
  | delete d =>
    simp only [run, Store.delete, Store.guarded_of_failures_nil hs] at h
    split at h <;> cases h
  | listen target box => simp [run, Store.listen, Store.guarded_of_failures_nil hs] at h

/-- So a store that was not told to fail sends no abort signal. -/
theorem not_isAbort_of_run {r : Request α} {s : Store} (hs : s.failures = []) {e : StoreError}
    (h : (r.run s).1 = .error e) : e.code.isAbort = false := by
  rcases error_code_of_run hs h with hcode | hcode <;> rw [hcode] <;> rfl

end Request

end LiveDocs
