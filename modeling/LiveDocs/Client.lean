import LiveDocs.Store

/-!
# The client of a store

The engine talks to a store through a client, which keeps a log of the calls it makes and can make
chosen ones fail before they reach the store. Main statements: `log_perform`, every call is logged,
and `store_perform_of_fault`, a call that a fault catches leaves the store as it is.
-/

namespace LiveDocs

/-- A call to a store. -/
inductive Call where
  | getDocument (ref : DocumentRef) (source : Source)
  | getQuery (query : Query) (source : Source)
  | add (collection : CollectionRef) (data : Members)
  | set (ref : DocumentRef) (data : Members) (mode : WriteMode)
  | update (ref : DocumentRef) (data : Members)
  | delete (ref : DocumentRef)
  | listen (target : ListenTarget)

/-- The kind of a call. -/
inductive CallKind where
  | getDocument
  | getQuery
  | add
  | set
  | update
  | delete
  | listen
  deriving DecidableEq

/-- The kind of a call. -/
def Call.kind : Call → CallKind
  | getDocument _ _ => .getDocument
  | getQuery _ _ => .getQuery
  | add _ _ => .add
  | set _ _ _ => .set
  | update _ _ => .update
  | delete _ => .delete
  | listen _ => .listen

/-- The `nth` call of a kind, counted from one, fails. -/
structure Fault where
  kind : CallKind
  nth : Nat
  error : StoreError

/-- A store with the log of the calls made to it and the faults that wait for some of them. -/
structure Client where
  store : Store
  faults : List Fault
  log : List Call

namespace Client

/-- A client of a store that has made no calls. -/
def ofStore (store : Store) (faults : List Fault) : Client := ⟨store, faults, []⟩

/-- The number of calls of a kind that were made. -/
def count (c : Client) (kind : CallKind) : Nat := (c.log.filter (·.kind == kind)).length

/-- The fault that catches the next call of a kind. -/
def fault? (c : Client) (kind : CallKind) : Option Fault :=
  c.faults.find? fun f => f.kind == kind && f.nth == c.count kind + 1

/-- Makes a call. -/
def perform {α : Type} (call : Call) (run : Store → Answer α) (c : Client) :
    Except StoreError α × Client :=
  let logged := { c with log := c.log ++ [call] }
  match c.fault? call.kind with
  | some fault => (.error fault.error, logged)
  | none =>
    let (answer, store) := run c.store
    (answer, { logged with store })

/-- An upper bound on the number of calls that can still fail without a fault of their own. -/
def pendingFailures (c : Client) : Nat :=
  c.store.failures.length + (c.faults.filter fun f => c.count f.kind < f.nth).length

theorem log_perform {α : Type} (call : Call) (run : Store → Answer α) (c : Client) :
    (c.perform call run).2.log = c.log ++ [call] := by
  rw [perform]
  split <;> rfl

theorem store_perform_of_fault {α : Type} {call : Call} {c : Client} {fault : Fault}
    (h : c.fault? call.kind = some fault) (run : Store → Answer α) :
    (c.perform call run).2.store = c.store := by
  rw [perform, h]

end Client

end LiveDocs
