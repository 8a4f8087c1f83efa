import LiveDocs.Query.Evaluate
import LiveDocs.Snapshot

/-!
# The store

A document store held in memory: collections of documents, values pending confirmation, and
listeners that are told of every write to what they watch. A call is answered at once, and one that
was told to fail takes the queued failure instead of running. Notices wait in mailboxes until they
are collected. Main statements: `collection_put_self` and `collection_put_of_ne`, a write changes
one collection only, and `notices_notify`, a mailbox gets one notice for each of its listeners that
a write affects.
-/

namespace LiveDocs

/-- What a listener watches. -/
inductive ListenTarget where
  | document (ref : DocumentRef)
  | query (query : Query)

namespace ListenTarget

/-- A write to a document can change what the target shows. -/
def isAffectedBy (document : DocumentRef) : ListenTarget → Bool
  | .document ref => ref == document
  | query q => q.collection == document.parent

/-- The watched path. -/
def path : ListenTarget → Path
  | document ref => ref.path
  | query q => q.collection.path

/-- A description of the target. -/
def toString : ListenTarget → String
  | document ref => "document " ++ ref.toString
  | query q => "query on " ++ q.collection.toString

/-- Equality up to the order of members in values. -/
def same : ListenTarget → ListenTarget → Bool
  | document a, document b => a == b
  | query a, query b => a.same b
  | _, _ => false

end ListenTarget

/-- How a whole document is written. -/
inductive WriteMode where
  | replace
  | merge
  | fields (paths : List String)

/-- The number of a mailbox. -/
abbrev Mailbox := Nat

/-- What a listener is told: its target changed, or it failed. -/
abbrev Notice := Except StoreError ListenTarget

/-- An attached listener. -/
structure Listener where
  id : Nat
  target : ListenTarget
  mailbox : Mailbox

/-- A document store. The counters of ids, listeners and detachments do not wrap around: where they
are kept in words of 64 bits, the store is the one that is described here for as long as it has
counted fewer than `2 ^ 64` of each. -/
structure Store where
  collections : List (Path × Collection)
  pending : List (Path × Bindings PendingValue)
  listeners : List Listener
  failures : List StoreError
  mail : List (Mailbox × Notice)
  generated : Nat
  nextListener : Nat
  detached : Nat

/-- The answer of a store call, and the store after it. -/
abbrev Answer (α : Type) := Except StoreError α × Store

namespace Store

/-- The store without documents. -/
def empty : Store := ⟨[], [], [], [], [], 0, 0, 0⟩

instance : Inhabited Store := ⟨empty⟩

/-! ### Collections -/

/-- The first entry of a table at a path. -/
def lookup {α : Type} (path : Path) : List (Path × α) → Option α
  | [] => none
  | (p, a) :: rest => if p = path then some a else lookup path rest

/-- The collection at a path, empty if nothing was ever written there. -/
def collection (s : Store) (path : Path) : Collection :=
  (lookup path s.collections).getD .empty

/-- Replaces an entry of a table, or adds one. -/
def replaceEntry {α : Type} (path : Path) (value : α) : List (Path × α) → List (Path × α)
  | [] => [(path, value)]
  | (p, a) :: rest => if p = path then (p, value) :: rest else (p, a) :: replaceEntry path value rest

/-- Replaces the collection at a path. -/
def put (s : Store) (path : Path) (c : Collection) : Store :=
  { s with collections := replaceEntry path c s.collections }

/-- The document at a reference. -/
def document? (s : Store) (d : DocumentRef) : Option Members :=
  (s.collection d.parent.path).get? d.id

/-- Stores a document at a reference. -/
def putDocument (s : Store) (d : DocumentRef) (data : Members) : Store :=
  s.put d.parent.path ((s.collection d.parent.path).insert d.id data)

theorem lookup_replaceEntry_self {α : Type} (path : Path) (value : α)
    (table : List (Path × α)) : lookup path (replaceEntry path value table) = some value := by
  induction table with
  | nil => simp [replaceEntry, lookup]
  | cons head rest ih =>
    rw [replaceEntry]
    split
    · rename_i h
      simp [lookup, h]
    · rename_i h
      simp [lookup, h, ih]

theorem lookup_replaceEntry_of_ne {α : Type} {path other : Path} (h : other ≠ path) (value : α)
    (table : List (Path × α)) :
    lookup other (replaceEntry path value table) = lookup other table := by
  induction table with
  | nil => simp [replaceEntry, lookup, Ne.symm h]
  | cons head rest ih =>
    rw [replaceEntry]
    split
    · rename_i hp
      simp [lookup, hp, Ne.symm h]
    · simp [lookup, ih]

theorem collection_put_self (s : Store) (path : Path) (c : Collection) :
    (s.put path c).collection path = c := by
  simp [collection, put, lookup_replaceEntry_self]

theorem collection_put_of_ne (s : Store) {path other : Path} (h : other ≠ path)
    (c : Collection) : (s.put path c).collection other = s.collection other := by
  simp [collection, put, lookup_replaceEntry_of_ne h]

/-! ### Seeds -/

/-- The documents of a seeded collection. -/
def seedDocuments (path : String) : List (String × Json) → Except StoreError Collection :=
  go .empty
where
  /-- Adds the documents that are left. -/
  go (c : Collection) : List (String × Json) → Except StoreError Collection
    | [] => .ok c
    | (id, .object data) :: rest => go (c.insert id data) rest
    | (id, _) :: _ =>
      .error (.invalidArgument ("seed document `" ++ path ++ "/" ++ id ++ "` must be an object"))

/-- Adds seeded collections one after the other. -/
def seedCollections (s : Store) : List (String × Json) → Except StoreError Store
  | [] => .ok s
  | (path, .object documents) :: rest => do
    let c ← seedDocuments path documents
    seedCollections (s.put (.parse path) c) rest
  | (path, _) :: _ =>
    .error (.invalidArgument
      ("seed collection `" ++ path ++ "` must map document ids to objects"))

/-- The store that holds a seed: an object of collection paths, each with an object of ids and
documents. -/
def ofSeed : Json → Except StoreError Store
  | .object collections => seedCollections empty collections
  | _ => .error (.invalidArgument "seed must map collection paths to documents")

/-! ### Listeners -/

/-- Makes the next call fail that no earlier failure is waiting for. -/
def failNext (s : Store) (e : StoreError) : Store := { s with failures := s.failures ++ [e] }

/-- Runs a call, unless a failure is waiting: then that is the answer. -/
def guarded {α : Type} (run : Store → Answer α) (s : Store) : Answer α :=
  match s.failures with
  | [] => run s
  | e :: rest => (.error e, { s with failures := rest })

/-- Tells the affected listeners of a write to a document. -/
def notify (s : Store) (d : DocumentRef) : Store :=
  { s with mail := s.mail ++
      (s.listeners.filter (·.target.isAffectedBy d)).map fun l => (l.mailbox, .ok l.target) }

/-- Tells every listener that it failed. -/
def failListeners (s : Store) (e : StoreError) : Store :=
  { s with mail := s.mail ++ s.listeners.map fun l => (l.mailbox, .error e) }

/-- The notices that wait in a mailbox, in order. -/
def notices (s : Store) (box : Mailbox) : List Notice :=
  (s.mail.filter (·.1 == box)).map (·.2)

/-- Empties a mailbox. -/
def clear (s : Store) (box : Mailbox) : Store :=
  { s with mail := s.mail.filter (·.1 != box) }

/-- The mail without the first notice of a mailbox, and that notice. -/
def takeFirst (box : Mailbox) :
    List (Mailbox × Notice) → Option (Notice × List (Mailbox × Notice))
  | [] => none
  | (b, notice) :: rest =>
    if b = box then some (notice, rest)
    else (takeFirst box rest).map fun (first, left) => (first, (b, notice) :: left)

/-- Takes the first notice out of a mailbox. -/
def receive? (s : Store) (box : Mailbox) : Option (Notice × Store) :=
  (takeFirst box s.mail).map fun (notice, mail) => (notice, { s with mail })

/-- Detaches a listener. -/
def detach (s : Store) (id : Nat) : Store :=
  { s with listeners := s.listeners.filter (·.id != id), detached := s.detached + 1 }

/-- Detaches listeners one after the other. -/
def detachAll (s : Store) (ids : List Nat) : Store := ids.foldl detach s

/-- A mailbox gets one notice for each of its listeners that a write affects. -/
theorem notices_notify (s : Store) (d : DocumentRef) (box : Mailbox) :
    (s.notify d).notices box = s.notices box ++
      ((s.listeners.filter (·.target.isAffectedBy d)).filter (·.mailbox == box)).map
        fun l => .ok l.target := by
  simp only [notices, notify, List.filter_append, List.map_append, List.filter_map, List.map_map]
  rfl

/-! ### Calls -/

/-- The snapshot of a document with these data. -/
def snapshot (s : Store) (d : DocumentRef) (data : Option Members) (source : Source) : Snapshot :=
  ⟨d, data, (lookup d.path s.pending).getD [], source == .cache⟩

/-- Marks a field of a document as holding a value that is not confirmed yet. -/
def setPending (s : Store) (d : DocumentRef) (field : String) (v : PendingValue) : Store :=
  let values := (lookup d.path s.pending).getD []
  { s with pending := replaceEntry d.path (values.insert field v) s.pending }

/-- Reads a document. -/
def getDocument (d : DocumentRef) (source : Source) : Store → Answer Snapshot :=
  guarded fun s => (.ok (s.snapshot d (s.document? d) source), s)

/-- Reads the documents that a query selects. -/
def getQuery (q : Query) (source : Source) : Store → Answer (List Snapshot) :=
  guarded fun s =>
    (q.evaluate (s.collection q.collection.path)).map
        (·.map fun (id, data) => s.snapshot (q.collection.doc id) (some data) source) |>
      (·, s)

/-- The id that is the `n`-th to be generated: twenty digits. -/
def generatedId (n : Nat) : String := String.ofList ((Nat.toDigits 10 n).leftpad 20 '0')

/-- Adds a document under a new id. -/
def add (c : CollectionRef) (data : Members) : Store → Answer DocumentRef :=
  guarded fun s =>
    let n := s.generated + 1
    let id := generatedId n
    let s := { s with generated := n }
    let s := s.put c.path ((s.collection c.path).insert id data)
    (.ok (c.doc id), s.notify (c.doc id))

/-- Writes the listed fields of `data` into `current`, up to the first one that `data` lacks. -/
def writeFields (data : Members) : List String → Members → Members × Option String
  | [], current => (current, none)
  | path :: rest, current =>
    match data.read path with
    | some v => writeFields data rest (current.write path v)
    | none => (current, some path)

/-- Writes a whole document. When a listed field is missing from the data, the ones before it are
written and nobody is told. -/
def set (d : DocumentRef) (data : Members) (mode : WriteMode) : Store → Answer Unit :=
  guarded fun s =>
    let current := (s.document? d).getD []
    match mode with
    | .replace => (.ok (), (s.putDocument d data).notify d)
    | .merge => (.ok (), (s.putDocument d (Json.mergeMembers data current)).notify d)
    | .fields paths =>
      match writeFields data paths current with
      | (written, none) => (.ok (), (s.putDocument d written).notify d)
      | (written, some path) =>
        (.error (.invalidArgument
          ("field `" ++ path ++ "` is listed in mergeFields but missing from the data")),
          s.putDocument d written)

/-- Writes fields of an existing document. -/
def update (d : DocumentRef) (data : Members) : Store → Answer Unit :=
  guarded fun s =>
    match s.document? d with
    | none => (.error (.notFound ("no document to update: " ++ d.toString)), s)
    | some current =>
      let written := data.foldl (fun acc (path, v) => Members.write path v acc) current
      (.ok (), (s.putDocument d written).notify d)

/-- Deletes a document. One that does not exist is deleted in silence. -/
def delete (d : DocumentRef) : Store → Answer Unit :=
  guarded fun s =>
    match s.document? d with
    | none => (.ok (), s)
    | some _ =>
      (.ok (), (s.put d.parent.path ((s.collection d.parent.path).erase d.id)).notify d)

/-- Attaches a listener that puts its notices into a mailbox; the answer is its id. -/
def listen (target : ListenTarget) (box : Mailbox) : Store → Answer Nat :=
  guarded fun s =>
    let id := s.nextListener
    (.ok id, { s with listeners := s.listeners ++ [⟨id, target, box⟩], nextListener := id + 1 })

end Store

end LiveDocs
