import LiveDocs.Proofs.Pass.Reading

/-!
# Where mutations write

A mutation makes one write, to the reference that it aims at, and then at most reads the document
back. If its path leads to a collection, a type other than `add` aims at the document that the
collection makes of the payload's `id`. That document lies in the collection, and has the id, only
if the id is a single segment: an id with a slash leads further down, and an empty one stays where
the collection is. Main statements: `document?_perform`, what a mutation does not aim at is as
before; `destination_of_target`, where a mutation goes; `staysIn_iff`, when it stays in its
collection; `document?_of_nested_id`, one that does not.
-/

namespace LiveDocs

/-! ### What a write covers -/

/-- The documents that a write to a reference may change: the document itself, or any of the
collection that one is added to. -/
def Reference.Covers : Reference → DocumentRef → Prop
  | collection c, d => d.parent = c
  | document e, d => d = e

/-- A request changes no document that it does not write to, whatever it comes to. -/
theorem Request.document?_run_of_not_covers {α : Type} {r : Request α} {d : DocumentRef}
    (h : ∀ reference, r.written? = some reference → ¬ reference.Covers d) (s : Store) :
    (r.run s).2.document? d = s.document? d := by
  cases hs : s.failures with
  | cons e rest =>
    rw [run_of_failures_cons r hs]
    rfl
  | nil =>
    cases r with
    | getDocument e source => rw [run_getDocument hs]
    | getQuery q source => rw [run_getQuery hs]
    | add c data =>
      -- the new document lies in the collection, and the other one does not
      have hsegment := Store.isSegment_generatedId (s.generated + 1)
      have hparent := c.parent_doc hsegment
      have hne : d ≠ c.doc (Store.generatedId (s.generated + 1)) := fun heq =>
        h _ rfl (heq ▸ hparent)
      have hput :=
        Store.document?_putDocument_of_ne { s with generated := s.generated + 1 } hne data
      rw [Store.putDocument, hparent, c.id_doc hsegment] at hput
      rw [run, Store.add, Store.guarded_of_failures_nil hs]
      exact hput
    | set e data mode =>
      have hne : d ≠ e := h _ rfl
      rw [run, Store.set, Store.guarded_of_failures_nil hs]
      cases mode with
      | replace => exact Store.document?_putDocument_of_ne s hne _
      | merge => exact Store.document?_putDocument_of_ne s hne _
      | fields paths =>
        simp only
        split <;> exact Store.document?_putDocument_of_ne s hne _
    | update e data =>
      have hne : d ≠ e := h _ rfl
      rw [run, Store.update, Store.guarded_of_failures_nil hs]
      split
      · rfl
      · exact Store.document?_putDocument_of_ne s hne _
    | delete e =>
      have hne : d ≠ e := h _ rfl
      rw [run, Store.delete, Store.guarded_of_failures_nil hs]
      split
      · rfl
      · exact Store.document?_put_of_ne hne fun _ hid => Collection.get?_erase_of_ne _ hid
    | listen target box =>
      rw [run, Store.listen, Store.guarded_of_failures_nil hs]
      rfl

namespace Mutation

variable {f : Field} {plan : MutationPlan} {vars : Variables} {type : MutationType}
  {data : Members} {id : String} {c : CollectionRef} {d : DocumentRef}

/-- What a mutation does not aim at is as before, whatever the mutation comes to. -/
theorem document?_perform
    (h : ∀ reference, Aims f plan vars reference → ¬ reference.Covers d) (state : PassState) :
    ((perform f plan vars).run state).2.client.store.document? d =
      state.client.store.document? d := by
  have hmakes : Pass.Makes (fun _ r => r.Reads ∨ ∃ reference, Aims f plan vars reference ∧
      r.written? = some reference) (perform f plan vars) :=
    makes_perform (fun _ _ hr => .inl hr) fun reference haims _ _ hr => .inr ⟨reference, haims, hr⟩
  refine Pass.client_run (R := fun c c' => c'.store.document? d = c.store.document? d)
    (fun _ => rfl) (fun h h' => h'.trans h) (fun {α} r hr c => ?_) hmakes state
  rcases c.store_perform r.call r.run with hstore | hstore
  · rw [hstore]
  · rw [hstore]
    refine r.document?_run_of_not_covers (fun reference hwritten => ?_) c.store
    rcases hr with hreads | ⟨reference', haims, hwritten'⟩
    · cases r with
      | getDocument | getQuery => cases hwritten
      | add | set | update | delete | listen => exact hreads.elim
    · obtain rfl : reference' = reference := Option.some.inj (hwritten'.symm.trans hwritten)
      exact h reference' haims

/-! ### Where mutations go -/

/-- Where a mutation of a type goes by its path and its payload. -/
inductive Destination (f : Field) (plan : MutationPlan) (data : Members) :
    MutationType → Reference → Prop where
  /-- An `add` goes to the collection that its path leads to. -/
  | collection {c : CollectionRef}
      (hpath : resolveReference (plan.path.getD f.name) plan.rootKind = .ok (.collection c)) :
      Destination f plan data .add (.collection c)
  /-- Any other type goes to the document that its path leads to. -/
  | document {type : MutationType} {d : DocumentRef} (hadd : type ≠ .add)
      (hpath : resolveReference (plan.path.getD f.name) plan.rootKind = .ok (.document d)) :
      Destination f plan data type (.document d)
  /-- If the path leads to a collection, it goes to the document that the payload's id names. -/
  | narrowed {type : MutationType} {c : CollectionRef} {id : String} (hadd : type ≠ .add)
      (hpath : resolveReference (plan.path.getD f.name) plan.rootKind = .ok (.collection c))
      (hid : Bindings.get? "id" data = some (.string id)) :
      Destination f plan data type (.document (c.doc id))

/-- A target is where the mutation goes. -/
theorem destination_of_target {reference : Reference}
    (h : target f plan type data = .ok reference) :
    Destination f plan data type reference := by
  rw [target] at h
  obtain ⟨resolved, hpath, h⟩ := exists_of_bind_ok h
  obtain ⟨narrowed, hnarrow, h⟩ := exists_of_bind_ok h
  obtain ⟨fits, hfits, h⟩ := exists_of_bind_ok h
  obtain rfl := Except.ok.inj h
  replace hpath := eq_ok_of_mapError hpath
  replace hnarrow := eq_ok_of_mapError hnarrow
  have hkind := checkFits_eq_ok_iff.1 (eq_ok_of_mapError hfits)
  cases resolved with
  | document d =>
    obtain rfl := Except.ok.inj hnarrow
    exact .document (fun hadd => by cases hkind.1 hadd) hpath
  | collection c =>
    rw [narrow] at hnarrow
    split at hnarrow
    · rename_i hadd
      obtain rfl := hadd
      obtain rfl := Except.ok.inj hnarrow
      exact .collection hpath
    · rename_i hadd
      split at hnarrow
      · rename_i id hid
        obtain rfl := Except.ok.inj hnarrow
        exact .narrowed hadd hpath (Json.bind_string?_eq_some_iff.1 hid)
      · cases hnarrow

/-! ### Mutations aimed at a collection -/

/-- The mutation is not an `add`, and its payload names a document by a string. -/
structure Narrows (f : Field) (plan : MutationPlan) (vars : Variables) (type : MutationType)
    (data : Members) (id : String) : Prop where
  planned : plan.type = some type
  ne_add : type ≠ .add
  given : payload f plan vars = .ok data
  named : Bindings.get? "id" data = some (.string id)

theorem Narrows.target (h : Narrows f plan vars type data id)
    (hc : resolveReference (plan.path.getD f.name) plan.rootKind = .ok (.collection c)) :
    target f plan type data = .ok (.document (c.doc id)) := by
  have hnarrow : narrow type data (.collection c) = .ok (.document (c.doc id)) := by
    rw [narrow, if_neg h.ne_add, h.named]
    rfl
  have hfits : checkFits type (.document (c.doc id)) = .ok () := if_neg h.ne_add
  rw [Mutation.target, hc]
  change ((narrow type data (.collection c)).mapError EngineError.config >>= _) = _
  rw [hnarrow]
  change ((checkFits type (.document (c.doc id))).mapError EngineError.invalidMutation >>= _) = _
  rw [hfits]
  rfl

/-- A mutation whose path leads to a collection aims at the collection if it adds, and else at the
document that the collection makes of the id. -/
theorem Aims.cases {reference : Reference} (h : Aims f plan vars reference)
    (hc : resolveReference (plan.path.getD f.name) plan.rootKind = .ok (.collection c)) :
    reference = .collection c ∨
      ∃ type data id, Narrows f plan vars type data id ∧ reference = .document (c.doc id) := by
  obtain ⟨type, data, htype, hdata, htarget⟩ := h
  rcases destination_of_target htarget with hpath | ⟨-, hpath⟩ | ⟨hadd, hpath, hid⟩
  · exact .inl (Except.ok.inj (hpath.symm.trans hc))
  · cases hpath.symm.trans hc
  · obtain rfl := Reference.collection.inj (Except.ok.inj (hpath.symm.trans hc))
    exact .inr ⟨type, data, _, ⟨htype, hadd, hdata, hid⟩, rfl⟩

/-- A mutation that narrows aims at nothing but the document that it narrows to. -/
theorem Aims.eq_of_narrows {reference : Reference} (h : Aims f plan vars reference)
    (hnarrows : Narrows f plan vars type data id)
    (hc : resolveReference (plan.path.getD f.name) plan.rootKind = .ok (.collection c)) :
    reference = .document (c.doc id) := by
  obtain ⟨type', data', htype, hdata, htarget⟩ := h
  obtain rfl : type = type' := Option.some.inj (hnarrows.planned.symm.trans htype)
  obtain rfl : data = data' := Except.ok.inj (hnarrows.given.symm.trans hdata)
  exact Except.ok.inj (htarget.symm.trans (hnarrows.target hc))

/-- The request by which a mutation writes a document. -/
def request? (plan : MutationPlan) (data : Members) (d : DocumentRef) :
    MutationType → Option (Request Unit)
  | .add => none
  | .set => some (.set d data (writeMode plan))
  | .update => some (.update d data)
  | .delete => some (.delete d)

/-- The request tells which document it writes. -/
theorem eq_of_call_request? {e : DocumentRef} {r r' : Request Unit}
    (hr : request? plan data d type = some r) (hr' : request? plan data e type = some r')
    (h : r.call = r'.call) : d = e := by
  cases type with
  | add => cases hr
  | set | update | delete =>
    obtain rfl := Option.some.inj hr
    obtain rfl := Option.some.inj hr'
    injection h

/-- What a mutation does after its write: it reads the document back, unless that was deleted. -/
def readBack (f : Field) (plan : MutationPlan) (d : DocumentRef) : MutationType → Pass Resolved
  | .delete => pure (.deleted (Text.typename plan.typename f.name) d.path.last)
  | .add | .set | .update => do
    return .entity ⟨Text.typename plan.typename f.name, ← Pass.getDocument d .default⟩

theorem makes_readBack (f : Field) (plan : MutationPlan) (d : DocumentRef) (type : MutationType) :
    Pass.Makes Requests.reads (readBack f plan d type) := by
  cases type with
  | delete => exact Pass.Makes.pure _
  | add | set | update =>
    exact (Pass.Makes.getDocument (fun _ _ h => h) d .default).bind fun _ => Pass.Makes.pure _

/-- The calls that reading back makes. -/
def followUp (type : MutationType) (d : DocumentRef) : List Call :=
  if type = .delete then [] else [.getDocument d .default]

theorem followUp_eq_or (type : MutationType) (d : DocumentRef) :
    followUp type d = [] ∨ followUp type d = [.getDocument d .default] := by
  rw [followUp]
  split
  · exact .inl rfl
  · exact .inr rfl

theorem calls_readBack (f : Field) (plan : MutationPlan) (d : DocumentRef) (type : MutationType)
    (state : PassState) : (readBack f plan d type).calls state = followUp type d := by
  have hread : Pass.Makes Requests.reads (Request.getDocument d .default).pass :=
    .request _ trivial
  cases type with
  | delete => exact List.drop_length (l := state.client.log)
  | add | set | update =>
    rcases hrun : (Request.getDocument d .default).pass.run state with ⟨e | found, state'⟩
    · exact (Pass.calls_bind_error hrun _).trans (Pass.calls_request _ state)
    · have hcalls := Pass.calls_bind_ok hread hrun
        (fun found => pure (Resolved.entity ⟨Text.typename plan.typename f.name, found⟩))
        (Pass.Makes.pure _)
      refine hcalls.trans ?_
      rw [Pass.calls_request]
      exact congrArg (_ :: ·) (List.drop_length (l := state'.client.log))

/-- A mutation that has a type, a payload and a target writes there, and then reads back what it
has written. -/
theorem perform_eq_of_target {reference : Reference} (htype : plan.type = some type)
    (hdata : payload f plan vars = .ok data) (htarget : target f plan type data = .ok reference) :
    perform f plan vars = write plan type data reference >>= fun
      | some d => do
        return .entity ⟨Text.typename plan.typename f.name, ← Pass.getDocument d .default⟩
      | none => pure (.deleted (Text.typename plan.typename f.name) reference.path.last) := by
  rw [perform, htype, hdata, Option.elim_some, Pass.ofConfig_ok_bind, Pass.ofConfig_ok_bind,
    htarget]
  exact Pass.ofExcept_ok_bind reference _

/-- A mutation that narrows makes its write, and then reads back. -/
theorem Narrows.perform_eq (h : Narrows f plan vars type data id)
    (hc : resolveReference (plan.path.getD f.name) plan.rootKind = .ok (.collection c)) :
    ∃ r, request? plan data (c.doc id) type = some r ∧
      perform f plan vars = r.pass >>= fun _ => readBack f plan (c.doc id) type := by
  cases type with
  | add => exact (h.ne_add rfl).elim
  | set | update | delete =>
    refine ⟨_, rfl, ?_⟩
    rw [perform_eq_of_target h.planned h.given (h.target hc), write, bind_assoc]
    simp only [pure_bind]
    rfl

/-- A mutation that narrows makes its write, and then at most reads the document back. -/
theorem Narrows.calls_perform (h : Narrows f plan vars type data id)
    (hc : resolveReference (plan.path.getD f.name) plan.rootKind = .ok (.collection c))
    (state : PassState) :
    ∃ r rest, request? plan data (c.doc id) type = some r ∧
      (perform f plan vars).calls state = r.call :: rest ∧
      (rest = [] ∨ rest = [.getDocument (c.doc id) .default]) := by
  obtain ⟨r, hr, hperform⟩ := h.perform_eq hc
  rw [hperform]
  rcases hrun : r.pass.run state with ⟨e | answer, state'⟩
  · refine ⟨r, [], hr, ?_, .inl rfl⟩
    rw [Pass.calls_bind_error hrun, Pass.calls_request]
  · refine ⟨r, followUp type (c.doc id), hr, ?_, followUp_eq_or ..⟩
    have hwrite : Pass.Makes (fun _ _ => True) r.pass := .request r trivial
    rw [Pass.calls_bind_ok hwrite hrun _ ((makes_readBack ..).mono fun _ _ _ => trivial),
      Pass.calls_request, calls_readBack]
    rfl

/-! ### Staying in the collection -/

/-- A mutation stays in a collection: whatever happens, every document elsewhere is as before, and a
type other than `add` writes the document of the collection whose id is the payload's, and no
other. -/
structure StaysIn (f : Field) (plan : MutationPlan) (vars : Variables) (c : CollectionRef) :
    Prop where
  outside : ∀ (state : PassState) (d : DocumentRef), d.parent ≠ c →
    ((perform f plan vars).run state).2.client.store.document? d = state.client.store.document? d
  inside : ∀ type data id, Narrows f plan vars type data id → ∀ state : PassState,
    ∃ d r rest, d.parent = c ∧ d.id = id ∧ request? plan data d type = some r ∧
      (perform f plan vars).calls state = r.call :: rest ∧
      (rest = [] ∨ rest = [.getDocument d .default]) ∧
      ∀ e ≠ d, ((perform f plan vars).run state).2.client.store.document? e =
        state.client.store.document? e

/-- A mutation aimed at a collection stays in it exactly if the id that narrows it, if any, is a
single segment. Only the root may also narrow by the empty id. -/
theorem staysIn_iff
    (hc : resolveReference (plan.path.getD f.name) plan.rootKind = .ok (.collection c)) :
    StaysIn f plan vars c ↔ ∀ type data id, Narrows f plan vars type data id →
      IsSegment id ∨ c.path.isRoot = true ∧ id = "" := by
  constructor
  · intro h type data id hnarrows
    -- the document that is written shows in the first call, on any state
    let state : PassState := ⟨.ofStore .empty [], []⟩
    obtain ⟨d, r, rest, hparent, hid, hr, hcalls, -, -⟩ := h.inside type data id hnarrows state
    obtain ⟨r', rest', hr', hcalls', -⟩ := hnarrows.calls_perform hc state
    have hcall : r.call = r'.call := (List.cons.inj (hcalls.symm.trans hcalls')).1
    obtain rfl := eq_of_call_request? hr hr' hcall
    exact CollectionRef.names_iff.1 ⟨hparent, hid⟩
  · intro h
    have hnames : ∀ type data id, Narrows f plan vars type data id → c.Names id :=
      fun type data id hnarrows => CollectionRef.names_iff.2 (h type data id hnarrows)
    refine ⟨fun state d hd => document?_perform (fun reference haims hcovers => ?_) state,
      fun type data id hnarrows state => ?_⟩
    · rcases haims.cases hc with rfl | ⟨type, data, id, hnarrows, rfl⟩
      · exact hd hcovers
      · obtain rfl : d = c.doc id := hcovers
        exact hd (hnames type data id hnarrows).1
    · obtain ⟨r, rest, hr, hcalls, hrest⟩ := hnarrows.calls_perform hc state
      obtain ⟨hparent, hid⟩ := hnames type data id hnarrows
      refine ⟨c.doc id, r, rest, hparent, hid, hr, hcalls, hrest, fun e he =>
        document?_perform (fun reference haims hcovers => ?_) state⟩
      obtain rfl := haims.eq_of_narrows hnarrows hc
      exact he hcovers

/-- The deletion of a user with this id. -/
def removal (id : String) : MutationPlan where
  path := some "users"
  rootKind := some .collection
  typename := none
  type := some .delete
  payload := some (.object [("id", .string id)])
  payloadName := "input"
  merge := false
  mergeFields := none

theorem staysIn_iff_removal :
    resolveReference "users" (some .collection) = .ok (.collection (.ofText "users")) ∧
    StaysIn (.leaf "removeUser") (removal "u1") [] (.ofText "users") := by
  have hc : resolveReference "users" (some .collection) =
      .ok (.collection (.ofText "users")) := rfl
  refine ⟨hc, (@staysIn_iff (.leaf "removeUser") (removal "u1") [] _ hc).2
    fun type data id h => .inl ?_⟩
  obtain rfl : [("id", Json.string "u1")] = data := Except.ok.inj h.given
  obtain rfl : "u1" = id := Json.string.inj (Option.some.inj h.named)
  exact ⟨by decide, by decide⟩

/-- A deletion aimed at the users, of the id `u1/posts/p1`, deletes a post. -/
theorem document?_of_nested_id :
    let post := DocumentRef.ofText "users/u1/posts/p1"
    let store := Store.empty.putDocument post [("title", .string "Hello")]
    post.parent ≠ .ofText "users" ∧
    store.document? post = some [("title", .string "Hello")] ∧
    ((perform (.leaf "removeUser") (removal "u1/posts/p1") []).run
      ⟨.ofStore store [], []⟩).2.client.store.document? post = none ∧
    ¬ StaysIn (.leaf "removeUser") (removal "u1/posts/p1") [] (.ofText "users") := by
  intro post store
  have hparent : post.parent ≠ .ofText "users" := by decide
  have hbefore : store.document? post = some [("title", .string "Hello")] :=
    Store.document?_putDocument_self ..
  have hafter : ((perform (.leaf "removeUser") (removal "u1/posts/p1") []).run
      ⟨.ofStore store [], []⟩).2.client.store.document? post = none := rfl
  refine ⟨hparent, hbefore, hafter, ?_⟩
  intro h
  have heq := h.outside ⟨.ofStore store [], []⟩ post hparent
  rw [hafter] at heq
  cases heq.trans hbefore

end Mutation

end LiveDocs
