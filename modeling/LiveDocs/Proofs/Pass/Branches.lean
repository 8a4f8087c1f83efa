import LiveDocs.Proofs.Pass.Reading

/-!
# What branches are resolved to

A branch is resolved by its plan alone: a query gives a document or the documents of a collection, a
reference those of a collection of the parent, and a mutation the document that it wrote, or what is
left of one that it deleted. `Finds` lists these cases, each with the requests that are made and
their answers. Main statement: `finds_of_resolveBranch`, a branch that is resolved to something is
one of them.
-/

namespace LiveDocs

/-- Makes a request, and gives the answer and the client after it. -/
def Client.ask {α : Type} (c : Client) (r : Request α) : Except StoreError α × Client :=
  c.perform r.call r.run

/-- The type of mutation that a request performs. -/
def Request.mutationType? {α : Type} : Request α → Option MutationType
  | add _ _ => some .add
  | set _ _ _ => some .set
  | update _ _ => some .update
  | delete _ => some .delete
  | getDocument _ _ => none
  | getQuery _ _ => none
  | listen _ _ => none

/-- The fetch with which a plan follows a collection of the parent document. -/
def Plan.follows? : Plan → Option Fetch
  | ref fetch => some fetch
  | leaf _ => some {}
  | none => some {}
  | query _ _ => Option.none
  | mutation _ => Option.none

/-! ### Passes that come to something -/

namespace Pass

variable {α β : Type}

/-- A sequence that comes to something does so in its second part, after the first. -/
theorem exists_of_run_bind {p : Pass α} {f : α → Pass β} {state state' : PassState} {b : β}
    (h : (p >>= f).run state = (.ok b, state')) :
    ∃ a between, p.run state = (.ok a, between) ∧ (f a).run between = (.ok b, state') := by
  rcases hrun : p.run state with ⟨e | a, between⟩
  · rw [run_bind_error hrun] at h
    cases h
  · rw [run_bind_ok hrun] at h
    exact ⟨a, between, rfl, h⟩

/-- A result that needs no store leaves everything as it is. -/
theorem eq_of_run_ofExcept {r : Except EngineError α} {state state' : PassState} {a : α}
    (h : (Pass.ofExcept r).run state = (.ok a, state')) : r = .ok a ∧ state = state' :=
  Prod.mk.inj h

theorem eq_of_run_pure {state state' : PassState} {a b : α}
    (h : (pure a : Pass α).run state = (.ok b, state')) : a = b ∧ state = state' := by
  obtain ⟨hvalue, hstate⟩ := Prod.mk.inj h
  exact ⟨Except.ok.inj hvalue, hstate⟩

theorem eq_of_run_ofConfig {r : Except ConfigError α} {state state' : PassState} {a : α}
    (h : (Pass.ofConfig r).run state = (.ok a, state')) : r = .ok a ∧ state = state' := by
  obtain ⟨hr, hstate⟩ := Prod.mk.inj h
  refine ⟨?_, hstate⟩
  cases r with
  | error e => cases hr
  | ok b => exact congrArg Except.ok (Except.ok.inj hr)

/-- A request that is answered is asked of the client. -/
theorem ask_of_run {r : Request α} {state state' : PassState} {a : α}
    (h : r.pass.run state = (.ok a, state')) : state.client.ask r = (.ok a, state'.client) := by
  rw [run_request] at h
  obtain ⟨hanswer, rfl⟩ := Prod.mk.inj h
  refine Prod.ext ?_ rfl
  change (state.client.perform r.call r.run).1 = _
  rcases hperform : (state.client.perform r.call r.run).1 with e | b
  · rw [hperform] at hanswer
    cases hanswer
  · rw [hperform] at hanswer
    exact congrArg Except.ok (Except.ok.inj hanswer)

theorem run_eq_ask (r : Request α) (state : PassState) :
    r.pass.run state = ((state.client.ask r).1.mapError .store,
      { state with client := (state.client.ask r).2 }) := rfl

theorem run_of_ask {r : Request α} {state : PassState} {a : α} {c : Client}
    (h : state.client.ask r = (.ok a, c)) :
    r.pass.run state = (.ok a, { state with client := c }) := by
  rw [run_eq_ask, h]
  rfl

/-- A request that is refused ends the pass. -/
theorem run_of_refused {r : Request α} {state : PassState} {e : StoreError} {c : Client}
    (h : state.client.ask r = (.error e, c)) :
    r.pass.run state = (.error (.store e), { state with client := c }) := by
  rw [run_eq_ask, h]
  rfl

/-- Some targets with one more behind them, unless it is among them already. -/
def note (targets : List ListenTarget) (target : ListenTarget) : List ListenTarget :=
  if targets.any (·.same target) then targets else targets ++ [target]

/-- Recording a target first does nothing else. -/
theorem exists_of_run_record {b : Bool} {target : ListenTarget} {q : Pass α}
    {state state' : PassState} {a : α}
    (h : (do
      if b then record target
      q).run state = (.ok a, state')) :
    ∃ between : PassState, between.client = state.client ∧
      between.targets = (if b then note state.targets target else state.targets) ∧
      q.run between = (.ok a, state') := by
  cases b with
  | false => exact ⟨state, rfl, rfl, h⟩
  | true => exact ⟨{ state with targets := note state.targets target }, rfl, rfl, h⟩

end Pass

/-! ### Branches -/

namespace Executor

/-- What a branch is resolved to by its plan, and the client after that. -/
inductive Finds (vars : Variables) (parent : Option Entity) (f : Field) (exports : Exports) :
    Plan → Client → Resolved → Client → Prop where
  /-- A query for a document gives the document. -/
  | document {rootKind : Option ReferenceKind} {fetch : Fetch} {d : DocumentRef}
      {snapshot : Snapshot} {c c' : Client}
      (hreference : resolveReference (fetch.path.getD f.name) rootKind = .ok (.document d))
      (hread : c.ask (.getDocument d fetch.source) = (.ok snapshot, c')) :
      Finds vars parent f exports (.query rootKind fetch) c
        (.entity ⟨Text.typename fetch.type f.name, snapshot⟩) c'
  /-- A query for a collection gives the documents that it selects, in their order. -/
  | collection {rootKind : Option ReferenceKind} {fetch : Fetch} {collection : CollectionRef}
      {query : Query} {snapshots : List Snapshot} {c c' : Client}
      (hreference : resolveReference (fetch.path.getD f.name) rootKind =
        .ok (.collection collection))
      (hquery : Query.build ⟨collection, exports⟩ fetch.arguments = .ok query)
      (hread : c.ask (.getQuery query fetch.source) = (.ok snapshots, c')) :
      Finds vars parent f exports (.query rootKind fetch) c
        (.entities (snapshots.map (⟨Text.typename fetch.type f.name, ·⟩))) c'
  /-- A reference, and a field without a fetch of its own, gives documents of a collection of the
  parent. -/
  | followed {plan : Plan} {fetch : Fetch} {entity : Entity} {query : Query}
      {snapshots : List Snapshot} {c c' : Client} (hplan : plan.follows? = some fetch)
      (hparent : parent = some entity)
      (hquery : Query.build
        ⟨entity.snapshot.reference.collection (fetch.path.getD f.name), exports⟩ fetch.arguments =
          .ok query)
      (hread : c.ask (.getQuery query fetch.source) = (.ok snapshots, c')) :
      Finds vars parent f exports plan c
        (.entities (snapshots.map (⟨Text.typename fetch.type f.name, ·⟩))) c'
  /-- A mutation other than a deletion gives the document that it wrote, read back. -/
  | written {plan : MutationPlan} {type : MutationType} {α : Type} {r : Request α} {a : α}
      {d : DocumentRef} {snapshot : Snapshot} {c between c' : Client}
      (htype : plan.type = some type) (hdelete : type ≠ .delete)
      (hrequest : r.mutationType? = some type) (hwrite : c.ask r = (.ok a, between))
      (hwrote : r.wrote? a = some d)
      (hread : between.ask (.getDocument d .default) = (.ok snapshot, c')) :
      Finds vars parent f exports (.mutation plan) c
        (.entity ⟨Text.typename plan.typename f.name, snapshot⟩) c'
  /-- A deletion gives the id of the document. -/
  | deleted {plan : MutationPlan} {d : DocumentRef} {c c' : Client}
      (htype : plan.type = some .delete) (hdelete : c.ask (.delete d) = (.ok (), c')) :
      Finds vars parent f exports (.mutation plan) c
        (.deleted (Text.typename plan.typename f.name) d.id) c'

variable {vars : Variables} {parent : Option Entity} {f : Field} {exports : Exports} {plan : Plan}
  {state state' : PassState} {resolved : Resolved}

/-- A collection is fetched by one query, which is recorded first if the fetch asks for updates. -/
theorem exists_of_fetchCollection {collection : CollectionRef} {fetch : Fetch} {typename : String}
    (h : (fetchCollection collection fetch typename exports).run state = (.ok resolved, state')) :
    ∃ query snapshots, Query.build ⟨collection, exports⟩ fetch.arguments = .ok query ∧
      state.client.ask (.getQuery query fetch.source) = (.ok snapshots, state'.client) ∧
      state'.targets =
        (if fetch.subscribe then Pass.note state.targets (.query query) else state.targets) ∧
      resolved = .entities (snapshots.map (⟨typename, ·⟩)) := by
  obtain ⟨query, between, hconfig, h⟩ := Pass.exists_of_run_bind h
  obtain ⟨hquery, rfl⟩ := Pass.eq_of_run_ofConfig hconfig
  obtain ⟨listening, hclient, htargets, h⟩ := Pass.exists_of_run_record h
  obtain ⟨snapshots, between, hread, h⟩ := Pass.exists_of_run_bind h
  obtain ⟨rfl, rfl⟩ := Pass.eq_of_run_pure h
  have hkept : between.targets = listening.targets :=
    congrArg (fun r => r.2.targets) hread.symm
  exact ⟨query, snapshots, hquery, hclient ▸ Pass.ask_of_run (r := .getQuery query fetch.source)
    hread, hkept.trans htargets, rfl⟩

/-- A document is fetched by one read, and recorded first likewise. -/
theorem exists_of_fetchDocument {d : DocumentRef} {fetch : Fetch} {typename : String}
    (h : (fetchDocument d fetch typename).run state = (.ok resolved, state')) :
    ∃ snapshot, state.client.ask (.getDocument d fetch.source) = (.ok snapshot, state'.client) ∧
      state'.targets =
        (if fetch.subscribe then Pass.note state.targets (.document d) else state.targets) ∧
      resolved = .entity ⟨typename, snapshot⟩ := by
  obtain ⟨listening, hclient, htargets, h⟩ := Pass.exists_of_run_record h
  obtain ⟨snapshot, between, hread, h⟩ := Pass.exists_of_run_bind h
  obtain ⟨rfl, rfl⟩ := Pass.eq_of_run_pure h
  have hkept : between.targets = listening.targets :=
    congrArg (fun r => r.2.targets) hread.symm
  exact ⟨snapshot, hclient ▸ Pass.ask_of_run (r := .getDocument d fetch.source) hread,
    hkept.trans htargets, rfl⟩

theorem finds_of_follow {fetch : Fetch} (hplan : plan.follows? = some fetch)
    (h : (follow f fetch parent exports).run state = (.ok resolved, state')) :
    Finds vars parent f exports plan state.client resolved state'.client := by
  cases parent with
  | none => cases h
  | some entity =>
    obtain ⟨query, snapshots, hquery, hread, -, rfl⟩ := exists_of_fetchCollection h
    exact .followed hplan rfl hquery hread

theorem finds_of_query {rootKind : Option ReferenceKind} {fetch : Fetch}
    (h : (resolveBranch vars parent f exports (.query rootKind fetch)).run state =
      (.ok resolved, state')) :
    Finds vars parent f exports (.query rootKind fetch) state.client resolved state'.client := by
  obtain ⟨reference, between, hconfig, h⟩ := Pass.exists_of_run_bind h
  obtain ⟨hreference, rfl⟩ := Pass.eq_of_run_ofConfig hconfig
  cases reference with
  | collection collection =>
    obtain ⟨query, snapshots, hquery, hread, -, rfl⟩ := exists_of_fetchCollection h
    exact .collection hreference hquery hread
  | document d =>
    obtain ⟨snapshot, hread, -, rfl⟩ := exists_of_fetchDocument h
    exact .document hreference hread

/-- The write of a mutation: one request of its type, and the document to read back unless it is a
deletion. -/
theorem exists_of_write {mutation : MutationPlan} {type : MutationType} {data : Members}
    {reference : Reference} (hfits : type = .add ↔ reference.kind = .collection)
    {written : Option DocumentRef}
    (h : (Mutation.write mutation type data reference).run state = (.ok written, state')) :
    (type ≠ .delete ∧ ∃ (α : Type) (r : Request α) (a : α) (d : DocumentRef),
        r.mutationType? = some type ∧ state.client.ask r = (.ok a, state'.client) ∧
          r.wrote? a = some d ∧ written = some d) ∨
      (type = .delete ∧ ∃ d, reference = .document d ∧
        state.client.ask (.delete d) = (.ok (), state'.client) ∧ written = none) := by
  cases reference with
  | collection collection =>
    obtain rfl : type = .add := hfits.2 rfl
    rw [Mutation.write, map_eq_pure_bind] at h
    obtain ⟨d, between, hadd, h⟩ := Pass.exists_of_run_bind h
    obtain ⟨rfl, rfl⟩ := Pass.eq_of_run_pure h
    exact .inl ⟨by decide, _, .add collection data, d, d, rfl,
      Pass.ask_of_run (r := .add collection data) hadd, rfl, rfl⟩
  | document d =>
    cases type with
    | add => cases hfits.1 rfl
    | set =>
      obtain ⟨u, between, hset, h⟩ := Pass.exists_of_run_bind h
      obtain ⟨rfl, rfl⟩ := Pass.eq_of_run_pure h
      exact .inl ⟨by decide, _, .set d data (Mutation.writeMode mutation), u, d, rfl,
        Pass.ask_of_run (r := .set d data (Mutation.writeMode mutation)) hset, rfl,
        rfl⟩
    | update =>
      obtain ⟨u, between, hupdate, h⟩ := Pass.exists_of_run_bind h
      obtain ⟨rfl, rfl⟩ := Pass.eq_of_run_pure h
      exact .inl ⟨by decide, _, .update d data, u, d, rfl,
        Pass.ask_of_run (r := .update d data) hupdate, rfl, rfl⟩
    | delete =>
      obtain ⟨u, between, hdelete, h⟩ := Pass.exists_of_run_bind h
      obtain ⟨rfl, rfl⟩ := Pass.eq_of_run_pure h
      exact .inr ⟨rfl, d, rfl, Pass.ask_of_run (r := .delete d) hdelete,
        rfl⟩

/-- A mutation that comes to something has a type, a payload and a target that fits, and writes
there; then it reads the document back, unless it was deleted. -/
theorem exists_of_perform {mutation : MutationPlan}
    (h : (Mutation.perform f mutation vars).run state = (.ok resolved, state')) :
    ∃ type data reference written between, mutation.type = some type ∧
      Mutation.payload f mutation vars = .ok data ∧
      Mutation.target f mutation type data = .ok reference ∧
      (Mutation.write mutation type data reference).run state = (.ok written, between) ∧
      ((∃ d snapshot, written = some d ∧
          between.client.ask (.getDocument d .default) = (.ok snapshot, state'.client) ∧
          resolved = .entity ⟨Text.typename mutation.typename f.name, snapshot⟩) ∨
        (written = none ∧ state' = between ∧
          resolved = .deleted (Text.typename mutation.typename f.name) reference.path.last)) := by
  rw [Mutation.perform] at h
  obtain ⟨type, between, hconfig, h⟩ := Pass.exists_of_run_bind h
  obtain ⟨htype, rfl⟩ := Pass.eq_of_run_ofConfig hconfig
  obtain ⟨data, between, hconfig, h⟩ := Pass.exists_of_run_bind h
  obtain ⟨hdata, rfl⟩ := Pass.eq_of_run_ofConfig hconfig
  obtain ⟨reference, between, hexcept, h⟩ := Pass.exists_of_run_bind h
  obtain ⟨htarget, rfl⟩ := Pass.eq_of_run_ofExcept hexcept
  obtain ⟨written, between, hwrite, h⟩ := Pass.exists_of_run_bind h
  have hplan : mutation.type = some type := by
    cases hplanned : mutation.type with
    | none =>
      rw [hplanned] at htype
      cases htype
    | some planned =>
      rw [hplanned] at htype
      exact congrArg some (Except.ok.inj htype)
  refine ⟨type, data, reference, written, between, hplan, hdata, htarget, hwrite, ?_⟩
  cases written with
  | some d =>
    obtain ⟨snapshot, last, hread, h⟩ := Pass.exists_of_run_bind h
    obtain ⟨rfl, rfl⟩ := Pass.eq_of_run_pure h
    exact .inl ⟨d, snapshot, rfl, Pass.ask_of_run (r := .getDocument d .default) hread, rfl⟩
  | none =>
    obtain ⟨rfl, rfl⟩ := Pass.eq_of_run_pure h
    exact .inr ⟨rfl, rfl, rfl⟩

theorem finds_of_mutation {mutation : MutationPlan}
    (h : (resolveBranch vars parent f exports (.mutation mutation)).run state =
      (.ok resolved, state')) :
    Finds vars parent f exports (.mutation mutation) state.client resolved state'.client := by
  obtain ⟨type, data, reference, written, between, hplan, -, htarget, hwrite, hafter⟩ :=
    exists_of_perform h
  rcases exists_of_write (Mutation.kind_of_target htarget) hwrite with
    ⟨hdelete, α, r, a, d, hrequest, hask, hwrote, rfl⟩ | ⟨rfl, d, rfl, hask, rfl⟩
  · obtain ⟨d', snapshot, hd, hread, rfl⟩ | ⟨hnone, -, -⟩ := hafter
    · obtain rfl := Option.some.inj hd
      exact .written hplan hdelete hrequest hask hwrote hread
    · cases hnone
  · obtain ⟨d', snapshot, hd, -, -⟩ | ⟨-, rfl, rfl⟩ := hafter
    · cases hd
    · exact .deleted hplan hask

/-- A branch that is resolved to something finds it. -/
theorem finds_of_resolveBranch
    (h : (resolveBranch vars parent f exports plan).run state = (.ok resolved, state')) :
    Finds vars parent f exports plan state.client resolved state'.client := by
  cases plan with
  | query rootKind fetch => exact finds_of_query h
  | mutation mutation => exact finds_of_mutation h
  | ref fetch => exact finds_of_follow rfl h
  | leaf leaf => exact finds_of_follow rfl h
  | none => exact finds_of_follow rfl h

end Executor

end LiveDocs
