import LiveDocs.Proofs.Json.FieldPath
import LiveDocs.Proofs.Pass.RootFields
import LiveDocs.Proofs.Pass.Shape

/-!
# What a mutation answers

A mutation that adds, sets or updates a document reads it back, and what is selected below the field
is completed for what was read. A query for the document completes the same selection for the same
document, so on the store that the mutation leaves it gives the same value. A dotted path takes a
step at each dot, so the query can name every document whose segments have none. Main statement:
`readsBack_of_execute`.
-/

namespace LiveDocs

/-! ### Paths without dots -/

namespace Text

theorem not_mem_joinChars {sep c : Char} (hne : c ≠ sep) {pieces : List (List Char)}
    (h : ∀ piece ∈ pieces, c ∉ piece) : c ∉ joinChars sep pieces := by
  induction pieces with
  | nil => exact List.not_mem_nil
  | cons piece rest ih =>
    obtain ⟨hpiece, hrest⟩ := List.forall_mem_cons.1 h
    cases rest with
    | nil => exact hpiece
    | cons next rest =>
      rw [joinChars, List.mem_append, List.mem_cons]
      exact not_or.2 ⟨hpiece, not_or.2 ⟨hne, ih hrest⟩⟩

end Text

/-- No segment of the path has a dot. -/
def Path.Dotless (p : Path) : Prop := ∀ s ∈ p.segments, '.' ∉ s.toList

theorem Path.Dotless.not_mem_toString {p : Path} (h : p.Dotless) : '.' ∉ p.toString.toList := by
  rw [toString, Text.join, String.toList_ofList]
  refine Text.not_mem_joinChars (by decide) fun piece hpiece => ?_
  obtain ⟨s, hs, rfl⟩ := List.mem_map.1 hpiece
  exact h s hs

/-- Without dots, the text of a document's path leads to the document. -/
theorem Reference.ofDotted_toString {d : DocumentRef} (h : d.path.Dotless) :
    ofDotted .document d.toString = .document d := by
  have hsplit : Text.split '.' d.toString = [d.toString] := Text.split_of_not_mem h.not_mem_toString
  rw [ofDotted, hsplit]
  exact congrArg (fun path => Reference.document ⟨path⟩) d.path.parse_toString

/-! ### Stores that were written to -/

/-- Nothing that was not told to fail begins to. -/
theorem Client.Quiet.perform_request {α : Type} {c : Client} (hc : c.Quiet) (r : Request α) :
    (c.perform r.call r.run).2.Quiet := by
  rw [hc.perform]
  refine ⟨hc.1, ?_⟩
  rw [r.failures_run, hc.2, List.tail_nil]

theorem Pass.quiet_run {allowed : Requests} {α : Type} {p : Pass α} (hp : Makes allowed p)
    {state : PassState} (h : state.client.Quiet) : (p.run state).2.client.Quiet :=
  client_run (R := fun c c' => c.Quiet → c'.Quiet) (fun _ h => h) (fun h h' hc => h' (h hc))
    (fun r _ _ hc => hc.perform_request r) hp state h

theorem Client.Quiet.ask {α : Type} {c c' : Client} (hc : c.Quiet) {r : Request α} {a : α}
    (h : c.ask r = (.ok a, c')) :
    r.run c.store = (.ok a, c'.store) ∧
      c' = { c with log := c.log ++ [r.call], store := c'.store } := by
  rw [Client.ask, hc.perform] at h
  obtain ⟨hanswer, rfl⟩ := Prod.mk.inj h
  exact ⟨Prod.ext hanswer rfl, rfl⟩

/-- A write other than a deletion leaves the document there. -/
theorem Store.exists_document?_of_wrote {α : Type} {s s' : Store} (hs : s.failures = [])
    {r : Request α} {a : α} (h : r.run s = (.ok a, s')) {d : DocumentRef}
    (hd : r.wrote? a = some d) (hdelete : r.mutationType? ≠ some .delete) :
    ∃ stored, s'.document? d = some stored := by
  have hstored : ∀ (s : Store) (data : Members),
      ((s.putDocument d data).notify d).document? d = some data := fun s data =>
    s.document?_putDocument_self d data
  cases r with
  | add c data =>
    rw [run_add hs] at h
    obtain ⟨hadded, rfl⟩ := Prod.mk.inj h
    obtain rfl : c.doc (generatedId (s.generated + 1)) = a := Except.ok.inj hadded
    obtain rfl := Option.some.inj hd
    exact ⟨data, hstored _ data⟩
  | set e data mode =>
    obtain rfl := Option.some.inj hd
    simp only [Request.run, Store.set, guarded_of_failures_nil hs] at h
    cases mode with
    | replace | merge =>
      obtain rfl := (Prod.mk.inj h).2
      exact ⟨_, hstored s _⟩
    | fields paths =>
      simp only at h
      split at h
      · obtain rfl := (Prod.mk.inj h).2
        exact ⟨_, hstored s _⟩
      · cases h
  | update e data =>
    obtain rfl := Option.some.inj hd
    simp only [Request.run, Store.update, guarded_of_failures_nil hs] at h
    split at h
    · cases h
    · obtain rfl := (Prod.mk.inj h).2
      exact ⟨_, hstored s _⟩
  | delete e => exact (hdelete rfl).elim
  | getDocument | getQuery | listen => cases hd

theorem Store.document?_of_replace {s s' : Store} (hs : s.failures = []) {d : DocumentRef}
    {data : Members} (h : (Request.set d data .replace).run s = (.ok (), s')) :
    s'.document? d = some data := by
  rw [Request.run, Store.set, guarded_of_failures_nil hs] at h
  obtain rfl := (Prod.mk.inj h).2
  exact s.document?_putDocument_self d data

namespace Executor

variable {config : Config} {vars : Variables} {f : Field} {plan : MutationPlan}
  {state state' : PassState}

theorem ask_of_write_set {data : Members} {reference : Reference} {d : DocumentRef}
    (hfits : MutationType.set = .add ↔ reference.kind = .collection)
    (h : (Mutation.write plan .set data reference).run state = (.ok (some d), state')) :
    state.client.ask (.set d data (Mutation.writeMode plan)) = (.ok (), state'.client) := by
  cases reference with
  | collection c => cases hfits.2 rfl
  | document e =>
    obtain ⟨u, between, hset, h⟩ := Pass.exists_of_run_bind h
    obtain ⟨hd, rfl⟩ := Pass.eq_of_run_pure h
    obtain rfl := Option.some.inj hd
    exact Pass.ask_of_run (r := .set e data (Mutation.writeMode plan)) hset

/-! ### The query for a document -/

/-- The query for a document in place of a field: it has the same name, the same key and the same
selection, and it reports the document under this typename if there is one. -/
def asQuery (f : Field) (typename : Option String) (d : DocumentRef) : Field :=
  .mk f.name f.label f.arguments
    [⟨"query", [("path", .literal (.string d.toString)),
        ("rootType", .literal (.string "document"))] ++
      (typename.map fun t => ("type", Argument.literal (.string t))).toList⟩] f.selection

/-- What the query for a document fetches. -/
def documentFetch (typename : Option String) (d : DocumentRef) : Fetch :=
  { path := some d.toString, type := typename }

theorem ofField_asQuery (f : Field) (typename : Option String) (d : DocumentRef) :
    Plan.ofField vars (asQuery f typename d) =
      .ok (.query (some .document) (documentFetch typename d)) := by
  have hkind : ReferenceKind.ofName? "document" = some .document :=
    ReferenceKind.ofName?_name .document
  cases typename <;>
    simp [Plan.ofField, Field.directive?, asQuery, Field.directives, Plan.ofQuery, documentFetch,
      Directive.string?, Directive.named?, Directive.flag, Directive.template?, Directive.value?,
      Directive.argument?, Bindings.get?, Argument.value?, QueryArguments.ofLookup, hkind, bind,
      Except.bind, pure, Except.pure]

/-- A query is prepared to the same selection. -/
theorem selection_prepareField_asQuery (typename : Option String) (d : DocumentRef) :
    (prepareField config (asQuery f typename d)).selection = (prepareField config f).selection := by
  cases f
  rw [prepareField, prepareField]
  split <;> rfl

theorem name_prepareField (f : Field) : (prepareField config f).name = f.name := by
  rw [prepareField]
  split
  · exact f.name_withTypename
  · rfl

/-- Preparing a field makes no mutations. -/
theorem ReadOnly.prepareField (h : ReadOnly vars f.selection) :
    ReadOnly vars (prepareField config f).selection := by
  rw [Executor.prepareField]
  split
  · intro g hg m hm
    cases hleaf : f.isLeaf with
    | true =>
      rw [Field.withTypename_of_isLeaf hleaf] at hg
      exact h g hg m hm
    | false =>
      rw [Field.selection_withTypename hleaf, Field.completeSelection_withTypenames] at hg
      obtain ⟨below, hbelow, hg⟩ := Field.mem_walkAll.1 hg
      rcases List.mem_append.1 hbelow with hbelow | hbelow
      · obtain ⟨below, hselected, rfl⟩ := List.mem_map.1 hbelow
        rcases Field.exists_of_mem_walk_withTypename hg with rfl | ⟨g', hg', rfl⟩
        · cases hm
        · rw [Field.ofField_withTypename] at hm
          exact h g' (Field.mem_walkAll.2 ⟨below, hselected, hg'⟩) m hm
      · split at hbelow
        · cases hbelow
        · obtain rfl := List.mem_singleton.1 hbelow
          obtain rfl := List.mem_singleton.1 hg
          cases hm
  · exact h

/-- What is selected below a branch that found a document. -/
def completeFound (vars : Variables) (selection : List Field) (entity : Entity) : Pass Json :=
  if selection.isEmpty then pure (.object [])
  else resolveSelection vars (some entity) [] selection

theorem makes_completeFound {selection : List Field} (h : ReadOnly vars selection)
    (entity : Entity) : Pass.Makes Requests.reads (completeFound vars selection entity) := by
  rw [completeFound]
  split
  · exact .pure _
  · exact h.makes_resolveSelection

/-- On a client where no call is to fail, what is selected below a document is read off the store,
which stays as it is. -/
theorem exists_of_run_completeFound {selection : List Field} (hfree : ReadOnly vars selection)
    {entity : Entity} (hquiet : state.client.Quiet) {value : Json}
    (h : (completeFound vars selection entity).run state = (.ok value, state')) :
    (∃ calls, state'.client = { state.client with log := state.client.log ++ calls }) ∧
      (completeFound vars selection entity).result state.client.store = .ok value := by
  have hmakes := makes_completeFound hfree entity
  have hreads := Pass.client_run_of_reads hmakes hquiet
  have hresult := Pass.run_eq_result hmakes hquiet
  rw [h] at hreads hresult
  exact ⟨⟨_, hreads⟩, hresult.symm⟩

theorem run_resolveField_of_entity {parent : Option Entity} {plan : Plan} {entity : Entity}
    (h : (resolveBranch vars parent f [] plan).run state = (.ok (.entity entity), state')) :
    (resolveField vars parent f (.branch plan [])).run state =
      (completeFound vars f.selection entity).run state' := by
  rw [resolveField_branch, Pass.run_bind_ok h]
  rfl

/-- The document as a query for it reads it. -/
def entityOf (s : Store) (name : String) (typename : Option String) (d : DocumentRef) : Entity :=
  ⟨Text.typename typename name, s.snapshot d (s.document? d) .default⟩

theorem run_resolveBranch_asQuery {typename : Option String} {d : DocumentRef}
    (hd : d.path.Dotless) {c : Client} (hc : c.Quiet) :
    (resolveBranch vars none (prepareField config (asQuery f typename d)) []
      (.query (some .document) (documentFetch typename d))).run ⟨c, []⟩ =
        (.ok (.entity (entityOf c.store f.name typename d)),
          ⟨{ c with log := c.log ++ [.getDocument d .default] }, []⟩) := by
  have hreference : resolveReference
      ((documentFetch typename d).path.getD (prepareField config (asQuery f typename d)).name)
      (some .document) = .ok (.document d) :=
    congrArg Except.ok (Reference.ofDotted_toString hd)
  have hread : c.ask (.getDocument d .default) =
      (.ok (c.store.snapshot d (c.store.document? d) .default),
        { c with log := c.log ++ [.getDocument d .default] }) := by
    rw [Client.ask, hc.perform, Request.run_getDocument hc.2]
    rfl
  rw [resolveBranch, hreference, Pass.ofConfig_ok_bind]
  change (fetchDocument d (documentFetch typename d) (Text.typename typename
    (prepareField config (asQuery f typename d)).name)).run _ = _
  rw [name_prepareField]
  exact Pass.run_bind_ok (Pass.run_of_ask (r := .getDocument d .default) hread) _

/-- The query for a document finds it as it stands in the store. -/
theorem response_asQuery (o : Operation) {typename : Option String} {d : DocumentRef}
    (hd : d.path.Dotless) {c : Client} (hc : c.Quiet)
    (hfree : ReadOnly o.vars (prepareField config f).selection) :
    (execute config { o with selection := [asQuery f typename d] } c).response =
      ((completeFound o.vars (prepareField config f).selection
        (entityOf c.store f.name typename d)).result c.store).map
          fun value => .object [(f.responseKey, value)] := by
  have hslot : BranchSlot o.vars [] (prepareField config (asQuery f typename d))
      (.branch (.query (some .document) (documentFetch typename d)) []) :=
    ⟨_, by rw [ofField_prepareField, ofField_asQuery], Bool.or_true _, rfl⟩
  have hquiet : Client.Quiet { c with log := c.log ++ [.getDocument d .default] } := hc
  rw [(execute_singleton hslot).1, run_resolveField_of_entity (run_resolveBranch_asQuery hd hc),
    selection_prepareField_asQuery, Pass.run_eq_result (makes_completeFound hfree _) hquiet]
  rfl

/-! ### Leaves of a document -/

/-- A leaf that none of its directives fetches. -/
def PlainLeaf (f : Field) : Prop :=
  f.isLeaf = true ∧ f.directive? "query" = none ∧ f.directive? "mutation" = none ∧
    f.directive? "ref" = none

/-- A leaf has what is read off its document. -/
theorem Gathers.getElem?_of_plainLeaf {entity : Entity} {exports : Exports} {c c' : Client}
    {fields : List Field} {values : List Json}
    (h : Gathers vars (some entity) exports c fields values c') {i : Nat} {g : Field}
    (hg : fields[i]? = some g) (hplain : PlainLeaf g) :
    ∃ mode value, values[i]? = some value ∧ ReadsLeaf entity mode g.name value := by
  obtain ⟨hleaf, hdirectives⟩ := hplain
  have hread : ∀ {plan : Plan}, Plan.ofField vars g = .ok plan → plan.isFetching = false :=
    fun hplan => (Plan.isFetching_eq_false_iff hplan).2 hdirectives
  induction fields generalizing i exports c values with
  | nil => cases hg
  | cons f rest ih =>
    cases i with
    | zero =>
      obtain rfl : f = g := Option.some.inj hg
      cases h with
      | leaf _ _ _ hvalue => exact ⟨_, _, rfl, hvalue⟩
      | bare hplan _ hfetching =>
        rw [hread hplan] at hfetching
        cases hfetching
      | branch _ hselects =>
        rw [hleaf] at hselects
        cases hselects
    | succ i =>
      cases h with
      | leaf _ _ _ _ hrest => exact ih hrest hg
      | bare _ _ _ _ hrest => exact ih hrest hg
      | branch _ _ _ _ hrest => exact ih hrest hg

/-- A leaf that is not pending reads what is stored. -/
theorem ReadsLeaf.eq_of_stored {s : Store} {d : DocumentRef} {data : Members} {name : String}
    {typename : Option String} (hdata : s.document? d = some data) {mode : PendingMode}
    {field : String} {value : Json} (h : ReadsLeaf (entityOf s name typename d) mode field value)
    (htypename : field ≠ "__typename") (hid : field ≠ "id")
    (hpending : Bindings.get? field ((Store.lookup d.path s.pending).getD []) = none) :
    value = (data.read field).getD .null := by
  cases h with
  | typename => exact absurd rfl htypename
  | id => exact absurd rfl hid
  | hidden _ _ hsome => cases hpending.symm.trans hsome
  | estimate _ _ hsome => cases hpending.symm.trans hsome
  | previous _ _ hsome => cases hpending.symm.trans hsome
  | stored _ _ _ hstored hread =>
    obtain rfl := Option.some.inj (hdata.symm.trans hstored)
    rw [hread, Option.getD_some]
  | missing _ _ _ hmissing => rw [hmissing data hdata, Option.getD_none]

/-! ### Mutations -/

/-- What holds of a root field that adds, sets or updates a document, of the clients before and
after it, of the document and of the value that it answers with. -/
structure ReadsBack (config : Config) (o : Operation) (f : Field) (plan : MutationPlan)
    (type : MutationType) (before after : Client) (d : DocumentRef) (value : Json) : Prop where
  /-- The document is written by one request of the type, and after that there are only reads,
  first of the document itself. -/
  written : ∃ (α : Type) (r : Request α) (a : α) (between : Client) (calls : List Call),
    r.mutationType? = some type ∧ before.ask r = (.ok a, between) ∧ r.wrote? a = some d ∧
      after = { between with log := between.log ++ .getDocument d .default :: calls }
  /-- The document exists. -/
  stored : ∃ data, after.store.document? d = some data
  /-- The query for the document gives the same value. -/
  queried : d.path.Dotless →
    (execute config { o with selection := [asQuery f plan.typename d] } after).response =
      .ok (.object [(f.responseKey, value)])
  /-- If the document was replaced, then its leaves read what the payload has. -/
  replaced : type = .set → Mutation.writeMode plan = .replace →
    ∃ payload values, Mutation.payload f plan o.vars = .ok payload ∧
      Fills (prepareField config f).selection values value ∧
      ∀ (i : Nat) (g : Field), (prepareField config f).selection[i]? = some g → PlainLeaf g →
        g.name ≠ "__typename" → g.name ≠ "id" →
        Bindings.get? g.name ((Store.lookup d.path after.store.pending).getD []) = none →
        values[i]? = some ((payload.read g.name).getD .null)

theorem payload_prepareField (config : Config) (f : Field) (plan : MutationPlan)
    (vars : Variables) :
    Mutation.payload (prepareField config f) plan vars = Mutation.payload f plan vars := by
  rw [prepareField]
  split
  · cases f
    rfl
  · rfl

/-- What is selected below a document fills an object, and its leaves have what is read off the
document. -/
theorem fills_of_completeFound {selection : List Field} {entity : Entity} {value : Json}
    (h : (completeFound vars selection entity).run state = (.ok value, state')) :
    ∃ values, Fills selection values value ∧
      ∀ (i : Nat) (g : Field), selection[i]? = some g → PlainLeaf g →
        ∃ mode value, values[i]? = some value ∧ ReadsLeaf entity mode g.name value := by
  rw [completeFound] at h
  split at h
  · rename_i hempty
    obtain rfl := List.isEmpty_iff.1 hempty
    obtain ⟨rfl, -⟩ := Pass.eq_of_run_pure h
    exact ⟨[], fills_assemble rfl, fun i g hg => by cases hg⟩
  · obtain ⟨values, hgathers, hfills⟩ :=
      gathers_of_resolveSelection (fun f _ => completesBelow vars f) h
    exact ⟨values, hfills, fun i g hg => hgathers.getElem?_of_plainLeaf hg⟩

/-- A root field that writes a document answers as a query for it. -/
theorem readsBack_of_run {o : Operation} {type : MutationType} {value : Json}
    (htype : plan.type = some type) (hdelete : type ≠ .delete)
    (hfree : ReadOnly o.vars f.selection) (hquiet : state.client.Quiet)
    (h : (resolveField o.vars none (prepareField config f) (.branch (.mutation plan) [])).run
      state = (.ok value, state')) :
    ∃ d, ReadsBack config o f plan type state.client state'.client d value := by
  have hfree' : ReadOnly o.vars (prepareField config f).selection := hfree.prepareField
  rw [resolveField_branch] at h
  obtain ⟨resolved, found, hresolve, h⟩ := Pass.exists_of_run_bind h
  obtain ⟨type', data, reference, written, between, htype', hdata, htarget, hwrite, hread⟩ :=
    exists_of_perform hresolve
  obtain rfl : type = type' := Option.some.inj (htype.symm.trans htype')
  have hfits := Mutation.kind_of_target htarget
  obtain ⟨-, α, r, a, d, hrequest, hask, hwrote, rfl⟩ | ⟨rfl, -⟩ := exists_of_write hfits hwrite
  swap
  · exact (hdelete rfl).elim
  obtain ⟨d', snapshot, hd, hread, rfl⟩ | ⟨hnone, -, -⟩ := hread
  swap
  · cases hnone
  obtain rfl : d = d' := Option.some.inj hd
  -- the document is read back as it was stored, and nothing is written after that
  have hbetween : between.client.Quiet := by
    have hperform := hquiet.perform_request r
    rwa [show (state.client.perform r.call r.run).2 = between.client from
      congrArg Prod.snd hask] at hperform
  obtain ⟨hsnapshot, hfound⟩ := hbetween.ask hread
  rw [Request.run_getDocument hbetween.2] at hsnapshot
  obtain ⟨hsnapshot, hstore⟩ := Prod.mk.inj hsnapshot
  obtain rfl := Except.ok.inj hsnapshot
  rw [← hstore] at hfound
  rw [name_prepareField] at h
  have hcomplete : (completeFound o.vars (prepareField config f).selection
      (entityOf between.client.store f.name plan.typename d)).run found = (.ok value, state') := h
  have hfoundQuiet : found.client.Quiet := by
    rw [hfound]
    exact hbetween
  obtain ⟨⟨calls, hreads⟩, hvalue⟩ := exists_of_run_completeFound hfree' hfoundQuiet hcomplete
  have hafter : state'.client = { between.client with
      log := between.client.log ++ .getDocument d .default :: calls } := by
    rw [hreads, hfound, List.append_assoc]
    rfl
  have hstoreAfter : state'.client.store = between.client.store := by rw [hafter]
  have hfoundStore : found.client.store = between.client.store := by rw [hfound]
  rw [hfoundStore] at hvalue
  obtain ⟨hrun, -⟩ := hquiet.ask hask
  refine ⟨d, ⟨⟨α, r, a, between.client, calls, hrequest, hask, hwrote, hafter⟩, ?_, fun hd => ?_,
    fun hset hmode => ?_⟩⟩
  · rw [hstoreAfter]
    refine Store.exists_document?_of_wrote hquiet.2 hrun hwrote ?_
    rw [hrequest]
    exact fun h => hdelete (Option.some.inj h)
  · have hquietAfter : state'.client.Quiet := by
      rw [hafter]
      exact hbetween
    rw [response_asQuery o hd hquietAfter hfree', hstoreAfter, hvalue]
    rfl
  · subst hset
    have hset := ask_of_write_set hfits hwrite
    rw [hmode] at hset
    have hdata' : between.client.store.document? d = some data :=
      Store.document?_of_replace hquiet.2 (hquiet.ask hset).1
    obtain ⟨values, hfills, hleaves⟩ := fills_of_completeFound hcomplete
    rw [payload_prepareField] at hdata
    refine ⟨data, values, hdata, hfills, fun i g hg hplain htypename hid hpending => ?_⟩
    obtain ⟨mode, value, hvalue, hreads⟩ := hleaves i g hg hplain
    rw [hstoreAfter] at hpending
    rw [hvalue, hreads.eq_of_stored hdata' htypename hid hpending]

/-! ### Root fields at their places -/

theorem quiet_execute (o : Operation) {c : Client} (hc : c.Quiet) :
    (execute config o c).client.Quiet := by
  have hstart : (⟨c, []⟩ : PassState).client.Quiet := hc
  exact Pass.quiet_run (makes_documents config o) hstart

theorem exists_append_of_forall₂ {α β : Type} {R : α → β → Prop} {front rest : List α}
    {others : List β} (h : List.Forall₂ R (front ++ rest) others) :
    ∃ others₁ others₂, others = others₁ ++ others₂ ∧ List.Forall₂ R front others₁ ∧
      List.Forall₂ R rest others₂ := by
  refine ⟨others.take front.length, others.drop front.length, ?_, ?_, ?_⟩
  · exact (List.take_append_drop _ _).symm
  · exact (List.forall₂_take_append _ _ _ h.flip).flip
  · exact (List.forall₂_drop_append _ _ _ h.flip).flip

/-- A root field of an operation that succeeds is resolved between the fields before it and those
behind it, and the last field with a key has its value there. -/
theorem exists_of_execute_append {o : Operation} {front rest : List Field}
    (hselection : o.selection = front ++ f :: rest) {c : Client} {data : Json}
    (h : (execute config o c).response = .ok data) :
    ∃ slot value before after, BranchSlot o.vars [] (prepareField config f) slot ∧
      (resolveField o.vars none (prepareField config f) slot).run before = (.ok value, after) ∧
      (execute config { o with selection := front } c).client = before.client ∧
      (execute config { o with selection := front ++ [f] } c).client = after.client ∧
      (f.responseKey ∉ rest.map Field.responseKey → data.get? f.responseKey = some value) := by
  have hrun : (resolveSelection (prepare config o).vars none [] (prepare config o).selection).run
      ⟨c, []⟩ = (.ok data, ⟨(execute config o c).client, (execute config o c).targets⟩) :=
    Prod.ext h rfl
  rw [vars_prepare, selection_prepare, hselection] at hrun
  obtain ⟨slots, between, hplanned, hrun⟩ := Pass.exists_of_run_bind hrun
  obtain ⟨hslots, rfl⟩ := Pass.eq_of_run_ofExcept hplanned
  obtain ⟨values, last, hvalues, hrun⟩ := Pass.exists_of_run_bind hrun
  obtain ⟨rfl, -⟩ := Pass.eq_of_run_pure hrun
  have hlengthAll := (gathers_of_resolveFields (fun g _ => completesBelow o.vars g) hslots
    hvalues).1
  -- the slots of the fields before, of the field, and of those behind
  have hroot := List.forall₂_map_left_iff.1 (planFields_none_iff.1 hslots)
  obtain ⟨slots₁, slots₂, rfl, hfront, hback⟩ := exists_append_of_forall₂ hroot
  obtain ⟨slot, slots₂, hslot, hrest, rfl⟩ := List.forall₂_cons_left_iff.1 hback
  have hlength : slots₁.length = (front.map (prepareField config)).length := by
    rw [List.length_map, hfront.length_eq]
  rw [List.map_append, List.map_cons, resolveFields_append hlength] at hvalues
  obtain ⟨values₁, before, hrunFront, hvalues⟩ := Pass.exists_of_run_bind hvalues
  obtain ⟨values₂, behind, hrunBack, hvalues⟩ := Pass.exists_of_run_bind hvalues
  obtain ⟨rfl, -⟩ := Pass.eq_of_run_pure hvalues
  rw [resolveFields] at hrunBack
  obtain ⟨value, after, hrunField, hrunBack⟩ := Pass.exists_of_run_bind hrunBack
  obtain ⟨valuesRest, behind, hrunRest, hrunBack⟩ := Pass.exists_of_run_bind hrunBack
  obtain ⟨rfl, -⟩ := Pass.eq_of_run_pure hrunBack
  refine ⟨slot, value, before, after, hslot, hrunField, ?_, ?_, fun hlast => ?_⟩
  · rw [(@execute_of_rootSlots config { o with selection := front } c _ hfront).2, hrunFront]
  · have hboth : List.Forall₂ (fun f => BranchSlot o.vars [] (prepareField config f))
        (front ++ [f]) (slots₁ ++ [slot]) := List.rel_append hfront (.cons hslot .nil)
    rw [(@execute_of_rootSlots config { o with selection := front ++ [f] } c _ hboth).2,
      List.map_append, resolveFields_append hlength, Pass.run_bind_ok hrunFront, List.map_singleton,
      resolveFields, Pass.run_bind_ok (Pass.run_bind_ok hrunField _)]
    rfl
  · have hlengthFront : values₁.length = (front.map (prepareField config)).length :=
      (gathers_of_resolveFields (fun g _ => completesBelow o.vars g)
        (planFields_none_iff.2 (List.forall₂_map_left_iff.2 hfront)) hrunFront).1
    have hkeys : (prepareField config f).responseKey ∉
        (rest.map (prepareField config)).map Field.responseKey := by
      rwa [map_responseKey_prepareField, responseKey_prepareField]
    obtain ⟨value', hvalue', hget⟩ := (fills_assemble hlengthAll).last
      (front.map (prepareField config)) (prepareField config f) (rest.map (prepareField config))
      (by rw [List.map_append, List.map_cons]) hkeys
    rw [← hlengthFront, List.getElem?_append_right (Nat.le_refl _), Nat.sub_self] at hvalue'
    obtain rfl : value = value' := Option.some.inj hvalue'
    rwa [responseKey_prepareField] at hget

/-- What a mutation answers is what a query would read. Take any root field of an operation that
succeeds, on a client where no call is to fail, that is planned as a mutation that adds, sets or
updates, and below which no other mutation is planned. It writes a document, which then exists; the
value under its key is the one that a query for the document has, with the same name and selection
and the same explicit type, on the store as the field leaves it, if the path of the document has no
dots; and if the document was replaced, every leaf that is fetched by nothing reads what its field
path reads in the payload, unless it is the id, the typename or pending. -/
theorem readsBack_of_execute (config : Config) {o : Operation} {front rest : List Field} {f : Field}
    {plan : MutationPlan} {type : MutationType} (hselection : o.selection = front ++ f :: rest)
    (hplan : Plan.ofField o.vars f = .ok (.mutation plan)) (htype : plan.type = some type)
    (hdelete : type ≠ .delete) (hfree : ReadOnly o.vars f.selection) {c : Client} (hc : c.Quiet)
    {data : Json} (h : (execute config o c).response = .ok data) :
    ∃ value d, (f.responseKey ∉ rest.map Field.responseKey →
        data.get? f.responseKey = some value) ∧
      ReadsBack config o f plan type (execute config { o with selection := front } c).client
        (execute config { o with selection := front ++ [f] } c).client d value := by
  obtain ⟨slot, value, before, after, hslot, hrun, hbefore, hafter, hvalue⟩ :=
    exists_of_execute_append hselection h
  obtain ⟨plan', hplan', -, rfl⟩ := hslot
  rw [ofField_prepareField, hplan] at hplan'
  obtain rfl := Except.ok.inj hplan'
  have hquiet : before.client.Quiet := by
    rw [← hbefore]
    exact quiet_execute _ hc
  obtain ⟨d, hreads⟩ := readsBack_of_run htype hdelete hfree hquiet hrun
  rw [hbefore, hafter]
  exact ⟨value, d, hvalue, hreads⟩

/-- Replaces a user, and asks for the id and the name. -/
def replaceUser : Field :=
  .mk "replaceUser" none []
    [⟨"mutation", [("mutationType", .literal (.string "set")),
      ("path", .literal (.string "users.u1")), ("rootType", .literal (.string "collection")),
      ("type", .literal (.string "User")),
      ("dataArg", .literal (.object [("name", .string "Grace")]))]⟩]
    [.leaf "id", .leaf "name"]

/-- The plan of the mutation. -/
def replaceUserPlan : MutationPlan where
  path := some "users.u1"
  rootKind := some .collection
  typename := some "User"
  type := some .set
  payload := some (.object [("name", .string "Grace")])
  payloadName := "input"
  merge := false
  mergeFields := none

theorem readsBack_of_execute_replaceUser :
    let users := Field.mk "users" none [] [usersQuery] [.leaf "name"]
    let o := usersOperation [users, replaceUser]
    Plan.ofField o.vars replaceUser = .ok (.mutation replaceUserPlan) ∧
    ReadOnly o.vars replaceUser.selection ∧ userClient.Quiet ∧
    ∃ data value d, (execute {} o userClient).response = .ok data ∧
      data = .object [("users", .array [.object [("name", .string "Ada"),
        ("__typename", .string "User")]]), ("replaceUser", value)] ∧
      value = .object [("id", .string "u1"), ("name", .string "Grace"),
        ("__typename", .string "User")] ∧
      data.get? "replaceUser" = some value ∧
      ReadsBack {} o replaceUser replaceUserPlan .set
        (execute {} { o with selection := [users] } userClient).client
        (execute {} { o with selection := [users, replaceUser] } userClient).client d value := by
  intro users o
  have hplan : Plan.ofField o.vars replaceUser = .ok (.mutation replaceUserPlan) := by
    with_unfolding_all rfl
  have hfree : ReadOnly o.vars replaceUser.selection := by
    have hnone : ({ o with selection := replaceUser.selection } : Operation).MutationFree := by
      decide +kernel
    exact fun g hg m hm => absurd hm (hnone g hg m)
  have hquiet : userClient.Quiet := ⟨rfl, rfl⟩
  have hresponse : (execute {} o userClient).response = .ok (.object
      [("users", .array [.object [("name", .string "Ada"), ("__typename", .string "User")]]),
        ("replaceUser", .object [("id", .string "u1"), ("name", .string "Grace"),
          ("__typename", .string "User")])]) := Json.eq_ok_of_compact (by decide +kernel)
  obtain ⟨value, d, hvalue, hreads⟩ := @readsBack_of_execute {} o [users] [] replaceUser
    replaceUserPlan .set rfl hplan rfl (by decide) hfree userClient hquiet _ hresponse
  obtain rfl := Option.some.inj (hvalue List.not_mem_nil)
  exact ⟨hplan, hfree, hquiet, _, _, d, hresponse, rfl, rfl, rfl, hreads⟩

end Executor

end LiveDocs
