import LiveDocs.Proofs.Bindings
import LiveDocs.Proofs.Json.Text
import LiveDocs.Proofs.Pass.Exports

/-!
# The shape of a response

A response has the shape of its operation. `Finds` says what a branch is resolved to: by its plan, a
document, the documents of a collection, a document that was written, or one that was deleted.
`ReadsLeaf` and `ReadsDeleted` say what is read of a document, or of one that was deleted. `Gathers`
says how the fields of a selection come to their values, one value for each field and none for want
of a field, and `Fills` how the values make an object: a key for each field, and of several fields
with one key the value of the last. Main statement: `gathers_of_execute`, the response of an
operation is such an object all the way down, and the calls in between are those of the pass.
-/

namespace LiveDocs

/-- An object filled by fields: it has a key for each field, in the order in which the keys come up
first, and under each key the value of the last field that has it. -/
structure Fills (fields : List Field) (values : List Json) (object : Json) : Prop where
  length_eq : values.length = fields.length
  keys : ∃ members : Members, object = .object members ∧
    Bindings.keys members = (fields.map Field.responseKey).eraseDups
  last : ∀ (front : List Field) (f : Field) (rest : List Field), fields = front ++ f :: rest →
    f.responseKey ∉ rest.map Field.responseKey →
    ∃ value, values[front.length]? = some value ∧ object.get? f.responseKey = some value

theorem fills_assemble {fields : List Field} {values : List Json}
    (hlength : values.length = fields.length) :
    Fills fields values (Executor.assemble fields values) where
  length_eq := hlength
  keys := by
    refine ⟨_, rfl, ?_⟩
    rw [Bindings.keys_ofPairs, List.map_fst_zip (by simp [hlength])]
  last front f rest hfields hlast := by
    subst hfields
    have hlt : front.length < values.length := by
      rw [hlength, List.length_append, List.length_cons]
      omega
    refine ⟨values[front.length], List.getElem?_eq_getElem hlt, ?_⟩
    -- the entries before the field, its own, and those behind it, which have other keys
    have hvalues : values = values.take front.length ++ values[front.length] ::
        values.drop (front.length + 1) := by
      rw [List.getElem_cons_drop, List.take_append_drop]
    rw [congrArg (Executor.assemble _) hvalues,
      Executor.assemble_append_cons (List.length_take_of_le (Nat.le_of_lt hlt))]
    exact Executor.get?_ofPairs_of_last _ (Executor.get?_reverse_entries hlast _)

namespace Executor

variable {vars : Variables} {parent : Option Entity} {f : Field} {exports : Exports} {plan : Plan}
  {state state' : PassState} {resolved : Resolved}

/-! ### Values of leaves -/

/-- A plan leaves a field to be read off its document, in this way. -/
inductive ReadsAs : Plan → LeafPlan → Prop where
  /-- A directive says how. -/
  | directed {leaf : LeafPlan} : ReadsAs (.leaf leaf) leaf
  /-- Without a directive, nothing is exported and pending values are hidden. -/
  | plain : ReadsAs .none ⟨none, .hidden⟩

/-- What is read of a document under a name, with pending values read in a mode. -/
inductive ReadsLeaf (entity : Entity) : PendingMode → String → Json → Prop where
  /-- The typename that the document is reported under. -/
  | typename {mode : PendingMode} : ReadsLeaf entity mode "__typename" (.string entity.typename)
  /-- The id of the document. -/
  | id {mode : PendingMode} : ReadsLeaf entity mode "id" (.string entity.snapshot.reference.id)
  /-- A value that is pending is null while it is hidden, whatever is stored. -/
  | hidden {name : String} {v : PendingValue} (htypename : name ≠ "__typename") (hid : name ≠ "id")
      (hpending : Bindings.get? name entity.snapshot.pending = some v) :
      ReadsLeaf entity .hidden name .null
  | estimate {name : String} {v : PendingValue} (htypename : name ≠ "__typename")
      (hid : name ≠ "id") (hpending : Bindings.get? name entity.snapshot.pending = some v) :
      ReadsLeaf entity .estimate name v.estimate
  | previous {name : String} {v : PendingValue} (htypename : name ≠ "__typename")
      (hid : name ≠ "id") (hpending : Bindings.get? name entity.snapshot.pending = some v) :
      ReadsLeaf entity .previous name v.previous
  /-- The value that is stored at the path. -/
  | stored {mode : PendingMode} {name : String} {data : Members} {value : Json}
      (htypename : name ≠ "__typename") (hid : name ≠ "id")
      (hpending : Bindings.get? name entity.snapshot.pending = none)
      (hdata : entity.snapshot.data = some data) (hread : data.read name = some value) :
      ReadsLeaf entity mode name value
  /-- Null, if nothing is stored there, or there is no document. -/
  | missing {mode : PendingMode} {name : String} (htypename : name ≠ "__typename")
      (hid : name ≠ "id") (hpending : Bindings.get? name entity.snapshot.pending = none)
      (hmissing : ∀ data, entity.snapshot.data = some data → data.read name = none) :
      ReadsLeaf entity mode name .null

/-- What is read of a deleted document under a name. -/
inductive ReadsDeleted (typename id : String) : String → Json → Prop where
  | typename : ReadsDeleted typename id "__typename" (.string typename)
  | id : ReadsDeleted typename id "id" (.string id)
  | other {name : String} (htypename : name ≠ "__typename") (hid : name ≠ "id") :
      ReadsDeleted typename id name .null

theorem readsAs_leafPlan (hfetching : plan.isFetching = false) : ReadsAs plan (leafPlan plan) := by
  cases plan with
  | leaf leaf => exact .directed
  | none => exact .plain
  | query | mutation | ref => cases hfetching

theorem readsLeaf_leafValue (f : Field) (mode : PendingMode) (entity : Entity) :
    ReadsLeaf entity mode f.name (leafValue f mode entity) := by
  rw [leafValue]
  by_cases htypename : f.name = "__typename"
  · rw [if_pos htypename, htypename]
    exact .typename
  by_cases hid : f.name = "id"
  · rw [if_neg htypename, if_pos hid, hid]
    exact .id
  rw [if_neg htypename, if_neg hid]
  cases hpending : Bindings.get? f.name entity.snapshot.pending with
  | some v =>
    rw [Snapshot.get_of_pending hpending]
    cases mode with
    | hidden => exact .hidden htypename hid hpending
    | estimate => exact .estimate htypename hid hpending
    | previous => exact .previous htypename hid hpending
  | none =>
    cases hdata : entity.snapshot.data with
    | none =>
      rw [Snapshot.get_of_missing hdata hpending]
      exact .missing htypename hid hpending fun data h => by cases hdata.symm.trans h
    | some data =>
      rw [Snapshot.get_of_data hdata hpending]
      cases hread : data.read f.name with
      | some value => exact .stored htypename hid hpending hdata hread
      | none =>
        refine .missing htypename hid hpending fun data' h => ?_
        obtain rfl := Option.some.inj (hdata.symm.trans h)
        exact hread

theorem readsDeleted_deletedValue (typename id : String) (f : Field) :
    ReadsDeleted typename id f.name (deletedValue typename id f) := by
  rw [deletedValue]
  by_cases htypename : f.name = "__typename"
  · rw [if_pos htypename, htypename]
    exact .typename
  by_cases hid : f.name = "id"
  · rw [if_neg htypename, if_pos hid, hid]
    exact .id
  · rw [if_neg htypename, if_neg hid]
    exact .other htypename hid

/-! ### Values of fields -/

mutual

/-- Fields come to values, in order, with these exports: one value for each field. -/
inductive Gathers (vars : Variables) : Option Entity → Exports → Client → List Field →
    List Json → Client → Prop where
  | nil {parent : Option Entity} {exports : Exports} {c : Client} :
      Gathers vars parent exports c [] [] c
  /-- A field that selects nothing and fetches nothing is read off the parent, and exports. -/
  | leaf {entity : Entity} {exports : Exports} {c c' : Client} {f : Field} {plan : Plan}
      {leaf : LeafPlan} {value : Json} {rest : List Field} {values : List Json}
      (hplan : Plan.ofField vars f = .ok plan) (hleaf : f.isLeaf = true)
      (hreadsAs : ReadsAs plan leaf) (hvalue : ReadsLeaf entity leaf.mode f.name value)
      (hrest : Gathers vars (some entity) (exportLeaf f leaf value exports) c rest values c') :
      Gathers vars (some entity) exports c (f :: rest) (value :: values) c'
  /-- A field that selects nothing and fetches comes to an empty object. -/
  | bare {parent : Option Entity} {exports : Exports} {c between c' : Client} {f : Field}
      {plan : Plan} {resolved : Resolved} {rest : List Field} {values : List Json}
      (hplan : Plan.ofField vars f = .ok plan) (hleaf : f.isLeaf = true)
      (hfetching : plan.isFetching = true)
      (hfinds : Finds vars parent f exports plan c resolved between)
      (hrest : Gathers vars parent exports between rest values c') :
      Gathers vars parent exports c (f :: rest) (.object [] :: values) c'
  /-- A field that selects something is completed for what it finds. -/
  | branch {parent : Option Entity} {exports : Exports} {c found between c' : Client} {f : Field}
      {plan : Plan} {resolved : Resolved} {value : Json} {rest : List Field} {values : List Json}
      (hplan : Plan.ofField vars f = .ok plan) (hselects : f.isLeaf = false)
      (hfinds : Finds vars parent f exports plan c resolved found)
      (hvalue : Completes vars exports f.selection found resolved value between)
      (hrest : Gathers vars parent exports between rest values c') :
      Gathers vars parent exports c (f :: rest) (value :: values) c'

/-- What is selected below a branch comes to a value, for what the branch found. -/
inductive Completes (vars : Variables) : Exports → List Field → Client → Resolved → Json →
    Client → Prop where
  /-- A document gives one object. -/
  | document {exports : Exports} {selection : List Field} {entity : Entity} {values : List Json}
      {object : Json} {c c' : Client}
      (hgathers : Gathers vars (some entity) exports c selection values c')
      (hfills : Fills selection values object) :
      Completes vars exports selection c (.entity entity) object c'
  /-- The documents of a collection give an array. -/
  | documents {exports : Exports} {selection : List Field} {entities : List Entity}
      {items : List Json} {c c' : Client}
      (hitems : Items vars exports selection c entities items c') :
      Completes vars exports selection c (.entities entities) (.array items) c'
  /-- A deletion gives one object, with the typename and the id and null for anything else. -/
  | deletion {exports : Exports} {selection : List Field} {typename id : String}
      {values : List Json} {object : Json} {c : Client}
      (hvalues : List.Forall₂ (fun f => ReadsDeleted typename id f.name) selection values)
      (hfills : Fills selection values object) :
      Completes vars exports selection c (.deleted typename id) object c

/-- Each document gives one object, in order. -/
inductive Items (vars : Variables) : Exports → List Field → Client → List Entity → List Json →
    Client → Prop where
  | nil {exports : Exports} {selection : List Field} {c : Client} :
      Items vars exports selection c [] [] c
  | cons {exports : Exports} {selection : List Field} {entity : Entity} {entities : List Entity}
      {values items : List Json} {object : Json} {c between c' : Client}
      (hgathers : Gathers vars (some entity) exports c selection values between)
      (hfills : Fills selection values object)
      (hrest : Items vars exports selection between entities items c') :
      Items vars exports selection c (entity :: entities) (object :: items) c'

end

/-- Whatever the branch found, completing the selection below the field comes to a value as it
should. -/
def CompletesBelow (vars : Variables) (f : Field) : Prop :=
  ∀ {exports : Exports} {resolved : Resolved} {state state' : PassState} {value : Json},
    (complete vars exports f.selection resolved).run state = (.ok value, state') →
      Completes vars exports f.selection state.client resolved value state'.client

variable {fields rest : List Field} {slots : List Slot} {values : List Json} {value : Json}

/-- Resolving a planned branch. -/
theorem gathers_of_branch (hbelow : CompletesBelow vars f) (hplan : Plan.ofField vars f = .ok plan)
    (hbranch : (!f.isLeaf || plan.isFetching) = true)
    (h : (resolveField vars parent f (.branch plan exports)).run state = (.ok value, state'))
    {c : Client} (hrest : Gathers vars parent exports state'.client rest values c) :
    Gathers vars parent exports state.client (f :: rest) (value :: values) c := by
  rw [resolveField_branch] at h
  obtain ⟨resolved, between, hresolve, h⟩ := Pass.exists_of_run_bind h
  have hfinds : Finds vars parent f exports plan state.client resolved between.client :=
    finds_of_resolveBranch hresolve
  cases hleaf : f.isLeaf with
  | true =>
    rw [hleaf, if_pos rfl] at h
    obtain ⟨rfl, rfl⟩ := Pass.eq_of_run_pure h
    rw [hleaf] at hbranch
    exact .bare hplan hleaf hbranch hfinds hrest
  | false =>
    rw [hleaf, if_neg (by decide)] at h
    exact .branch hplan hleaf hfinds (hbelow h) hrest

/-- Planned fields that are resolved in order come to their values. -/
theorem gathers_of_resolveFields (hbelow : ∀ f ∈ fields, CompletesBelow vars f)
    (hslots : planFields vars parent exports fields = .ok slots)
    (h : (resolveFields vars parent fields slots).run state = (.ok values, state')) :
    values.length = fields.length ∧
      Gathers vars parent exports state.client fields values state'.client := by
  induction fields generalizing exports slots values state with
  | nil =>
    obtain rfl : [] = slots := Except.ok.inj hslots
    rw [resolveFields] at h
    · obtain ⟨rfl, rfl⟩ := Pass.eq_of_run_pure h
      exact ⟨rfl, .nil⟩
    · intro f rest slot slots hcons
      cases hcons
  | cons f rest ih =>
    have hrestBelow : ∀ g ∈ rest, CompletesBelow vars g := fun g hg =>
      hbelow g (List.mem_cons_of_mem _ hg)
    obtain ⟨plan, hplan,
        ⟨hbranch, slots', rfl, hrest⟩ | ⟨hleaf, entity, slots', rfl, rfl, hrest⟩⟩ :=
      exists_of_planFields_cons hslots
    · rw [resolveFields] at h
      obtain ⟨value, between, hvalue, h⟩ := Pass.exists_of_run_bind h
      obtain ⟨values', last, hvalues, h⟩ := Pass.exists_of_run_bind h
      obtain ⟨rfl, rfl⟩ := Pass.eq_of_run_pure h
      obtain ⟨hlength, hgathers⟩ := ih hrestBelow hrest hvalues
      exact ⟨congrArg (· + 1) hlength,
        gathers_of_branch (hbelow f List.mem_cons_self) hplan hbranch hvalue hgathers⟩
    · rw [resolveFields, resolveField] at h
      obtain ⟨value, between, hvalue, h⟩ := Pass.exists_of_run_bind h
      obtain ⟨rfl, rfl⟩ := Pass.eq_of_run_pure hvalue
      obtain ⟨values', last, hvalues, h⟩ := Pass.exists_of_run_bind h
      obtain ⟨rfl, rfl⟩ := Pass.eq_of_run_pure h
      obtain ⟨hlength, hgathers⟩ := ih hrestBelow hrest hvalues
      obtain ⟨hselects, hfetching⟩ := Bool.or_eq_false_iff.1 hleaf
      exact ⟨congrArg (· + 1) hlength,
        .leaf hplan (by simpa using hselects) (readsAs_leafPlan hfetching)
          (readsLeaf_leafValue f _ entity) hgathers⟩

theorem gathers_of_resolveSelection (hbelow : ∀ f ∈ fields, CompletesBelow vars f)
    (h : (resolveSelection vars parent exports fields).run state = (.ok value, state')) :
    ∃ values, Gathers vars parent exports state.client fields values state'.client ∧
      Fills fields values value := by
  obtain ⟨slots, between, hplanned, h⟩ := Pass.exists_of_run_bind h
  obtain ⟨hslots, rfl⟩ := Pass.eq_of_run_ofExcept hplanned
  obtain ⟨values, last, hvalues, h⟩ := Pass.exists_of_run_bind h
  obtain ⟨rfl, rfl⟩ := Pass.eq_of_run_pure h
  obtain ⟨hlength, hgathers⟩ := gathers_of_resolveFields hbelow hslots hvalues
  exact ⟨values, hgathers, fills_assemble hlength⟩

theorem items_of_mapM (hbelow : ∀ f ∈ fields, CompletesBelow vars f) {entities : List Entity}
    {items : List Json}
    (h : (entities.mapM fun entity => resolveSelection vars (some entity) exports fields).run
      state = (.ok items, state')) :
    Items vars exports fields state.client entities items state'.client := by
  induction entities generalizing items state with
  | nil =>
    obtain ⟨rfl, rfl⟩ := Pass.eq_of_run_pure h
    exact .nil
  | cons entity entities ih =>
    rw [List.mapM_cons] at h
    obtain ⟨object, between, hobject, h⟩ := Pass.exists_of_run_bind h
    obtain ⟨items', last, hitems, h⟩ := Pass.exists_of_run_bind h
    obtain ⟨rfl, rfl⟩ := Pass.eq_of_run_pure h
    obtain ⟨values, hgathers, hfills⟩ := gathers_of_resolveSelection hbelow hobject
    exact .cons hgathers hfills (ih hitems)

/-- Every branch is completed as it should be: by induction on the selections. -/
theorem completesBelow (vars : Variables) (f : Field) : CompletesBelow vars f := by
  induction f using Field.selection_induction with
  | h f ih =>
    intro exports resolved state state' value h
    cases resolved with
    | entity entity =>
      obtain ⟨values, hgathers, hfills⟩ := gathers_of_resolveSelection ih h
      exact .document hgathers hfills
    | entities entities =>
      obtain ⟨items, last, hitems, h⟩ := Pass.exists_of_run_bind h
      obtain ⟨rfl, rfl⟩ := Pass.eq_of_run_pure h
      exact .documents (items_of_mapM ih hitems)
    | deleted typename id =>
      obtain ⟨rfl, rfl⟩ := Pass.eq_of_run_pure h
      refine .deletion ?_ (fills_assemble (List.length_map _))
      exact List.forall₂_map_right_iff.2
        (List.forall₂_same.2 fun g _ => readsDeleted_deletedValue typename id g)

/-- The response of an operation has the shape that the operation asks for. If a pass succeeds, its
data are an object with a key for each root field, in the order in which they come up first; the
last field with a key has its value there; and the values are those that the fields, prepared as
the configuration says, come to in turn, from the client before the pass to the client after it. -/
theorem gathers_of_execute {config : Config} {o : Operation} {c : Client} {data : Json}
    (h : (execute config o c).response = .ok data) :
    (∃ members : Members, data = .object members ∧
      Bindings.keys members = (o.selection.map Field.responseKey).eraseDups) ∧
    ∃ values, Fills (prepare config o).selection values data ∧
      Gathers o.vars none [] c (prepare config o).selection values
        (execute config o c).client := by
  have hrun : (resolveSelection (prepare config o).vars none [] (prepare config o).selection).run
      ⟨c, []⟩ = (.ok data, ⟨(execute config o c).client, (execute config o c).targets⟩) :=
    Prod.ext h rfl
  rw [vars_prepare] at hrun
  obtain ⟨values, hgathers, hfills⟩ :=
    gathers_of_resolveSelection (fun f _ => completesBelow o.vars f) hrun
  obtain ⟨members, hobject, hkeys⟩ := hfills.keys
  refine ⟨⟨members, hobject, ?_⟩, values, hfills, hgathers⟩
  rw [hkeys, selection_prepare, map_responseKey_prepareField]

/-- Deletes a user, and asks for the id and the name. -/
def deleteUser : Field :=
  .mk "deleteUser" none []
    [⟨"mutation", [("mutationType", .literal (.string "delete")),
      ("path", .literal (.string "users.u1")), ("rootType", .literal (.string "collection")),
      ("type", .literal (.string "User")), ("dataArg", .literal (.object []))]⟩]
    [.leaf "id", .leaf "name"]

/-- Queries the users, twice for nothing and then for their names, and deletes one of them. The last
two of the queries have one key. -/
def userFarewell : Operation :=
  usersOperation [.mk "users" (some "bare") [] [usersQuery] [], .mk "users" none [] [usersQuery] [],
    .mk "users" none [] [usersQuery]
      [.leaf "id", .mk "name" (some "called") [] [] [], .leaf "age"],
    deleteUser]

theorem gathers_of_execute_userFarewell :
    ∃ data, (execute {} userFarewell userClient).response = .ok data ∧
      data = .object [("bare", .object []),
        ("users", .array [.object [("id", .string "u1"), ("called", .string "Ada"), ("age", .null),
          ("__typename", .string "User")]]),
        ("deleteUser", .object [("id", .string "u1"), ("name", .null),
          ("__typename", .string "User")])] ∧
      (∃ members : Members, data = .object members ∧
        Bindings.keys members = ["bare", "users", "deleteUser"]) ∧
      ∃ values, Fills (prepare {} userFarewell).selection values data ∧
        Gathers userFarewell.vars none [] userClient (prepare {} userFarewell).selection values
          (execute {} userFarewell userClient).client := by
  have hresponse : (execute {} userFarewell userClient).response = .ok (.object
      [("bare", .object []),
        ("users", .array [.object [("id", .string "u1"), ("called", .string "Ada"), ("age", .null),
          ("__typename", .string "User")]]),
        ("deleteUser", .object [("id", .string "u1"), ("name", .null),
          ("__typename", .string "User")])]) := Json.eq_ok_of_compact (by decide +kernel)
  exact ⟨_, hresponse, rfl, gathers_of_execute hresponse⟩

end Executor

end LiveDocs
