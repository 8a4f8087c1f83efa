import LiveDocs.Proofs.Except
import LiveDocs.Query.Build

/-!
# Queries that arguments describe

An argument of a query counts if its template resolves to a value that is not falsy. Each argument
has a shape of its own, and one of its shape describes operations. A query is built from arguments
exactly if all that count have their shapes; its operations are then those that the arguments
describe, in the order of `QueryParameter.all`. Otherwise the first argument in that order that
does not have its shape is reported. Main statements: `Json.isFalsy_iff`; `Query.build_iff`.
-/

namespace LiveDocs

/-! ### Values that count as absent -/

/-- The value counts as absent: it is null, false, a zero of any kind, or the empty text. -/
inductive Json.Falsy : Json → Prop where
  | null : Falsy .null
  | false : Falsy (.bool false)
  | int : Falsy (.int 0)
  | double (negative : Bool) : Falsy (.number (.double (.zero negative)))
  | string : Falsy (.string "")

theorem Json.isFalsy_iff {v : Json} : v.isFalsy = true ↔ v.Falsy := by
  constructor
  · intro h
    cases v with
    | null => exact .null
    | bool value =>
      cases value with
      | false => exact .false
      | true => cases h
    | number n =>
      cases n with
      | int value =>
        obtain rfl := Number.Double.isZero_ofInt_iff.1 h
        exact .int
      | double d =>
        obtain ⟨negative, magnitude, finite⟩ := d
        obtain rfl : magnitude = 0 := beq_iff_eq.1 h
        exact .double negative
    | string s =>
      obtain rfl : s = "" := beq_iff_eq.1 h
      exact .string
    | array items => cases h
    | object members => cases h
  · intro h
    cases h with
    | int => exact Number.Double.isZero_ofInt_iff.2 rfl
    | null | false | double | string => rfl

/-! ### What values describe -/

namespace Json

/-- An object that describes a condition: the path of a field, an operator, and a value, which is
null unless it is given. -/
structure DescribesFilter (v : Json) (condition : Filter) : Prop where
  field : v.get? "fieldPath" = some (.string condition.field)
  op : v.get? "op" = some (.string condition.op.name)
  value : condition.value = (v.get? "val").getD .null

/-- An object that names a field and an operator. -/
def IsFilter (v : Json) : Prop :=
  ∃ (field : String) (op : FilterOp),
    v.get? "fieldPath" = some (.string field) ∧ v.get? "op" = some (.string op.name)

theorem isFilter_iff {v : Json} : v.IsFilter ↔ ∃ condition, v.DescribesFilter condition := by
  constructor
  · rintro ⟨field, op, hfield, hop⟩
    exact ⟨⟨field, op, (v.get? "val").getD .null⟩, hfield, hop, rfl⟩
  · rintro ⟨condition, hcondition⟩
    exact ⟨condition.field, condition.op, hcondition.field, hcondition.op⟩

/-- The direction of a sort order: ascending unless one is named, in letters of either case. -/
inductive Directs (v : Json) : Direction → Prop where
  | absent (h : v.get? "direction" = none) : Directs v .ascending
  | null (h : v.get? "direction" = some .null) : Directs v .ascending
  | named {name : String} {direction : Direction}
      (h : v.get? "direction" = some (.string name))
      (hname : Text.asciiLower name = direction.name) : Directs v direction

end Json

theorem FilterOp.ofName?_eq_some_iff {s : String} {op : FilterOp} :
    ofName? s = some op ↔ s = op.name := by
  constructor
  · intro h
    unfold ofName? at h
    split at h <;> cases h <;> rfl
  · rintro rfl
    exact ofName?_name op

theorem Direction.ofName?_eq_some_iff {s : String} {direction : Direction} :
    ofName? s = some direction ↔ Text.asciiLower s = direction.name := by
  constructor
  · intro h
    unfold ofName? at h
    split at h <;> cases h <;> assumption
  · intro h
    rw [ofName?, h]
    cases direction <;> rfl

namespace Query

theorem filter?_eq_some_iff {v : Json} {condition : Filter} :
    filter? v = some condition ↔ v.DescribesFilter condition := by
  constructor
  · intro h
    obtain ⟨field, hfield, h⟩ := Option.bind_eq_some_iff.1 h
    obtain ⟨op, hop, h⟩ := Option.bind_eq_some_iff.1 h
    obtain ⟨name, hname, hop⟩ := Option.bind_eq_some_iff.1 hop
    obtain rfl := FilterOp.ofName?_eq_some_iff.1 hop
    obtain rfl := Option.some.inj h
    exact ⟨Json.bind_string?_eq_some_iff.1 hfield, Json.bind_string?_eq_some_iff.1 hname, rfl⟩
  · rintro ⟨hfield, hop, hvalue⟩
    have hname := FilterOp.ofName?_name condition.op
    rw [filter?, hfield, hop]
    change (FilterOp.ofName? condition.op.name).bind _ = _
    rw [hname, Option.bind_some, ← hvalue]
    rfl

theorem direction?_eq_some_iff {v : Json} {direction : Direction} :
    direction? v = some direction ↔ v.Directs direction := by
  constructor
  · intro h
    unfold direction? at h
    split at h
    · rename_i habsent
      obtain rfl := Option.some.inj h
      exact .absent habsent
    · rename_i hnull
      obtain rfl := Option.some.inj h
      exact .null hnull
    · rename_i name hnamed
      exact .named hnamed (Direction.ofName?_eq_some_iff.1 h)
    · cases h
  · rintro (h | h | ⟨h, hname⟩)
    · rw [direction?, h]
    · rw [direction?, h]
    · rw [direction?, h]
      exact Direction.ofName?_eq_some_iff.2 hname

end Query

/-! ### Parameters -/

/-- A parameter of a query. -/
inductive QueryParameter where
  | cursor (bound : Bound)
  | filters
  | orderBy
  | limit

namespace QueryParameter

/-- All parameters, in the order in which they apply. -/
def all : List QueryParameter :=
  [cursor .endAt, cursor .endBefore, cursor .startAfter, cursor .startAt, filters, orderBy, limit]

theorem mem_all (p : QueryParameter) : p ∈ all := by
  rcases p with bound | _ | _ | _
  · cases bound <;> simp [all]
  all_goals simp [all]

/-- The argument for a parameter. -/
def template? (args : QueryArguments) : QueryParameter → Option Template
  | cursor .endAt => args.endAt
  | cursor .endBefore => args.endBefore
  | cursor .startAfter => args.startAfter
  | cursor .startAt => args.startAt
  | filters => args.filters
  | orderBy => args.orderBy
  | limit => args.limit

/-- The parameter is given: its argument resolves to this value, which is not falsy. -/
def Given (scope : Scope) (args : QueryArguments) (p : QueryParameter) (v : Json) : Prop :=
  ∃ template, p.template? args = some template ∧ template.resolve scope = v ∧ ¬ v.Falsy

/-- The value has the shape that the parameter asks for. -/
inductive WellShaped : QueryParameter → Json → Prop where
  | id (bound : Bound) (id : String) : WellShaped (cursor bound) (.string id)
  | number (bound : Bound) (n : JsonNumber) : WellShaped (cursor bound) (.number n)
  | filters {items : List Json} (h : ∀ item ∈ items, item.IsFilter) :
      WellShaped filters (.array items)
  | orderBy {v : Json} {field : String} {direction : Direction}
      (hfield : v.get? "fieldPath" = some (.string field)) (hdirection : v.Directs direction) :
      WellShaped orderBy v
  | limit (n : Nat) : WellShaped limit (.nat n)

/-- The operations that a parameter's value describes on a collection. -/
inductive Describes (collection : CollectionRef) :
    QueryParameter → Json → List QueryOp → Prop where
  | id (bound : Bound) (id : String) :
      Describes collection (cursor bound) (.string id) [.cursor bound (collection.doc id)]
  | number (bound : Bound) (n : JsonNumber) :
      Describes collection (cursor bound) (.number n) [.cursor bound (collection.doc n.text)]
  | filters {items : List Json} {conditions : List Filter}
      (h : List.Forall₂ Json.DescribesFilter items conditions) :
      Describes collection filters (.array items) (conditions.map .filter)
  | orderBy {v : Json} {field : String} {direction : Direction}
      (hfield : v.get? "fieldPath" = some (.string field)) (hdirection : v.Directs direction) :
      Describes collection orderBy v [.orderBy field direction]
  | limit (n : Nat) : Describes collection limit (.nat n) [.limit n]

/-- The error about a value that does not have the shape of a parameter. The filters of a list are
looked at one by one, so that the first that is wrong is named. -/
inductive Complains : QueryParameter → Json → ConfigError → Prop where
  | cursor {bound : Bound} {v : Json} (h : ¬ WellShaped (cursor bound) v) :
      Complains (cursor bound) v (.queryArgument bound.name .documentId v)
  | filterList {v : Json} (h : ∀ items, v ≠ .array items) :
      Complains filters v (.queryArgument "where" .filterList v)
  | filter {front rest : List Json} {item : Json} (hfront : ∀ other ∈ front, other.IsFilter)
      (hitem : ¬ item.IsFilter) :
      Complains filters (.array (front ++ item :: rest)) (.queryArgument "where" .filter item)
  | orderBy {v : Json} (h : ¬ WellShaped orderBy v) :
      Complains orderBy v (.queryArgument "orderBy" .ordering v)
  | limit {v : Json} (h : ¬ WellShaped limit v) :
      Complains limit v (.queryArgument "limit" .count v)

/-- What a parameter adds to a query: nothing if it is not given, otherwise the operations that its
value describes. -/
inductive Contributes (scope : Scope) (args : QueryArguments) (p : QueryParameter) :
    List QueryOp → Prop where
  | absent (h : ∀ v, ¬ Given scope args p v) : Contributes scope args p []
  | described {v : Json} {ops : List QueryOp} (hv : Given scope args p v)
      (h : Describes scope.collection p v ops) : Contributes scope args p ops

/-! ### Reading a parameter -/

variable {collection : CollectionRef} {scope : Scope} {args : QueryArguments} {p : QueryParameter}
  {v : Json}

/-- The condition that an item of the filter list stands for. -/
def readFilter (item : Json) : Except ConfigError QueryOp :=
  match Query.filter? item with
  | some condition => .ok (.filter condition)
  | none => .error (.queryArgument "where" .filter item)

/-- The conditions that the filter list stands for. -/
def readFilters : Json → Except ConfigError (List QueryOp)
  | .array items => items.mapM readFilter
  | v => .error (.queryArgument "where" .filterList v)

/-- The operations that the value of a parameter stands for. -/
def read (collection : CollectionRef) : QueryParameter → Json → Except ConfigError (List QueryOp)
  | cursor bound, v =>
    match Query.cursorId? v with
    | some id => .ok [.cursor bound (collection.doc id)]
    | none => .error (.queryArgument bound.name .documentId v)
  | filters, v => readFilters v
  | orderBy, v =>
    match (v.get? "fieldPath").bind Json.string?, Query.direction? v with
    | some field, some direction => .ok [.orderBy field direction]
    | _, _ => .error (.queryArgument "orderBy" .ordering v)
  | limit, v =>
    match v.nat? with
    | some n => .ok [.limit n]
    | none => .error (.queryArgument "limit" .count v)

theorem readFilter_eq_ok_iff {item : Json} {op : QueryOp} :
    readFilter item = .ok op ↔
      ∃ condition, item.DescribesFilter condition ∧ op = .filter condition := by
  constructor
  · intro h
    unfold readFilter at h
    split at h
    · rename_i condition hcondition
      exact ⟨condition, Query.filter?_eq_some_iff.1 hcondition, (Except.ok.inj h).symm⟩
    · cases h
  · rintro ⟨condition, hcondition, rfl⟩
    rw [readFilter, Query.filter?_eq_some_iff.2 hcondition]

theorem exists_readFilter_eq_ok_iff {item : Json} :
    (∃ op, readFilter item = .ok op) ↔ item.IsFilter := by
  rw [Json.isFilter_iff]
  constructor
  · rintro ⟨op, hop⟩
    obtain ⟨condition, hcondition, -⟩ := readFilter_eq_ok_iff.1 hop
    exact ⟨condition, hcondition⟩
  · rintro ⟨condition, hcondition⟩
    exact ⟨.filter condition, readFilter_eq_ok_iff.2 ⟨condition, hcondition, rfl⟩⟩

theorem readFilter_eq_error_iff {item : Json} {e : ConfigError} :
    readFilter item = .error e ↔ ¬ item.IsFilter ∧ e = .queryArgument "where" .filter item := by
  rw [← exists_readFilter_eq_ok_iff, readFilter]
  split <;> simp [eq_comm]

/-- The filters of a list are read one by one. -/
theorem mapM_readFilter_eq_ok_iff {items : List Json} {ops : List QueryOp} :
    items.mapM readFilter = .ok ops ↔
      ∃ conditions, List.Forall₂ Json.DescribesFilter items conditions ∧
        ops = conditions.map .filter := by
  rw [mapM_eq_ok_iff]
  simp only [readFilter_eq_ok_iff]
  constructor
  · intro h
    induction h with
    | nil => exact ⟨[], .nil, rfl⟩
    | cons hop _ ih =>
      obtain ⟨condition, hcondition, rfl⟩ := hop
      obtain ⟨conditions, hconditions, rfl⟩ := ih
      exact ⟨condition :: conditions, .cons hcondition hconditions, rfl⟩
  · rintro ⟨conditions, hconditions, rfl⟩
    induction hconditions with
    | nil => exact .nil
    | cons hcondition _ ih => exact .cons ⟨_, hcondition, rfl⟩ ih

theorem cursorId?_eq_some_iff {id : String} :
    Query.cursorId? v = some id ↔
      v = .string id ∨ ∃ n : JsonNumber, v = .number n ∧ n.text = id := by
  cases v <;> simp [Query.cursorId?]

theorem read_of_describes {ops : List QueryOp} (h : Describes collection p v ops) :
    read collection p v = .ok ops := by
  cases h with
  | id | number => rfl
  | filters h => exact mapM_readFilter_eq_ok_iff.2 ⟨_, h, rfl⟩
  | orderBy hfield hdirection =>
    rw [read, Json.bind_string?_eq_some_iff.2 hfield, Query.direction?_eq_some_iff.2 hdirection]
  | limit n => rw [read, Json.nat?_eq_some_iff.2 rfl]

theorem describes_of_read {ops : List QueryOp} (h : read collection p v = .ok ops) :
    Describes collection p v ops := by
  cases p with
  | cursor bound =>
    rw [read] at h
    split at h
    · rename_i id hid
      obtain rfl := Except.ok.inj h
      obtain rfl | ⟨n, rfl, rfl⟩ := cursorId?_eq_some_iff.1 hid
      · exact .id bound id
      · exact .number bound n
    · cases h
  | filters =>
    rw [read] at h
    unfold readFilters at h
    split at h
    · obtain ⟨conditions, hconditions, rfl⟩ := mapM_readFilter_eq_ok_iff.1 h
      exact .filters hconditions
    · cases h
  | orderBy =>
    rw [read] at h
    split at h
    · rename_i field direction hfield hdirection
      obtain rfl := Except.ok.inj h
      exact .orderBy (Json.bind_string?_eq_some_iff.1 hfield)
        (Query.direction?_eq_some_iff.1 hdirection)
    · cases h
  | limit =>
    rw [read] at h
    split at h
    · rename_i n hn
      obtain rfl := Json.nat?_eq_some_iff.1 hn
      obtain rfl := Except.ok.inj h
      exact .limit n
    · cases h

/-- A value has the shape of a parameter exactly if it describes operations. -/
theorem wellShaped_iff : WellShaped p v ↔ ∃ ops, Describes collection p v ops := by
  constructor
  · intro h
    cases h with
    | id bound id => exact ⟨_, .id bound id⟩
    | number bound n => exact ⟨_, .number bound n⟩
    | filters h =>
      -- one run of the reader gives the conditions of all items at once
      obtain ⟨ops, hops⟩ := exists_mapM_eq_ok_iff.2 fun item hitem =>
        exists_readFilter_eq_ok_iff.2 (h item hitem)
      exact ⟨ops, describes_of_read (p := filters) hops⟩
    | orderBy hfield hdirection => exact ⟨_, .orderBy hfield hdirection⟩
    | limit n => exact ⟨_, .limit n⟩
  · rintro ⟨ops, h⟩
    cases h with
    | id bound id => exact .id bound id
    | number bound n => exact .number bound n
    | filters h =>
      refine .filters fun item hitem => Json.isFilter_iff.2 ?_
      obtain ⟨condition, -, hcondition⟩ := exists_of_forall₂ h hitem
      exact ⟨condition, hcondition⟩
    | orderBy hfield hdirection => exact .orderBy hfield hdirection
    | limit n => exact .limit n

theorem exists_read_eq_ok_iff : (∃ ops, read collection p v = .ok ops) ↔ WellShaped p v := by
  rw [wellShaped_iff]
  exact exists_congr fun ops => ⟨describes_of_read, read_of_describes⟩

theorem complains_of_read {e : ConfigError} (h : read collection p v = .error e) :
    Complains p v e := by
  have hshape : ¬ WellShaped p v := fun hshape => by
    obtain ⟨ops, hops⟩ := exists_read_eq_ok_iff.2 hshape
    cases h.symm.trans hops
  cases p with
  | filters =>
    rw [read] at h
    unfold readFilters at h
    split at h
    · obtain ⟨front, item, rest, rfl, hfront, hitem⟩ := mapM_eq_error_iff.1 h
      obtain ⟨hwrong, rfl⟩ := readFilter_eq_error_iff.1 hitem
      exact .filter (fun other hother => exists_readFilter_eq_ok_iff.1 (hfront other hother)) hwrong
    · rename_i hlist
      obtain rfl := Except.error.inj h
      exact .filterList hlist
  | cursor | orderBy | limit =>
    rw [read] at h
    split at h
    · cases h
    · obtain rfl := Except.error.inj h
      constructor
      exact hshape

theorem read_of_complains {e : ConfigError} (h : Complains p v e) :
    read collection p v = .error e := by
  cases h with
  | filterList h =>
    rw [read]
    unfold readFilters
    split
    · exact absurd rfl (h _)
    · rfl
  | @filter front rest item hfront hitem =>
    have hread := fun other hother => exists_readFilter_eq_ok_iff.2 (hfront other hother)
    exact mapM_eq_error_iff.2
      ⟨front, item, rest, rfl, hread, readFilter_eq_error_iff.2 ⟨hitem, rfl⟩⟩
  | cursor h | orderBy h | limit h =>
    rcases hread : read collection _ v with e' | ops
    · cases complains_of_read hread
      rfl
    · exact absurd (exists_read_eq_ok_iff.1 ⟨ops, hread⟩) h

/-! ### All parameters -/

/-- What a parameter adds to a query, if its argument can be read. -/
def contribution (scope : Scope) (args : QueryArguments) (p : QueryParameter) :
    Except ConfigError (List QueryOp) :=
  match Query.argument? scope (p.template? args) with
  | none => .ok []
  | some v => read scope.collection p v

theorem argument?_eq_some_iff :
    Query.argument? scope (p.template? args) = some v ↔ Given scope args p v := by
  rw [Query.argument?, Option.filter_eq_some_iff, Option.map_eq_some_iff, Given, ← Json.isFalsy_iff,
    Bool.not_eq_true', Bool.not_eq_true]
  constructor
  · rintro ⟨⟨template, htemplate, hv⟩, hcounts⟩
    exact ⟨template, htemplate, hv, hcounts⟩
  · rintro ⟨template, htemplate, hv, hcounts⟩
    exact ⟨⟨template, htemplate, hv⟩, hcounts⟩

theorem contribution_of_given (hv : Given scope args p v) :
    contribution scope args p = read scope.collection p v := by
  rw [contribution, argument?_eq_some_iff.2 hv]

theorem contribution_of_absent (h : ∀ v, ¬ Given scope args p v) :
    contribution scope args p = .ok [] := by
  have hnone : Query.argument? scope (p.template? args) = none :=
    Option.eq_none_iff_forall_ne_some.2 fun v hv => h v (argument?_eq_some_iff.1 hv)
  rw [contribution, hnone]

theorem contribution_eq_ok_iff {ops : List QueryOp} :
    contribution scope args p = .ok ops ↔ Contributes scope args p ops := by
  constructor
  · intro h
    by_cases hgiven : ∃ v, Given scope args p v
    · obtain ⟨v, hv⟩ := hgiven
      rw [contribution_of_given hv] at h
      exact .described hv (describes_of_read h)
    · rw [contribution_of_absent (not_exists.1 hgiven)] at h
      obtain rfl := Except.ok.inj h
      exact .absent (not_exists.1 hgiven)
  · rintro (habsent | ⟨hv, hdescribes⟩)
    · exact contribution_of_absent habsent
    · exact (contribution_of_given hv).trans (read_of_describes hdescribes)

theorem contribution_eq_error_iff {e : ConfigError} :
    contribution scope args p = .error e ↔ ∃ v, Given scope args p v ∧ Complains p v e := by
  constructor
  · intro h
    by_cases hgiven : ∃ v, Given scope args p v
    · obtain ⟨v, hv⟩ := hgiven
      rw [contribution_of_given hv] at h
      exact ⟨v, hv, complains_of_read h⟩
    · rw [contribution_of_absent (not_exists.1 hgiven)] at h
      cases h
  · rintro ⟨v, hv, hcomplains⟩
    exact (contribution_of_given hv).trans (read_of_complains hcomplains)

theorem exists_contribution_eq_ok_iff :
    (∃ ops, contribution scope args p = .ok ops) ↔ ∀ v, Given scope args p v → WellShaped p v := by
  constructor
  · rintro ⟨ops, h⟩ v hv
    rw [contribution_of_given hv] at h
    exact exists_read_eq_ok_iff.1 ⟨ops, h⟩
  · intro hshape
    by_cases hgiven : ∃ v, Given scope args p v
    · obtain ⟨v, hv⟩ := hgiven
      obtain ⟨ops, hops⟩ : ∃ ops, read scope.collection p v = .ok ops :=
        exists_read_eq_ok_iff.2 (hshape v hv)
      exact ⟨ops, (contribution_of_given hv).trans hops⟩
    · exact ⟨[], contribution_of_absent (not_exists.1 hgiven)⟩

theorem cursorOps_eq (bound : Bound) :
    Query.cursorOps scope bound ((cursor bound).template? args) =
      contribution scope args (cursor bound) := rfl

theorem filterOps_eq : Query.filterOps scope args.filters = contribution scope args filters := by
  rw [Query.filterOps, contribution, template?]
  rcases Query.argument? scope args.filters with _ | v
  · rfl
  · cases v <;> rfl

theorem orderOps_eq : Query.orderOps scope args.orderBy = contribution scope args orderBy := rfl

theorem limitOps_eq : Query.limitOps scope args.limit = contribution scope args limit := rfl

/-- A query is built from what its parameters add, one after the other. -/
theorem build_eq :
    Query.build scope args =
      (fun parts => ⟨scope.collection, parts.flatten⟩) <$> all.mapM (contribution scope args) := by
  rw [Query.build, all, filterOps_eq, orderOps_eq, limitOps_eq]
  simp only [List.mapM_cons, List.mapM_nil, ← cursorOps_eq, template?, map_eq_pure_bind,
    bind_assoc, pure_bind, List.flatten_cons, List.flatten_nil, List.append_assoc, List.append_nil]

end QueryParameter

open QueryParameter

/-- A query that is built consists of what its parameters add. -/
theorem Query.build_eq_ok_iff {scope : Scope} {args : QueryArguments} {q : Query} :
    build scope args = .ok q ↔ q.collection = scope.collection ∧
      ∃ parts, List.Forall₂ (Contributes scope args) QueryParameter.all parts ∧
        q.ops = parts.flatten := by
  have hparts : ∀ parts, QueryParameter.all.mapM (contribution scope args) = .ok parts ↔
      List.Forall₂ (Contributes scope args) QueryParameter.all parts := fun parts => by
    simp only [mapM_eq_ok_iff, contribution_eq_ok_iff]
  rw [build_eq]
  constructor
  · intro h
    obtain ⟨parts, hrun, rfl⟩ := exists_of_map_ok h
    exact ⟨rfl, parts, (hparts parts).1 hrun, rfl⟩
  · rintro ⟨hcollection, parts, h, hops⟩
    obtain ⟨collection, ops⟩ := q
    obtain rfl : collection = scope.collection := hcollection
    obtain rfl : ops = parts.flatten := hops
    rw [(hparts parts).2 h]
    rfl

/-- A query is built unless a parameter does not have its shape. -/
theorem Query.exists_build_eq_ok_iff {scope : Scope} {args : QueryArguments} :
    (∃ q, build scope args = .ok q) ↔ ∀ p v, Given scope args p v → WellShaped p v := by
  have hmap : (∃ q, build scope args = .ok q) ↔
      ∃ parts, QueryParameter.all.mapM (contribution scope args) = .ok parts := by
    rw [build_eq]
    constructor
    · rintro ⟨q, h⟩
      obtain ⟨parts, hrun, -⟩ := exists_of_map_ok h
      exact ⟨parts, hrun⟩
    · rintro ⟨parts, h⟩
      exact ⟨_, by rw [h]; rfl⟩
  rw [hmap, exists_mapM_eq_ok_iff]
  simp only [exists_contribution_eq_ok_iff]
  exact ⟨fun h p => h p p.mem_all, fun h p _ => h p⟩

/-- A query that is not built has a first parameter that does not have its shape. -/
theorem Query.build_eq_error_iff {scope : Scope} {args : QueryArguments} {e : ConfigError} :
    build scope args = .error e ↔ ∃ front p rest v,
      QueryParameter.all = front ++ p :: rest ∧
      (∀ p' ∈ front, ∀ v', Given scope args p' v' → WellShaped p' v') ∧
      Given scope args p v ∧ Complains p v e := by
  have hmap : build scope args = .error e ↔
      QueryParameter.all.mapM (contribution scope args) = .error e := by
    rw [build_eq]
    exact ⟨error_of_map, fun h => by rw [h]; rfl⟩
  rw [hmap, mapM_eq_error_iff]
  simp only [exists_contribution_eq_ok_iff, contribution_eq_error_iff, ← exists_and_left]

/-- A query is built exactly if each parameter that is given has its shape. It then consists of what
the values of its parameters describe, parameter by parameter; otherwise the first parameter is
reported whose value does not have its shape. -/
theorem Query.build_iff (scope : Scope) (args : QueryArguments) :
    (∀ q, build scope args = .ok q ↔ q.collection = scope.collection ∧
      ∃ parts, List.Forall₂ (Contributes scope args) QueryParameter.all parts ∧
        q.ops = parts.flatten) ∧
    ((∃ q, build scope args = .ok q) ↔ ∀ p v, Given scope args p v → WellShaped p v) ∧
    ∀ e, build scope args = .error e ↔ ∃ front p rest v,
      QueryParameter.all = front ++ p :: rest ∧
      (∀ p' ∈ front, ∀ v', Given scope args p' v' → WellShaped p' v') ∧
      Given scope args p v ∧ Complains p v e :=
  ⟨fun _ => build_eq_ok_iff, exists_build_eq_ok_iff, fun _ => build_eq_error_iff⟩

example (scope : Scope) :
    Query.build scope
      { filters := some (.ofValue (.object [])), limit := some (.ofValue (.bool true)) } =
      .error (.queryArgument "where" .filterList (.object [])) := rfl

end LiveDocs
