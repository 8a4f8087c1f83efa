import LiveDocs.Proofs.Template.Placeholder

/-!
# What templates replace

A position in a JSON value is a list of steps, into members of objects and items of arrays. A
template replaces the strings at the first positions only: the argument itself, a member or an item
of it, and a member of an item that is an object. Main statements: `Json.mapStrings_eq_self` and
`Json.holds_mapStrings`, the laws of replacing strings by position; `Template.resolve_ofArgument`.
-/

namespace LiveDocs

namespace Json

/-! ### Positions -/

/-- One step down into a value. -/
inductive Step where
  | member (key : String)
  | item (index : Nat)

/-- A value is what another one holds at a position. -/
inductive Holds : Json → List Step → Json → Prop where
  | here (v : Json) : Holds v [] v
  | member {members : List (String × Json)} {key : String} {v w : Json} {position : List Step}
      (hmember : (key, v) ∈ members) (h : Holds v position w) :
      Holds (.object members) (.member key :: position) w
  | item {items : List Json} {i : Nat} {v w : Json} {position : List Step}
      (hitem : items[i]? = some v) (h : Holds v position w) :
      Holds (.array items) (.item i :: position) w

mutual

/-- Replaces the strings in a value, each by what its position calls for. All else stays. -/
def mapStrings (f : List Step → String → Json) (position : List Step) : Json → Json
  | null => null
  | bool value => bool value
  | number value => number value
  | string value => f position value
  | array items => array (mapItems f position 0 items)
  | object members => object (mapMembers f position members)

/-- Replaces the strings in items, which are counted from an index on. -/
def mapItems (f : List Step → String → Json) (position : List Step) :
    Nat → List Json → List Json
  | _, [] => []
  | i, item :: rest =>
    mapStrings f (position ++ [.item i]) item :: mapItems f position (i + 1) rest

/-- Replaces the strings in the values of members. -/
def mapMembers (f : List Step → String → Json) (position : List Step) :
    List (String × Json) → List (String × Json)
  | [] => []
  | (key, value) :: rest =>
    (key, mapStrings f (position ++ [.member key]) value) :: mapMembers f position rest

end

variable {f : List Step → String → Json} {position : List Step}

theorem keys_mapMembers (members : List (String × Json)) :
    Bindings.keys (mapMembers f position members) = Bindings.keys members := by
  induction members with
  | nil => rfl
  | cons member rest ih => exact congrArg (member.1 :: ·) ih

theorem getElem?_mapItems (i j : Nat) (items : List Json) :
    (mapItems f position i items)[j]? =
      items[j]?.map (mapStrings f (position ++ [.item (i + j)])) := by
  induction items generalizing i j with
  | nil => rfl
  | cons item rest ih =>
    rw [mapItems]
    rcases j with - | j
    · rfl
    · have hindex : i + 1 + j = i + (j + 1) := by omega
      rw [List.getElem?_cons_succ, List.getElem?_cons_succ, ih, hindex]

theorem length_mapItems (i : Nat) (items : List Json) :
    (mapItems f position i items).length = items.length := by
  induction items generalizing i with
  | nil => rfl
  | cons item rest ih => exact congrArg (· + 1) (ih (i + 1))

theorem mem_mapMembers {key : String} {v : Json} {members : List (String × Json)}
    (h : (key, v) ∈ members) :
    (key, mapStrings f (position ++ [.member key]) v) ∈ mapMembers f position members := by
  induction members with
  | nil => exact (List.not_mem_nil h).elim
  | cons member rest ih =>
    rcases List.mem_cons.1 h with rfl | hrest
    · exact List.mem_cons_self
    · exact List.mem_cons_of_mem _ (ih hrest)

/-- What a value holds at a position is there afterwards, with its own strings replaced. -/
theorem holds_mapStrings {v w : Json} {path : List Step} (h : v.Holds path w) :
    (v.mapStrings f position).Holds path (w.mapStrings f (position ++ path)) := by
  induction h generalizing position with
  | here v =>
    rw [List.append_nil]
    exact .here _
  | @member members key v w path hmember _ ih =>
    have hbelow : (v.mapStrings f (position ++ [.member key])).Holds path
        (w.mapStrings f (position ++ [.member key] ++ path)) := ih
    rw [List.append_assoc, List.singleton_append] at hbelow
    rw [mapStrings]
    exact .member (mem_mapMembers hmember) hbelow
  | @item items i v w path hitem _ ih =>
    have hbelow : (v.mapStrings f (position ++ [.item i])).Holds path
        (w.mapStrings f (position ++ [.item i] ++ path)) := ih
    rw [List.append_assoc, List.singleton_append] at hbelow
    have hat : (mapItems f position 0 items)[i]? =
        some (v.mapStrings f (position ++ [.item i])) := by
      rw [getElem?_mapItems, hitem, Nat.zero_add, Option.map_some]
    rw [mapStrings]
    exact .item hat hbelow

mutual

/-- A value in which each string is replaced by itself stays as it is. -/
theorem mapStrings_eq_self {position : List Step} (v : Json)
    (h : ∀ path s, v.Holds path (.string s) → f (position ++ path) s = .string s) :
    v.mapStrings f position = v := by
  cases v with
  | null => rfl
  | bool value => rfl
  | number value => rfl
  | string value =>
    have hself := h [] value (.here _)
    rwa [List.append_nil] at hself
  | array items =>
    rw [mapStrings, mapItems_eq_self 0 items]
    intro j item path s hitem hs
    rw [Nat.zero_add]
    exact h (.item j :: path) s (.item hitem hs)
  | object members =>
    rw [mapStrings, mapMembers_eq_self members]
    exact fun key v path s hmember hs => h (.member key :: path) s (.member hmember hs)

theorem mapItems_eq_self {position : List Step} (i : Nat) (items : List Json)
    (h : ∀ j item path s, items[j]? = some item → item.Holds path (.string s) →
      f (position ++ .item (i + j) :: path) s = .string s) :
    mapItems f position i items = items := by
  cases items with
  | nil => rfl
  | cons item rest =>
    rw [mapItems, mapStrings_eq_self item, mapItems_eq_self (i + 1) rest]
    · intro j item' path s hitem hs
      have hindex : i + 1 + j = i + (j + 1) := by omega
      rw [hindex]
      exact h (j + 1) item' path s hitem hs
    · intro path s hs
      rw [List.append_assoc]
      exact h 0 item path s rfl hs

theorem mapMembers_eq_self {position : List Step} (members : List (String × Json))
    (h : ∀ key v path s, (key, v) ∈ members → v.Holds path (.string s) →
      f (position ++ .member key :: path) s = .string s) :
    mapMembers f position members = members := by
  cases members with
  | nil => rfl
  | cons member rest =>
    rw [mapMembers, mapStrings_eq_self member.2, mapMembers_eq_self rest]
    · exact fun key v path s hmember => h key v path s (List.mem_cons_of_mem _ hmember)
    · intro path s hs
      rw [List.append_assoc]
      exact h member.1 member.2 path s List.mem_cons_self hs

end

end Json

namespace Template

/-! ### The first positions -/

/-- The positions at which a template replaces strings: the argument, a member of it if it is an
object, an item of it if it is a list, and a member of an item that is an object. -/
def Reaches : List Json.Step → Bool
  | [] => true
  | [.member _] => true
  | [.item _] => true
  | [.item _, .member _] => true
  | _ => false

/-- What a template makes of the string at a position. -/
def replacement (scope : Scope) (position : List Json.Step) (s : String) : Json :=
  if Reaches position then (Substitution.ofValue (.string s)).resolve scope else .string s

variable {scope : Scope} {position : List Json.Step} {v : Json}

/-- Below a position that is not reached nothing is reached. -/
theorem reaches_append (h : Reaches position = false) (path : List Json.Step) :
    Reaches (position ++ path) = false := by
  rcases position with - | ⟨first, - | ⟨second, - | ⟨third, rest⟩⟩⟩
  · cases h
  · cases first <;> cases h
  · rcases first with key | i
    · rfl
    · rcases second with key | j
      · cases h
      · rfl
  · rcases first with key | i
    · rfl
    · cases second <;> rfl

theorem mapStrings_of_not_reaches (h : Reaches position = false) (v : Json) :
    v.mapStrings (replacement scope) position = v := by
  refine v.mapStrings_eq_self fun path s _ => ?_
  rw [replacement, reaches_append h, if_neg Bool.false_ne_true]

/-- Of a value below which nothing is reached, nothing is replaced but the value itself, if it is a
string. -/
theorem resolve_substitution (hposition : Reaches position = true)
    (hbelow : ∀ step, Reaches (position ++ [step]) = false) (v : Json) :
    (Substitution.ofValue v).resolve scope = v.mapStrings (replacement scope) position := by
  by_cases hstring : ∃ s, v = .string s
  · obtain ⟨s, rfl⟩ := hstring
    rw [Json.mapStrings, replacement, if_pos hposition]
  · have hliteral : Substitution.ofValue v = .literal v := by
      unfold Substitution.ofValue
      split
      · exact (hstring ⟨_, rfl⟩).elim
      · rfl
    have hself : v.mapStrings (replacement scope) position = v := by
      refine v.mapStrings_eq_self fun path s hs => ?_
      rcases path with - | ⟨step, path⟩
      · cases hs
        exact (hstring ⟨s, rfl⟩).elim
      · have hreaches : Reaches (position ++ step :: path) = false := by
          rw [List.append_cons]
          exact reaches_append (hbelow step) path
        rw [replacement, hreaches, if_neg Bool.false_ne_true]
    rw [hliteral, hself]
    rfl

/-- A value of which the members, and nothing else below it, are reached. -/
theorem resolve_item (hposition : Reaches position = true)
    (hmember : ∀ key, Reaches (position ++ [.member key]) = true)
    (hbelow : ∀ key step, Reaches (position ++ [.member key] ++ [step]) = false)
    (hitem : ∀ items, v = .array items → ∀ i, Reaches (position ++ [.item i]) = false) :
    (TemplateItem.ofValue v).resolve scope = v.mapStrings (replacement scope) position := by
  have hmembers : ∀ members : List (String × Json),
      (TemplateItem.ofValue (.object members)).resolve scope =
        .object (Json.mapMembers (replacement scope) position members) := by
    intro members
    induction members with
    | nil => rfl
    | cons member rest ih =>
      obtain ⟨key, v⟩ := member
      rw [Json.mapMembers, ← resolve_substitution (hmember key) (hbelow key)]
      let first := (key, (Substitution.ofValue v).resolve scope)
      exact congrArg (fun others => Json.object (first :: others)) (Json.object.inj ih)
  cases v with
  | null => rfl
  | bool value => rfl
  | number value => rfl
  | string s =>
    rw [Json.mapStrings, replacement, if_pos hposition]
    rfl
  | array items =>
    have hself : (Json.array items).mapStrings (replacement scope) position = .array items := by
      refine Json.mapStrings_eq_self _ fun path s hs => ?_
      rcases hs with - | - | @⟨_, i, _, _, path, -, -⟩
      have hreaches : Reaches (position ++ .item i :: path) = false := by
        rw [List.append_cons]
        exact reaches_append (hitem items rfl i) path
      rw [replacement, hreaches, if_neg Bool.false_ne_true]
    rw [hself]
    rfl
  | object members => exact hmembers members

theorem resolve_ofValue (scope : Scope) (v : Json) :
    (ofValue v).resolve scope = v.mapStrings (replacement scope) [] := by
  have hitems : ∀ (i : Nat) (items : List Json),
      (items.map TemplateItem.ofValue).map (·.resolve scope) =
        Json.mapItems (replacement scope) [] i items := by
    intro i items
    induction items generalizing i with
    | nil => rfl
    | cons item rest ih =>
      have hitem : (TemplateItem.ofValue item).resolve scope =
          item.mapStrings (replacement scope) [.item i] :=
        resolve_item rfl (fun _ => rfl) (fun _ _ => rfl) fun _ _ _ => rfl
      rw [List.map_cons, List.map_cons, ih (i + 1), hitem]
      rfl
  by_cases harray : ∃ items, v = .array items
  · obtain ⟨items, rfl⟩ := harray
    exact congrArg Json.array (hitems 0 items)
  · have hitem : ofValue v = item (.ofValue v) := by
      unfold ofValue
      split
      · exact (harray ⟨_, rfl⟩).elim
      · rfl
    rw [hitem]
    exact resolve_item rfl (fun _ => rfl) (fun _ _ => rfl) fun items heq =>
      (harray ⟨items, heq⟩).elim

/-- A template gives the value of its argument with the strings at the first positions replaced, and
no others. What lies deeper stands where it stood, objects keep their keys in order and lists their
lengths. If nothing was exported under the key of any string at the first positions, the value is
the argument's own. -/
theorem resolve_ofArgument {vars : Variables} {arg : Argument} (h : arg.value? vars = some v)
    (scope : Scope) :
    (ofArgument vars arg).resolve scope = v.mapStrings (replacement scope) [] ∧
    (∀ position w, v.Holds position w → Reaches position = false →
      ((ofArgument vars arg).resolve scope).Holds position w) ∧
    (∀ position members, v.Holds position (.object members) → ∃ members',
      ((ofArgument vars arg).resolve scope).Holds position (.object members') ∧
        Bindings.keys members' = Bindings.keys members) ∧
    (∀ position items, v.Holds position (.array items) → ∃ items',
      ((ofArgument vars arg).resolve scope).Holds position (.array items') ∧
        items'.length = items.length) ∧
    ((∀ position s, v.Holds position (.string s) → Reaches position = true →
        ∀ before key after, HasFirstToken s before key after →
          Bindings.get? key scope.exports = none) →
      (ofArgument vars arg).resolve scope = v) := by
  have hresolve : (ofArgument vars arg).resolve scope = v.mapStrings (replacement scope) [] := by
    rw [← resolve_ofValue]
    cases arg with
    | literal value =>
      obtain rfl := Option.some.inj h
      rfl
    | var name =>
      obtain rfl := Option.some.inj h
      rfl
    | computed compute => cases h
  rw [hresolve]
  refine ⟨rfl, fun position w hw hreaches => ?_, fun position members hobject => ?_,
    fun position items harray => ?_, fun hfree => ?_⟩
  · have hholds : (v.mapStrings (replacement scope) []).Holds position
        (w.mapStrings (replacement scope) ([] ++ position)) := Json.holds_mapStrings hw
    rwa [List.nil_append, mapStrings_of_not_reaches hreaches] at hholds
  · exact ⟨_, Json.holds_mapStrings hobject, Json.keys_mapMembers members⟩
  · exact ⟨_, Json.holds_mapStrings harray, Json.length_mapItems 0 items⟩
  · refine v.mapStrings_eq_self fun position s hs => ?_
    rw [List.nil_append, replacement]
    split
    · rename_i hreaches
      refine Substitution.resolve_eq_iff.2 ?_
      by_cases htoken : ∃ before key after, HasToken s before key after
      · obtain ⟨_, _, _, htoken⟩ := htoken
        obtain ⟨before, key, after, hfirst⟩ := htoken.exists_first
        exact .unbound hfirst (hfree position s hs hreaches before key after hfirst)
      · exact .plain fun before key after h => htoken ⟨before, key, after, h⟩
    · rfl

/-- Filters of which two hold a placeholder, the second one too deep. -/
def ageFilters (least : Json) : Json :=
  .array [
    .object [("fieldPath", .string "age"), ("op", .string ">="), ("val", least)],
    .object [("fieldPath", .string "tags"), ("op", .string "array-contains"),
      ("val", .object [("nested", .string "$fields\x7bminAge\x7d")])]]

theorem resolve_ofArgument_ageFilters :
    let written := ageFilters (.string "$fields\x7bminAge\x7d")
    (Argument.var "filters").value? [("filters", written)] = some written ∧
      (ofArgument [("filters", written)] (.var "filters")).resolve
        ⟨.ofText "users", [("minAge", .int 21)]⟩ = ageFilters (.int 21) :=
  ⟨rfl, (resolve_ofArgument rfl _).1.trans rfl⟩

end Template

end LiveDocs
