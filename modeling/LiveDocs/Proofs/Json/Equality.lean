import LiveDocs.Proofs.Json.Order
import LiveDocs.Proofs.Json.Text
import LiveDocs.Proofs.Bindings

/-!
# Values that compare as equal

Two JSON values are equal if they have the same items and the same members, in any order, and
numbers that are the same as doubles. A store compares numbers and arrays in this way, at any depth,
but objects by their texts, and a text shows the order of the members and how each number in it is
written. So two values compare as equal if they are equal and all objects in them are the same as
they stand. Main statements: `order_eq_iff`, which values compare as equal; `agrees_of_coincides`,
they are equal as JSON values; `coincides_of_agrees`, without an object in them all equal values do.
-/

namespace LiveDocs

namespace Json

/-- The values are equal as JSON values: arrays item by item, objects as maps without an order, and
numbers by their value as doubles. -/
inductive Agrees : Json → Json → Prop where
  | refl (v : Json) : Agrees v v
  | number {m n : JsonNumber} (h : m.key = n.key) : Agrees (.number m) (.number n)
  | array {items items' : List Json} (h : List.Forall₂ Agrees items items') :
      Agrees (.array items) (.array items')
  | object {members members' : Members}
      (hkeys : (Bindings.keys members).Perm (Bindings.keys members'))
      (h : ∀ key v v', Bindings.get? key members = some v → Bindings.get? key members' = some v' →
        Agrees v v') : Agrees (.object members) (.object members')

/-- The values are equal as JSON values, and the objects in them are the same as they stand. -/
inductive Coincides : Json → Json → Prop where
  | refl (v : Json) : Coincides v v
  | number {m n : JsonNumber} (h : m.key = n.key) : Coincides (.number m) (.number n)
  | array {items items' : List Json} (h : List.Forall₂ Coincides items items') :
      Coincides (.array items) (.array items')

/-- There is no object in the value. -/
inductive ObjectFree : Json → Prop where
  | null : ObjectFree .null
  | bool (value : Bool) : ObjectFree (.bool value)
  | number (value : JsonNumber) : ObjectFree (.number value)
  | string (value : String) : ObjectFree (.string value)
  | array {items : List Json} (h : ∀ item ∈ items, ObjectFree item) : ObjectFree (.array items)

mutual

/-- Values that compare as equal coincide. -/
theorem coincides_of_order (v w : Json) (h : order v w = .eq) : v.Coincides w := by
  cases v with
  | null =>
    cases w with
    | null => exact .refl _
    | _ => cases h
  | bool a =>
    cases w with
    | bool b =>
      rw [order] at h
      obtain rfl := Std.LawfulEqCmp.eq_of_compare h
      exact .refl _
    | _ => cases h
  | number m =>
    cases w with
    | number n =>
      rw [order] at h
      exact .number (Std.LawfulEqCmp.eq_of_compare h)
    | _ => cases h
  | string s =>
    cases w with
    | string t =>
      rw [order] at h
      obtain rfl := Std.LawfulEqCmp.eq_of_compare h
      exact .refl _
    | _ => cases h
  | array items =>
    cases w with
    | array items' => exact .array (forall₂_coincides_of_orderItems items items' h)
    | _ => cases h
  | object members =>
    cases w with
    | object members' =>
      rw [order] at h
      rw [compact_injective (Std.LawfulEqCmp.eq_of_compare h)]
      exact .refl _
    | _ => cases h

theorem forall₂_coincides_of_orderItems (items items' : List Json)
    (h : orderItems items items' = .eq) : List.Forall₂ Coincides items items' := by
  cases items with
  | nil =>
    cases items' with
    | nil => exact .nil
    | cons => cases h
  | cons item rest =>
    cases items' with
    | nil => cases h
    | cons item' rest' =>
      rw [orderItems, Ordering.then_eq_eq] at h
      exact .cons (coincides_of_order item item' h.1)
        (forall₂_coincides_of_orderItems rest rest' h.2)

end

mutual

theorem order_of_coincides (v w : Json) (h : v.Coincides w) : order v w = .eq := by
  cases h with
  | refl => exact Std.ReflCmp.compare_self
  | number h =>
    rw [order, h]
    exact Std.ReflCmp.compare_self
  | @array items items' h => exact orderItems_of_coincides items items' h

theorem orderItems_of_coincides (items items' : List Json)
    (h : List.Forall₂ Coincides items items') : orderItems items items' = .eq := by
  cases h with
  | nil => rfl
  | @cons item item' rest rest' hitem hrest =>
    rw [orderItems, order_of_coincides item item' hitem]
    exact orderItems_of_coincides rest rest' hrest

end

/-- Two values compare as equal exactly if they coincide. -/
theorem order_eq_iff {v w : Json} : order v w = .eq ↔ v.Coincides w :=
  ⟨coincides_of_order v w, order_of_coincides v w⟩

/-! ### Equal as JSON values -/

mutual

theorem agrees_of_coincides (v w : Json) (h : v.Coincides w) : v.Agrees w := by
  cases h with
  | refl => exact .refl _
  | number h => exact .number h
  | @array items items' h => exact .array (forall₂_agrees_of_coincides items items' h)

theorem forall₂_agrees_of_coincides (items items' : List Json)
    (h : List.Forall₂ Coincides items items') : List.Forall₂ Agrees items items' := by
  cases h with
  | nil => exact .nil
  | @cons item item' rest rest' hitem hrest =>
    exact .cons (agrees_of_coincides item item' hitem)
      (forall₂_agrees_of_coincides rest rest' hrest)

end

mutual

theorem coincides_of_agrees (v w : Json) (hv : v.ObjectFree) (h : v.Agrees w) :
    v.Coincides w := by
  cases h with
  | refl => exact .refl _
  | number h => exact .number h
  | @array items items' h =>
    cases hv with
    | array hv => exact .array (forall₂_coincides_of_agrees items items' hv h)
  | object => cases hv

theorem forall₂_coincides_of_agrees (items items' : List Json)
    (hitems : ∀ item ∈ items, item.ObjectFree) (h : List.Forall₂ Agrees items items') :
    List.Forall₂ Coincides items items' := by
  cases h with
  | nil => exact .nil
  | @cons item item' rest rest' hitem hrest =>
    obtain ⟨hfree, hfrees⟩ := List.forall_mem_cons.1 hitems
    exact .cons (coincides_of_agrees item item' hfree hitem)
      (forall₂_coincides_of_agrees rest rest' hfrees hrest)

end

end Json

end LiveDocs
