import LiveDocs.Json.Order
import Mathlib.Data.Int.Order.Basic
import Mathlib.Order.Compare

/-!
# The order of values is a total preorder

Values are compared by type, and within a type by value, arrays item by item. What carries the
comparison through arrays is a law of three: of three values in ascending order, the outer two
compare as the first two do, or as the last two if the first two are equivalent. Main statements:
`order_swap`, an exchange of the values reverses their order; `order_of_ascending`, the law of
three; and `Json.order` as an instance of `Std.TransCmp`, which both come to. `ordersValues_order`
says what a store relies on.
-/

namespace LiveDocs

namespace Number.Double

/-- The value of a double as a multiple of `2⁻¹⁰⁷⁴`, with its sign. -/
def multiple (d : Double) : Int :=
  if d.negative then -(scaled d.magnitude : Int) else scaled d.magnitude

/-- Keys are in the order of the values. -/
theorem key_lt_key_iff {a b : Double} : a.key < b.key ↔ a.multiple < b.multiple := by
  have hlt : ∀ m n, scaled m < scaled n ↔ m < n := fun _ _ => scaled_lt_scaled_iff
  have hzero : scaled 0 = 0 := scaled_of_lt (by decide)
  have hab := hlt a.magnitude b.magnitude
  have hba := hlt b.magnitude a.magnitude
  have ha := hlt 0 a.magnitude
  have hb := hlt 0 b.magnitude
  rw [key, key, multiple, multiple]
  split <;> split <;> omega

theorem compare_key (a b : Double) : compare a.key b.key = compare a.multiple b.multiple := by
  rcases Int.lt_trichotomy a.key b.key with h | h | h
  · rw [compare_lt_iff_lt.2 h, compare_lt_iff_lt.2 (key_lt_key_iff.1 h)]
  · have hab : ¬a.multiple < b.multiple := by
      rw [← key_lt_key_iff]
      omega
    have hba : ¬b.multiple < a.multiple := by
      rw [← key_lt_key_iff]
      omega
    rw [compare_eq_iff_eq.2 h, compare_eq_iff_eq.2 (by omega)]
  · rw [compare_gt_iff_gt.2 h, compare_gt_iff_gt.2 (key_lt_key_iff.1 h)]

end Number.Double

/-- The law of three for any comparison that is transitive. -/
theorem compare_of_ascending {α : Type} {cmp : α → α → Ordering} [Std.TransCmp cmp] {a b c : α}
    (hab : cmp a b ≠ .gt) (hbc : cmp b c ≠ .gt) : cmp a c = (cmp a b).then (cmp b c) := by
  cases h : cmp a b with
  | lt => exact Std.TransCmp.lt_of_lt_of_isLE h (Ordering.isLE_iff_ne_gt.2 hbc)
  | eq => exact Std.TransCmp.congr_left h
  | gt => exact absurd h hab

/-- The law of three holds of two comparisons one after the other if it holds of each, of the second
one where the first does not tell the elements apart. -/
theorem then_of_ascending {ab bc ac ab' bc' ac' : Ordering}
    (hab : ab.then ab' ≠ .gt) (hbc : bc.then bc' ≠ .gt)
    (hfirst : ab ≠ .gt → bc ≠ .gt → ac = ab.then bc)
    (hsecond : ab = .eq → bc = .eq → ab' ≠ .gt → bc' ≠ .gt → ac' = ab'.then bc') :
    ac.then ac' = (ab.then ab').then (bc.then bc') := by
  cases ab with
  | gt => exact absurd rfl hab
  | lt =>
    cases bc with
    | gt => exact absurd rfl hbc
    | lt | eq =>
      obtain rfl := hfirst (by decide) (by decide)
      rfl
  | eq =>
    cases bc with
    | gt => exact absurd rfl hbc
    | lt =>
      obtain rfl := hfirst (by decide) (by decide)
      cases ab' with
      | gt => exact absurd rfl hab
      | lt | eq => rfl
    | eq =>
      obtain rfl := hfirst (by decide) (by decide)
      exact hsecond rfl rfl hab hbc

namespace Json

/-- Types come first. -/
theorem order_eq_then (a b : Json) :
    order a b = (compare a.typeRank b.typeRank).then (order a b) := by
  cases a <;> cases b <;> rfl

mutual

/-- An exchange of two values reverses their order. -/
theorem order_swap (a b : Json) : (order b a).swap = order a b := by
  cases a with
  | null => cases b <;> rfl
  | bool a =>
    cases b with
    | bool b =>
      rw [order, order]
      exact Std.OrientedCmp.eq_swap.symm
    | _ => rfl
  | number a =>
    cases b with
    | number b =>
      rw [order, order]
      exact Std.OrientedCmp.eq_swap.symm
    | _ => rfl
  | string a =>
    cases b with
    | string b =>
      rw [order, order]
      exact Std.OrientedCmp.eq_swap.symm
    | _ => rfl
  | array as =>
    cases b with
    | array bs => exact orderItems_swap as bs
    | _ => rfl
  | object a =>
    cases b with
    | object b =>
      rw [order, order]
      exact Std.OrientedCmp.eq_swap.symm
    | _ => rfl

theorem orderItems_swap (as bs : List Json) : (orderItems bs as).swap = orderItems as bs := by
  cases as with
  | nil => cases bs <;> rfl
  | cons a as =>
    cases bs with
    | nil => rfl
    | cons b bs =>
      rw [orderItems, orderItems, Ordering.swap_then, order_swap a b, orderItems_swap as bs]

end

mutual

/-- The law of three for values. -/
theorem order_of_ascending (a b c : Json) (hab : order a b ≠ .gt) (hbc : order b c ≠ .gt) :
    order a c = (order a b).then (order b c) := by
  rw [order_eq_then a b] at hab ⊢
  rw [order_eq_then b c] at hbc ⊢
  rw [order_eq_then a c]
  refine then_of_ascending hab hbc compare_of_ascending fun hab hbc hab' hbc' => ?_
  -- all three are of one type, so there is one case for each type
  cases a with
  | null =>
    cases b with
    | null =>
      cases c with
      | null => rfl
      | _ => cases hbc
    | _ => cases hab
  | bool a =>
    cases b with
    | bool b =>
      cases c with
      | bool c =>
        rw [order] at hab' hbc'
        rw [order, order, order]
        exact compare_of_ascending hab' hbc'
      | _ => cases hbc
    | _ => cases hab
  | number a =>
    cases b with
    | number b =>
      cases c with
      | number c =>
        rw [order] at hab' hbc'
        rw [order, order, order]
        exact compare_of_ascending hab' hbc'
      | _ => cases hbc
    | _ => cases hab
  | string a =>
    cases b with
    | string b =>
      cases c with
      | string c =>
        rw [order] at hab' hbc'
        rw [order, order, order]
        exact compare_of_ascending hab' hbc'
      | _ => cases hbc
    | _ => cases hab
  | array as =>
    cases b with
    | array bs =>
      cases c with
      | array cs => exact orderItems_of_ascending as bs cs hab' hbc'
      | _ => cases hbc
    | _ => cases hab
  | object a =>
    cases b with
    | object b =>
      cases c with
      | object c =>
        rw [order] at hab' hbc'
        rw [order, order, order]
        exact compare_of_ascending hab' hbc'
      | _ => cases hbc
    | _ => cases hab

theorem orderItems_of_ascending (as bs cs : List Json) (hab : orderItems as bs ≠ .gt)
    (hbc : orderItems bs cs ≠ .gt) :
    orderItems as cs = (orderItems as bs).then (orderItems bs cs) := by
  cases as with
  | nil =>
    cases bs with
    | nil => cases cs <;> rfl
    | cons b bs =>
      cases cs with
      | nil => exact absurd rfl hbc
      | cons c cs => rfl
  | cons a as =>
    cases bs with
    | nil => exact absurd rfl hab
    | cons b bs =>
      cases cs with
      | nil => exact absurd rfl hbc
      | cons c cs =>
        rw [orderItems] at hab hbc
        rw [orderItems, orderItems, orderItems]
        exact then_of_ascending hab hbc (order_of_ascending a b c)
          fun _ _ => orderItems_of_ascending as bs cs

end

instance : Std.TransCmp order where
  eq_swap {a b} := (order_swap a b).symm
  isLE_trans {a b c} hab hbc := by
    have hab' : order a b ≠ .gt := Ordering.isLE_iff_ne_gt.1 hab
    have hbc' : order b c ≠ .gt := Ordering.isLE_iff_ne_gt.1 hbc
    rw [order_of_ascending a b c hab' hbc', Ordering.isLE_then_iff_and]
    refine ⟨hab, ?_⟩
    cases order a b with
    | lt => exact .inl rfl
    | _ => exact .inr hbc

/-- What a store relies on when it compares values: the comparison is a total preorder, values that
compare as equal are of one type, and numbers are compared by their values as doubles. -/
structure OrdersValues (cmp : Json → Json → Ordering) : Prop where
  refl (v : Json) : cmp v v = .eq
  swap (v w : Json) : cmp w v = (cmp v w).swap
  trans (u v w : Json) : cmp u v ≠ .gt → cmp v w ≠ .gt → cmp u w = (cmp u v).then (cmp v w)
  types (v w : Json) : cmp v w = .eq → v.typeRank = w.typeRank
  numbers (m n : JsonNumber) :
    cmp (.number m) (.number n) = compare m.toDouble.multiple n.toDouble.multiple

theorem ordersValues_order : OrdersValues order where
  refl _ := Std.ReflCmp.compare_self
  swap _ _ := Std.OrientedCmp.eq_swap
  trans := order_of_ascending
  types v w h := by
    rw [order_eq_then, Ordering.then_eq_eq] at h
    exact Std.LawfulEqCmp.eq_of_compare h.1
  numbers m n := by
    rw [order]
    exact Number.Double.compare_key m.toDouble n.toDouble

end Json

end LiveDocs
