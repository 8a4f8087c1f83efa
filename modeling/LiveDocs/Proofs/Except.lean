import Mathlib.Data.List.Basic
import Mathlib.Data.List.Forall2

/-!
# Results that may be errors

What comes of a sequence of results comes of its first part and then of the rest, and what a
sequence fails with one of its parts fails with. `ErrorsIn P x` says of which kind the errors of a
result are, with a rule for each way in which results are put together. Main statements:
`mapM_eq_ok_iff` and `mapM_eq_error_iff`, steps in a row, each of which may fail.
-/

namespace LiveDocs

variable {ε α β : Type}

/-! ### Sequences of results -/

/-- What comes of a sequence comes of its first part and then of the rest. -/
theorem exists_of_bind_ok {x : Except ε α} {f : α → Except ε β} {b : β} (h : x >>= f = .ok b) :
    ∃ a, x = .ok a ∧ f a = .ok b := by
  cases x with
  | error e => cases h
  | ok a => exact ⟨a, rfl, h⟩

theorem exists_of_map_ok {x : Except ε α} {f : α → β} {b : β} (h : f <$> x = .ok b) :
    ∃ a, x = .ok a ∧ f a = b := by
  cases x with
  | error e => cases h
  | ok a => exact ⟨a, rfl, Except.ok.inj h⟩

theorem error_of_map {x : Except ε α} {f : α → β} {e : ε} (h : f <$> x = .error e) :
    x = .error e := by
  cases x with
  | error cause => exact congrArg Except.error (Except.error.inj h)
  | ok a => cases h

theorem eq_ok_of_mapError {ε' : Type} {g : ε → ε'} {x : Except ε α} {a : α}
    (h : x.mapError g = .ok a) : x = .ok a := by
  cases x with
  | ok b => exact congrArg Except.ok (Except.ok.inj h)
  | error e => cases h

/-! ### Steps that may fail -/

section Steps

variable {f : α → Except ε β}

theorem mapM_cons_of_ok {item : α} {b : β} (h : f item = .ok b) (rest : List α) :
    (item :: rest).mapM f = (b :: ·) <$> rest.mapM f := by
  rw [List.mapM_cons, h]
  cases rest.mapM f <;> rfl

theorem mapM_cons_of_error {item : α} {e : ε} (h : f item = .error e) (rest : List α) :
    (item :: rest).mapM f = .error e := by
  rw [List.mapM_cons, h]
  rfl

/-- Steps in a row succeed with what each of them gives. -/
theorem mapM_eq_ok_iff {items : List α} {results : List β} :
    items.mapM f = .ok results ↔ List.Forall₂ (fun a b => f a = .ok b) items results := by
  induction items generalizing results with
  | nil =>
    constructor
    · intro h
      obtain rfl : [] = results := Except.ok.inj h
      exact .nil
    · rintro ⟨⟩
      rfl
  | cons item rest ih =>
    constructor
    · intro h
      rw [List.mapM_cons] at h
      obtain ⟨b, hb, h⟩ := exists_of_bind_ok h
      obtain ⟨others, hothers, h⟩ := exists_of_bind_ok h
      obtain rfl : b :: others = results := Except.ok.inj h
      exact .cons hb (ih.1 hothers)
    · intro h
      obtain ⟨b, others, hb, hothers, rfl⟩ := List.forall₂_cons_left_iff.1 h
      rw [mapM_cons_of_ok hb, ih.2 hothers]
      rfl

/-- Steps in a row fail as the first of them does that fails. -/
theorem mapM_eq_error_iff {items : List α} {e : ε} :
    items.mapM f = .error e ↔ ∃ front item rest, items = front ++ item :: rest ∧
      (∀ a ∈ front, ∃ b, f a = .ok b) ∧ f item = .error e := by
  constructor
  · intro h
    induction items with
    | nil => cases h
    | cons item rest ih =>
      rcases hitem : f item with e' | b
      · rw [mapM_cons_of_error hitem] at h
        obtain rfl : e' = e := Except.error.inj h
        exact ⟨[], item, rest, rfl, List.forall_mem_nil _, hitem⟩
      · rw [mapM_cons_of_ok hitem] at h
        obtain ⟨front, item', rest', rfl, hfront, hitem'⟩ := ih (error_of_map h)
        exact ⟨item :: front, item', rest', rfl,
          List.forall_mem_cons.2 ⟨⟨b, hitem⟩, hfront⟩, hitem'⟩
  · rintro ⟨front, item, rest, rfl, hfront, hitem⟩
    induction front with
    | nil => exact mapM_cons_of_error hitem rest
    | cons first front ih =>
      obtain ⟨⟨b, hb⟩, hfront⟩ := List.forall_mem_cons.1 hfront
      rw [List.cons_append, mapM_cons_of_ok hb, ih hfront]
      rfl

theorem exists_of_forall₂ {R : α → β → Prop} {items : List α} {results : List β}
    (h : List.Forall₂ R items results) {a : α} (ha : a ∈ items) : ∃ b ∈ results, R a b := by
  induction h with
  | nil => cases ha
  | cons hb _ ih =>
    rcases List.mem_cons.1 ha with rfl | hmem
    · exact ⟨_, List.mem_cons_self, hb⟩
    · obtain ⟨b, hmem, hb⟩ := ih hmem
      exact ⟨b, List.mem_cons_of_mem _ hmem, hb⟩

/-- Steps in a row succeed if and only if each of them does. -/
theorem exists_mapM_eq_ok_iff {items : List α} :
    (∃ results, items.mapM f = .ok results) ↔ ∀ a ∈ items, ∃ b, f a = .ok b := by
  constructor
  · rintro ⟨results, h⟩
    have hall := mapM_eq_ok_iff.1 h
    intro a ha
    obtain ⟨b, -, hb⟩ := exists_of_forall₂ hall ha
    exact ⟨b, hb⟩
  · intro h
    rcases hrun : items.mapM f with e | results
    · obtain ⟨front, item, rest, rfl, -, hitem⟩ := mapM_eq_error_iff.1 hrun
      obtain ⟨b, hb⟩ := h item (List.mem_append_right front List.mem_cons_self)
      cases hitem.symm.trans hb
    · exact ⟨results, rfl⟩

/-- Two rows of steps over the same items give related results, if steps on one item do. -/
theorem forall₂_of_mapM {R : β → β → Prop} {f' : α → Except ε β}
    (hR : ∀ a b b', f a = .ok b → f' a = .ok b' → R b b') {items : List α} {bs bs' : List β}
    (h : items.mapM f = .ok bs) (h' : items.mapM f' = .ok bs') : List.Forall₂ R bs bs' := by
  have hall := mapM_eq_ok_iff.1 h
  have hall' := mapM_eq_ok_iff.1 h'
  clear h h'
  induction hall generalizing bs' with
  | nil =>
    cases hall'
    exact .nil
  | cons hb _ ih =>
    obtain ⟨b', others, hb', hothers, rfl⟩ := List.forall₂_cons_left_iff.1 hall'
    exact .cons (hR _ _ _ hb hb') (ih hothers)

end Steps

/-! ### Errors -/

/-- Whatever a result fails with is such an error. -/
def ErrorsIn (P : ε → Prop) (x : Except ε α) : Prop := ∀ e, x = .error e → P e

namespace ErrorsIn

variable {P : ε → Prop}

theorem ok (a : α) : ErrorsIn P (.ok a) := fun _ h => by cases h

theorem error {e : ε} (h : P e) : ErrorsIn P (.error e : Except ε α) := fun e' he => by
  obtain rfl := Except.error.inj he
  exact h

theorem always (x : Except ε α) : ErrorsIn (fun _ => True) x := fun _ _ => trivial

theorem bind {x : Except ε α} {f : α → Except ε β} (hx : ErrorsIn P x)
    (hf : ∀ a, ErrorsIn P (f a)) : ErrorsIn P (x >>= f) := by
  intro e h
  cases x with
  | error cause =>
    obtain rfl : cause = e := Except.error.inj h
    exact hx cause rfl
  | ok a => exact hf a e h

theorem map {x : Except ε α} (f : α → β) (hx : ErrorsIn P x) : ErrorsIn P (f <$> x) :=
  fun e h => hx e (error_of_map h)

theorem mono {Q : ε → Prop} {x : Except ε α} (hx : ErrorsIn P x) (h : ∀ e, P e → Q e) :
    ErrorsIn Q x := fun e he => h e (hx e he)

theorem mapError {ε' : Type} {Q : ε' → Prop} {g : ε → ε'} {x : Except ε α} (hx : ErrorsIn P x)
    (h : ∀ e, P e → Q (g e)) : ErrorsIn Q (x.mapError g) := by
  cases x with
  | ok a => exact .ok a
  | error e => exact .error (h e (hx e rfl))

theorem mapM {f : α → Except ε β} (h : ∀ a, ErrorsIn P (f a)) (items : List α) :
    ErrorsIn P (items.mapM f) := by
  intro e he
  obtain ⟨-, item, -, -, -, hitem⟩ := mapM_eq_error_iff.1 he
  exact h item e hitem

end ErrorsIn

end LiveDocs
