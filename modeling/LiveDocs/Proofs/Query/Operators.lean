import LiveDocs.Query.Evaluate
import LiveDocs.Proofs.Json.Order

/-!
# Operators of filters

A filter compares the value that a document has at a path with its operand. `FilterOp.Relates` says
for each operator which values it relates to an operand. The laws by which the operators depend on
each other rest on two facts about the order of values: of two values exactly one of less,
equivalent and greater is true, and values that are equivalent have one type. Main statement:
`Filter.accepts_iff`, a document passes a filter exactly if its value is related to the operand.
-/

namespace LiveDocs

namespace Json

variable {v w : Json}

/-- Two values have one type. -/
inductive OneType : Json → Json → Prop where
  | null : OneType .null .null
  | bool {a b : Bool} : OneType (.bool a) (.bool b)
  | number {m n : JsonNumber} : OneType (.number m) (.number n)
  | string {a b : String} : OneType (.string a) (.string b)
  | array {as bs : List Json} : OneType (.array as) (.array bs)
  | object {a b : Members} : OneType (.object a) (.object b)

theorem sameType_iff : v.sameType w = true ↔ v.OneType w := by
  constructor
  · intro h
    cases v <;> cases w <;> first | constructor | simp [sameType, typeRank] at h
  · rintro ⟨⟩ <;> rfl

/-- Equivalent values have one type. -/
theorem oneType_of_order_eq (h : order v w = .eq) : v.OneType w := by
  rw [order_eq_then, Ordering.then_eq_eq, Nat.compare_eq_eq] at h
  exact sameType_iff.1 (beq_iff_eq.2 h.1)

theorem equivalent_iff : v.equivalent w = true ↔ order v w = .eq := beq_iff_eq

theorem not_isNull_iff : (!v.isNull) = true ↔ v ≠ .null := by
  cases v <;> simp [isNull]

theorem any_items_iff {p : Json → Bool} :
    (v.items?.getD []).any p = true ↔
      ∃ items, v = .array items ∧ ∃ item ∈ items, p item = true := by
  cases v <;> simp [items?]

end Json

namespace FilterOp

/-- A value is related to an operand as an operator says. -/
def Relates : FilterOp → (value operand : Json) → Prop
  | equal, w, v => w.order v = .eq
  | notEqual, w, v => w ≠ .null ∧ w.order v ≠ .eq
  | less, w, v => w.OneType v ∧ w.order v = .lt
  | lessOrEqual, w, v => w.OneType v ∧ w.order v ≠ .gt
  | greater, w, v => w.OneType v ∧ w.order v = .gt
  | greaterOrEqual, w, v => w.OneType v ∧ w.order v ≠ .lt
  | arrayContains, w, v => ∃ items, w = .array items ∧ ∃ item ∈ items, item.order v = .eq
  | arrayContainsAny, w, v => ∃ items, w = .array items ∧ ∃ item ∈ items,
      ∃ candidates, v = .array candidates ∧ ∃ candidate ∈ candidates, item.order candidate = .eq
  | among, w, v => ∃ candidates, v = .array candidates ∧
      ∃ candidate ∈ candidates, w.order candidate = .eq
  | notAmong, w, v => w ≠ .null ∧ ∃ candidates, v = .array candidates ∧
      ∀ candidate ∈ candidates, w.order candidate ≠ .eq

variable {w v : Json}

theorem relates_lessOrEqual_iff :
    lessOrEqual.Relates w v ↔ less.Relates w v ∨ equal.Relates w v := by
  constructor
  · rintro ⟨htype, hle⟩
    cases h : w.order v with
    | lt => exact .inl ⟨htype, h⟩
    | eq => exact .inr h
    | gt => exact absurd h hle
  · rintro (⟨htype, hlt⟩ | heq)
    · exact ⟨htype, by simp [hlt]⟩
    · exact ⟨Json.oneType_of_order_eq heq, by simp [show w.order v = .eq from heq]⟩

theorem relates_greaterOrEqual_iff :
    greaterOrEqual.Relates w v ↔ greater.Relates w v ∨ equal.Relates w v := by
  constructor
  · rintro ⟨htype, hle⟩
    cases h : w.order v with
    | lt => exact absurd h hle
    | eq => exact .inr h
    | gt => exact .inl ⟨htype, h⟩
  · rintro (⟨htype, hgt⟩ | heq)
    · exact ⟨htype, by simp [hgt]⟩
    · exact ⟨Json.oneType_of_order_eq heq, by simp [show w.order v = .eq from heq]⟩

/-- Less, equivalent and greater relate values of one type only. -/
theorem oneType_of_relates {op : FilterOp} (hop : op = less ∨ op = equal ∨ op = greater)
    (h : op.Relates w v) : w.OneType v := by
  rcases hop with rfl | rfl | rfl
  · exact h.1
  · exact Json.oneType_of_order_eq h
  · exact h.1

theorem relates_among_iff {candidates : List Json} :
    among.Relates w (.array candidates) ↔ ∃ candidate ∈ candidates, equal.Relates w candidate := by
  constructor
  · rintro ⟨_, ⟨rfl⟩, h⟩
    exact h
  · exact fun h => ⟨candidates, rfl, h⟩

theorem relates_notAmong_iff {candidates : List Json} :
    notAmong.Relates w (.array candidates) ↔ w ≠ .null ∧ ¬ among.Relates w (.array candidates) := by
  rw [relates_among_iff]
  constructor
  · rintro ⟨hnull, _, ⟨rfl⟩, h⟩
    exact ⟨hnull, fun ⟨candidate, hmem, heq⟩ => h candidate hmem heq⟩
  · rintro ⟨hnull, h⟩
    exact ⟨hnull, candidates, rfl, fun candidate hmem heq => h ⟨candidate, hmem, heq⟩⟩

theorem relates_arrayContainsAny_iff {candidates : List Json} :
    arrayContainsAny.Relates w (.array candidates) ↔
      ∃ candidate ∈ candidates, arrayContains.Relates w candidate := by
  constructor
  · rintro ⟨items, hitems, item, hitem, _, ⟨rfl⟩, candidate, hcandidate, heq⟩
    exact ⟨candidate, hcandidate, items, hitems, item, hitem, heq⟩
  · rintro ⟨candidate, hcandidate, items, hitems, item, hitem, heq⟩
    exact ⟨items, hitems, item, hitem, candidates, rfl, candidate, hcandidate, heq⟩

/-- The operators that take a list of candidates relate nothing to another operand. -/
theorem exists_candidates_of_relates {op : FilterOp}
    (hop : op = among ∨ op = notAmong ∨ op = arrayContainsAny) (h : op.Relates w v) :
    ∃ candidates, v = .array candidates := by
  rcases hop with rfl | rfl | rfl
  · obtain ⟨candidates, rfl, -⟩ := h
    exact ⟨candidates, rfl⟩
  · obtain ⟨-, candidates, rfl, -⟩ := h
    exact ⟨candidates, rfl⟩
  · obtain ⟨-, -, -, -, candidates, rfl, -⟩ := h
    exact ⟨candidates, rfl⟩

end FilterOp

namespace Filter

variable {path : String} {op : FilterOp} {operand w : Json} {data : Members}

/-- A document passes a filter if it has a value at the path, and the value is related to the
operand as the operator says. -/
theorem accepts_iff :
    (Filter.mk path op operand).accepts data = true ↔
      ∃ value, data.read path = some value ∧ op.Relates value operand := by
  rw [accepts]
  cases hread : data.read path with
  | none => simp
  | some value =>
    simp only [Option.some.injEq, exists_eq_left']
    cases op with
    | equal => exact Json.equivalent_iff
    | notEqual =>
      rw [Bool.and_eq_true, Json.not_isNull_iff, Bool.not_eq_true', ← Bool.not_eq_true,
        Json.equivalent_iff]
      rfl
    | less | greater =>
      rw [Bool.and_eq_true, beq_iff_eq, Json.sameType_iff]
      rfl
    | lessOrEqual | greaterOrEqual =>
      rw [Bool.and_eq_true, bne_iff_ne, Json.sameType_iff]
      rfl
    | arrayContains =>
      simp only [Json.any_items_iff, Json.equivalent_iff]
      rfl
    | arrayContainsAny =>
      simp only [Json.any_items_iff, Json.equivalent_iff]
      rfl
    | among =>
      cases operand with
      | array candidates =>
        rw [FilterOp.relates_among_iff]
        simp [Json.equivalent_iff, FilterOp.Relates]
      | null | bool | number | string | object => simp [FilterOp.Relates]
    | notAmong =>
      cases operand with
      | array candidates =>
        rw [FilterOp.relates_notAmong_iff, FilterOp.relates_among_iff]
        simp only [Bool.and_eq_true, Json.not_isNull_iff]
        simp [← Bool.not_eq_true, Json.equivalent_iff, FilterOp.Relates]
      | null | bool | number | string | object => simp [FilterOp.Relates]

/-- A filter makes of a document what its operator says of the value at its path. -/
theorem accepts_iff_of_read (hw : data.read path = some w) :
    (Filter.mk path op operand).accepts data = true ↔ op.Relates w operand := by
  rw [accepts_iff, hw]
  simp only [Option.some.injEq, exists_eq_left']

end Filter

end LiveDocs
