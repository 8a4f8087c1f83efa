import LiveDocs.Number.Shortest
import Mathlib.Algebra.Order.Field.Rat
import Mathlib.Algebra.Order.Field.Power
import Mathlib.Tactic.Linarith
import Mathlib.Tactic.NormNum
import Mathlib.Tactic.Positivity
import Mathlib.Tactic.Ring

/-!
# The shortest digits tell doubles apart

The numbers that round to a double form an interval around it. The upper end of one interval is the
lower end of the next one, and the ends belong to the even one of the two magnitudes, so no number
lies in the intervals of two magnitudes. The walk through the decimal grids finds a point in the
interval as soon as the grid is as fine as a quarter of the gap between doubles, and the last grid
is. Main statements: `eq_of_contains`, at most one magnitude is nearest to a number;
`contains_shortest`, the shortest digits of a magnitude are a number that rounds to it;
`eq_of_shortest`, magnitudes with the same shortest digits are the same.
-/

namespace LiveDocs.Number

/-! ### Rounding intervals -/

/-- The number rounds to the double of the interval. -/
def RoundingInterval.Contains (i : RoundingInterval) (r : ℚ) : Prop :=
  if i.closed then (i.low : ℚ) ≤ r * 2 ^ 1076 ∧ r * 2 ^ 1076 ≤ i.high
  else (i.low : ℚ) < r * 2 ^ 1076 ∧ r * 2 ^ 1076 < i.high

theorem gridFactors_snd_pos (x : ℤ) : 0 < (gridFactors x).2 := by
  rw [gridFactors]
  split
  · exact Nat.pow_pos (by decide)
  · exact Nat.one_pos

/-- What the factors of a grid stand for. -/
theorem gridFactors_fst (x : ℤ) :
    ((gridFactors x).1 : ℚ) = 10 ^ x * 2 ^ 1076 * (gridFactors x).2 := by
  rw [gridFactors]
  generalize 1076 = units
  split
  · rename_i hneg
    have hx : x = -(x.natAbs : ℤ) := by omega
    have hten : (10 : ℚ) ^ x.natAbs ≠ 0 := pow_ne_zero _ (by norm_num)
    rw [Nat.shiftLeft_eq, Nat.one_mul, Nat.pow_eq]
    push_cast
    rw [hx, zpow_neg, zpow_natCast, Int.natAbs_neg, Int.natAbs_natCast, mul_right_comm,
      inv_mul_cancel₀ hten, one_mul]
  · rename_i hneg
    have hx : x = (x.toNat : ℤ) := by omega
    rw [Nat.shiftLeft_eq, Nat.pow_eq]
    push_cast
    rw [hx, zpow_natCast, Int.toNat_natCast, mul_one]

theorem units_pos : (0 : ℚ) < 2 ^ 1076 := pow_pos (by norm_num) _

theorem le_gridPoint_iff {l c : ℕ} {x : ℤ} :
    l * (gridFactors x).2 ≤ c * (gridFactors x).1 ↔ (l : ℚ) ≤ c * 10 ^ x * 2 ^ 1076 := by
  have hpos : (0 : ℚ) < (gridFactors x).2 := Nat.cast_pos.2 (gridFactors_snd_pos x)
  rw [← mul_le_mul_iff_of_pos_right hpos, mul_assoc, mul_assoc, ← mul_assoc (10 ^ x),
    ← gridFactors_fst]
  exact_mod_cast Iff.rfl

theorem gridPoint_le_iff {l c : ℕ} {x : ℤ} :
    c * (gridFactors x).1 ≤ l * (gridFactors x).2 ↔ c * 10 ^ x * 2 ^ 1076 ≤ (l : ℚ) := by
  have hpos : (0 : ℚ) < (gridFactors x).2 := Nat.cast_pos.2 (gridFactors_snd_pos x)
  rw [← mul_le_mul_iff_of_pos_right hpos, mul_assoc (c : ℚ), mul_assoc (c : ℚ),
    ← gridFactors_fst]
  exact_mod_cast Iff.rfl

/-- The interval contains the points of a grid that round to the double. -/
theorem RoundingInterval.reads_iff {i : RoundingInterval} {c : ℕ} {x : ℤ} :
    i.reads c x = true ↔ i.Contains (c * 10 ^ x) := by
  simp only [reads, Contains]
  split
  · rw [Bool.and_eq_true, decide_eq_true_iff, decide_eq_true_iff, le_gridPoint_iff,
      gridPoint_le_iff]
  · rw [Bool.and_eq_true, decide_eq_true_iff, decide_eq_true_iff]
    exact and_congr (lt_iff_lt_of_le_iff_le gridPoint_le_iff)
      (lt_iff_lt_of_le_iff_le le_gridPoint_iff)

/-! ### No number rounds to two doubles -/

/-- The intervals lie one behind the other. -/
theorem low_succ (m : ℕ) : (roundingInterval (m + 1)).low = (roundingInterval m).high := by
  simp only [roundingInterval, scaled_succ]
  split
  · rename_i hcarry
    rw [gap_succ_of_carry hcarry]
    omega
  · rename_i hcarry
    rw [gap_succ_of_not_carry hcarry]
    omega

theorem low_lt_high (m : ℕ) : (roundingInterval m).low < (roundingInterval m).high := by
  have hgap := gap_pos m
  simp only [roundingInterval]
  omega

theorem value_lt_high (m : ℕ) : (roundingInterval m).value < (roundingInterval m).high :=
  Nat.lt_add_of_pos_right (Nat.mul_pos (by decide) (gap_pos m))

theorem high_le_low {m n : ℕ} (h : m < n) :
    (roundingInterval m).high ≤ (roundingInterval n).low := by
  induction n with
  | zero => omega
  | succ n ih =>
    rw [low_succ]
    rcases Nat.lt_succ_iff_lt_or_eq.1 h with hlt | rfl
    · exact Nat.le_trans (ih hlt) (Nat.le_of_lt (low_lt_high n))
    · exact Nat.le_refl _

theorem RoundingInterval.Contains.bounds {i : RoundingInterval} {r : ℚ} (h : i.Contains r) :
    (i.low : ℚ) ≤ r * 2 ^ 1076 ∧ r * 2 ^ 1076 ≤ i.high := by
  rw [Contains] at h
  split at h
  · exact h
  · exact ⟨h.1.le, h.2.le⟩

/-- An end of an interval belongs to it if the magnitude is even. -/
theorem even_of_contains_end {m : ℕ} {r : ℚ} (h : (roundingInterval m).Contains r)
    (hend : r * 2 ^ 1076 = (roundingInterval m).low ∨ r * 2 ^ 1076 = (roundingInterval m).high) :
    m % 2 = 0 := by
  rw [RoundingInterval.Contains] at h
  split at h
  · rename_i hclosed
    exact beq_iff_eq.1 hclosed
  · rcases hend with heq | heq
    · exact absurd heq h.1.ne'
    · exact absurd heq h.2.ne

theorem not_contains_of_lt {m n : ℕ} (hlt : m < n) {r : ℚ} (hm : (roundingInterval m).Contains r) :
    ¬(roundingInterval n).Contains r := by
  intro hn
  have hmn : ((roundingInterval m).high : ℚ) ≤ (roundingInterval n).low :=
    Nat.cast_le.2 (high_le_low hlt)
  -- the number is the upper end of the one interval and the lower end of the other
  have hhigh : r * 2 ^ 1076 = (roundingInterval m).high :=
    le_antisymm hm.bounds.2 (hmn.trans hn.bounds.1)
  have hlow : r * 2 ^ 1076 = (roundingInterval n).low :=
    le_antisymm (hm.bounds.2.trans hmn) hn.bounds.1
  have heven := even_of_contains_end hm (.inr hhigh)
  have heven' := even_of_contains_end hn (.inl hlow)
  -- so there is no magnitude between them, and one of the two is odd
  have hnext : n = m + 1 := by
    by_contra hne
    have hfar := high_le_low (show m + 1 < n by omega)
    have hwide := low_lt_high (m + 1)
    rw [low_succ] at hwide
    have hsame : (roundingInterval n).low = (roundingInterval m).high := by
      exact_mod_cast hlow.symm.trans hhigh
    omega
  omega

/-- At most one magnitude is nearest to a number. -/
theorem eq_of_contains {m n : ℕ} {r : ℚ} (hm : (roundingInterval m).Contains r)
    (hn : (roundingInterval n).Contains r) : m = n := by
  rcases Nat.lt_trichotomy m n with hlt | heq | hgt
  · exact absurd hn (not_contains_of_lt hlt hm)
  · exact heq
  · exact absurd hm (not_contains_of_lt hgt hn)

/-! ### The walk through the grids -/

theorem gap_le_scaled {m : ℕ} (hm : 0 < m) : gap m ≤ scaled m := by
  rcases Nat.lt_or_ge m fractions with hlt | hge
  · rw [scaled_of_lt hlt, gap_of_lt hlt]
    exact hm
  · rw [scaled_of_le hge]
    exact Nat.le_mul_of_pos_left _ (Nat.add_pos_left (by decide) _)

/-- A positive magnitude is a positive number. -/
theorem low_pos {m : ℕ} (hm : 0 < m) : 0 < (roundingInterval m).low := by
  have hgap := gap_pos m
  have hscaled := gap_le_scaled hm
  simp only [roundingInterval]
  split <;> omega

theorem low_add_gap_le {m : ℕ} (hm : 0 < m) :
    (roundingInterval m).low + gap m ≤ (roundingInterval m).value := by
  have hscaled := gap_le_scaled hm
  simp only [roundingInterval]
  split <;> omega

namespace RoundingInterval

variable {i : RoundingInterval} {x : ℤ}

theorem reads_of_lt {c : ℕ} (hlow : i.low * (gridFactors x).2 < c * (gridFactors x).1)
    (hhigh : c * (gridFactors x).1 < i.high * (gridFactors x).2) : i.reads c x = true := by
  simp only [reads]
  split
  · rw [Bool.and_eq_true, decide_eq_true_iff, decide_eq_true_iff]
    exact ⟨hlow.le, hhigh.le⟩
  · rw [Bool.and_eq_true, decide_eq_true_iff, decide_eq_true_iff]
    exact ⟨hlow, hhigh⟩

theorem isSome_pick_of_reads
    (h : i.reads (i.value * (gridFactors x).2 / (gridFactors x).1) x = true) :
    (i.pick x).isSome = true := by
  simp only [pick, h]
  split
  · rename_i hfalse _
    cases hfalse
  · rfl
  · rename_i hfalse _
    cases hfalse
  · split
    · rfl
    · split <;> rfl

end RoundingInterval

/-- A grid that is as fine as a quarter of the gap between doubles has a point below the value that
rounds to it. -/
theorem isSome_pick {m : ℕ} (hm : 0 < m) {x : ℤ} (hfine : (10 : ℚ) ^ x * 2 ^ 1076 ≤ gap m) :
    ((roundingInterval m).pick x).isSome = true := by
  have hstep : (gridFactors x).1 ≤ gap m * (gridFactors x).2 := by
    rw [← Nat.one_mul (gridFactors x).1, gridPoint_le_iff, Nat.cast_one, one_mul]
    exact hfine
  have hfactor : 0 < (gridFactors x).1 := by
    have hten : (0 : ℚ) < 10 ^ x := zpow_pos (by norm_num) x
    have hfactor : (0 : ℚ) < (gridFactors x).1 := by
      rw [gridFactors_fst]
      exact mul_pos (mul_pos hten units_pos) (Nat.cast_pos.2 (gridFactors_snd_pos x))
    exact Nat.cast_pos.1 hfactor
  refine RoundingInterval.isSome_pick_of_reads ?_
  generalize hvalue : (roundingInterval m).value * (gridFactors x).2 = value
  have hbelow : value / (gridFactors x).1 * (gridFactors x).1 ≤ value := Nat.div_mul_le_self _ _
  have habove : value < value / (gridFactors x).1 * (gridFactors x).1 + (gridFactors x).1 := by
    rw [← Nat.succ_mul, Nat.mul_comm]
    exact Nat.lt_mul_div_succ value hfactor
  refine RoundingInterval.reads_of_lt ?_ ?_
  · have hlow : (roundingInterval m).low * (gridFactors x).2 + gap m * (gridFactors x).2 ≤
        value := by
      rw [← Nat.add_mul, ← hvalue]
      exact Nat.mul_le_mul_right _ (low_add_gap_le hm)
    omega
  · have hhigh : value < (roundingInterval m).high * (gridFactors x).2 := by
      rw [← hvalue]
      exact Nat.mul_lt_mul_of_pos_right (value_lt_high m) (gridFactors_snd_pos x)
    omega

theorem isSome_search {i : RoundingInterval} {steps j : ℕ} {x : ℤ} (hj : j < steps)
    (h : (i.pick (x - j)).isSome = true) : (i.search steps x).isSome = true := by
  induction steps generalizing x j with
  | zero => omega
  | succ steps ih =>
    rw [RoundingInterval.search]
    cases hpick : i.pick x with
    | some c => rfl
    | none =>
      cases j with
      | zero =>
        rw [Nat.cast_zero, sub_zero, hpick] at h
        cases h
      | succ j =>
        refine ih (Nat.lt_of_succ_lt_succ hj) ?_
        rwa [Nat.cast_succ, add_comm, ← sub_sub] at h

/-! ### The last grid is fine enough -/

theorem scaled_lt_gap (m : ℕ) : scaled m < 2 ^ 53 * gap m := by
  rcases Nat.lt_or_ge m fractions with hlt | hge
  · rw [scaled_of_lt hlt, gap_of_lt hlt]
    simp only [fractions] at hlt
    omega
  · rw [scaled_of_le hge]
    refine Nat.mul_lt_mul_of_pos_right ?_ (gap_pos m)
    have hmod : m % fractions < fractions := Nat.mod_lt _ (by decide)
    simp only [fractions] at hmod ⊢
    omega

theorem two_pow_le_ten_pow : 2 ^ 100000 ≤ 10 ^ 30103 := by decide +kernel

theorem ten_pow_le_two_pow : 10 ^ 30103 ≤ 2 ^ (100000 + 1) := by decide +kernel

/-- If `10 ^ k` lies between two consecutive powers of two, `k / n` is a good logarithm of two. -/
theorem ten_zpow_le_two_zpow {n k : ℕ} (hn : n ≠ 0) (hlow : 2 ^ n ≤ 10 ^ k)
    (hhigh : 10 ^ k ≤ 2 ^ (n + 1)) {e q : ℤ} (hq : n * q ≤ k * e) (he : e ≤ n) :
    (10 : ℚ) ^ q ≤ 2 ^ (e + 1) := by
  have hlow' : (2 : ℚ) ^ n ≤ 10 ^ k := by exact_mod_cast hlow
  have hhigh' : (10 : ℚ) ^ k ≤ 2 ^ (n + 1) := by exact_mod_cast hhigh
  have htwo : (1 : ℚ) ≤ 2 := by norm_num
  have hpower : ((10 : ℚ) ^ k) ^ e ≤ 2 ^ (n * (e + 1)) := by
    rcases le_or_gt 0 e with hnonneg | hneg
    · calc
        ((10 : ℚ) ^ k) ^ e ≤ (2 ^ (n + 1)) ^ e :=
          zpow_le_zpow_left₀ hnonneg (pow_nonneg (by norm_num) k) hhigh'
        _ = 2 ^ ((n + 1 : ℕ) * e) := by rw [← zpow_natCast, zpow_mul]
        _ ≤ 2 ^ (n * (e + 1)) := zpow_le_zpow_right₀ htwo (by push_cast; linarith)
    · calc
        ((10 : ℚ) ^ k) ^ e = (((10 : ℚ) ^ k) ^ (-e))⁻¹ := by rw [zpow_neg, inv_inv]
        _ ≤ ((2 ^ n) ^ (-e))⁻¹ := inv_anti₀ (zpow_pos (pow_pos (by norm_num) n) _)
          (zpow_le_zpow_left₀ (by omega) (pow_nonneg (by norm_num) n) hlow')
        _ = 2 ^ (n * e) := by rw [zpow_neg, inv_inv, ← zpow_natCast, zpow_mul]
        _ ≤ 2 ^ (n * (e + 1)) := zpow_le_zpow_right₀ htwo (by linarith)
  rw [← pow_le_pow_iff_left₀ (zpow_nonneg (by norm_num) q) (zpow_nonneg (by norm_num) _) hn]
  calc
    ((10 : ℚ) ^ q) ^ n = 10 ^ (n * q) := by rw [← zpow_natCast, ← zpow_mul, mul_comm]
    _ ≤ 10 ^ (k * e) := zpow_le_zpow_right₀ (by norm_num) hq
    _ = (10 ^ k) ^ e := by rw [zpow_mul, zpow_natCast]
    _ ≤ 2 ^ (n * (e + 1)) := hpower
    _ = (2 ^ (e + 1)) ^ n := by rw [← zpow_natCast, ← zpow_mul, mul_comm]

/-- The logarithm of two is close to `0.30103`. -/
theorem ten_zpow_fdiv_le {e : ℤ} (he : e ≤ 100000) :
    (10 : ℚ) ^ Int.fdiv (e * 30103) 100000 ≤ 2 ^ (e + 1) := by
  have hfloor := Int.mul_fdiv_self_le (x := e * 30103) (k := 100000) (by decide)
  refine ten_zpow_le_two_zpow (n := 100000) (by decide) two_pow_le_ten_pow ten_pow_le_two_pow ?_ ?_
  · push_cast
    linarith
  · exact_mod_cast he

theorem gap_eq (m : ℕ) : gap m = 2 ^ (m / fractions - 1) := by
  rw [gap, Nat.shiftLeft_eq, Nat.one_mul]

theorem log2_scaled_le {m : ℕ} (hm : 0 < m) : Nat.log2 (scaled m) ≤ m / fractions - 1 + 52 := by
  have hpos : scaled m ≠ 0 := ((gap_pos m).trans_le (gap_le_scaled hm)).ne'
  have hlt : Nat.log2 (scaled m) < 53 + (m / fractions - 1) := by
    rw [Nat.log2_lt hpos, Nat.pow_add, ← gap_eq]
    exact scaled_lt_gap m
  omega

/-- Eighteen grids below a power of ten near the double, the grid is fine enough. -/
theorem fine_coarsest {m : ℕ} (hm : 0 < m) (hfinite : m < infinity) :
    (10 : ℚ) ^ (coarsest m - 19) * 2 ^ 1076 ≤ gap m := by
  have hlog := log2_scaled_le hm
  have hexponent : m / fractions - 1 < 2047 :=
    (Nat.sub_le _ 1).trans_lt (Nat.div_lt_of_lt_mul hfinite)
  rw [coarsest, gap_eq]
  generalize m / fractions - 1 = g at hlog hexponent ⊢
  have hten := ten_zpow_fdiv_le (show ((scaled m).log2 + 1 - 1074 : ℤ) ≤ 100000 by omega)
  generalize Int.fdiv (((scaled m).log2 + 1 - 1074 : ℤ) * 30103) 100000 = q at hten ⊢
  calc
    (10 : ℚ) ^ (q + 1 - 19) * 2 ^ 1076 = 10 ^ q * 10 ^ (-18 : ℤ) * 2 ^ (1076 : ℤ) := by
      rw [← zpow_add₀ (by norm_num), show q + 1 - 19 = q + -18 by ring]
      rfl
    _ ≤ 2 ^ (((scaled m).log2 + 1 - 1074 : ℤ) + 1) * 2 ^ (-59 : ℤ) * 2 ^ (1076 : ℤ) := by
      gcongr
      norm_num
    _ = 2 ^ ((scaled m).log2 - 55 : ℤ) := by
      rw [← zpow_add₀ (by norm_num), ← zpow_add₀ (by norm_num)]
      congr 1
      ring
    _ ≤ 2 ^ (g : ℤ) := zpow_le_zpow_right₀ (by norm_num) (by omega)
    _ = ((2 ^ g : ℕ) : ℚ) := by rw [zpow_natCast, Nat.cast_pow, Nat.cast_ofNat]

/-- The shortest digits of a magnitude are a number that rounds to it. -/
theorem contains_shortest {m : ℕ} (hm : 0 < m) (hfinite : m < infinity) :
    (roundingInterval m).Contains ((shortest m).1 * 10 ^ (shortest m).2) := by
  have hpick := isSome_pick hm (fine_coarsest hm hfinite)
  have hsearch : ((roundingInterval m).search 20 (coarsest m)).isSome = true :=
    isSome_search (by decide) hpick
  obtain ⟨result, hresult⟩ := Option.isSome_iff_exists.1 hsearch
  rw [shortest, hresult, Option.getD_some]
  exact RoundingInterval.reads_iff.1 (RoundingInterval.reads_of_search hresult)

theorem shortest_pos {m : ℕ} (hm : 0 < m) (hfinite : m < infinity) :
    (0 : ℚ) < (shortest m).1 * 10 ^ (shortest m).2 := by
  have hlow : (0 : ℚ) < (roundingInterval m).low := Nat.cast_pos.2 (low_pos hm)
  exact pos_of_mul_pos_left (hlow.trans_le (contains_shortest hm hfinite).bounds.1) units_pos.le

/-- The shortest digits tell magnitudes apart. -/
theorem eq_of_shortest {m n : ℕ} (hm : 0 < m) (hmfinite : m < infinity) (hn : 0 < n)
    (hnfinite : n < infinity) (h : ((shortest m).1 * 10 ^ (shortest m).2 : ℚ) =
      (shortest n).1 * 10 ^ (shortest n).2) : m = n := by
  have hcontains := contains_shortest hm hmfinite
  rw [h] at hcontains
  exact eq_of_contains hcontains (contains_shortest hn hnfinite)

end LiveDocs.Number
