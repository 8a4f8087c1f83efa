/-!
# Finite doubles

A finite IEEE 754 double is a sign and a *magnitude*, the exponent and fraction fields of its
binary64 pattern read as one number. Every finite double is a whole multiple of `2⁻¹⁰⁷⁴`; that
multiple is `scaled`, and all arithmetic here is exact arithmetic on it followed by one rounding
to nearest, ties to even. Main statements: `scaled_succ`, the gap is the distance to the next
magnitude; `scaled_lt_scaled_iff`, magnitudes order doubles by absolute value, so that comparing
`Double.key` compares values; `Double.isZero_ofInt_iff`, no whole number but zero is rounded to
zero.
-/

namespace LiveDocs.Number

/-- The magnitude of infinity; the finite magnitudes are those below it. -/
def infinity : Nat := 0x7FF0000000000000

/-- How many fractions there are for each exponent: `2 ^ 52`. -/
def fractions : Nat := 0x10000000000000

/-- The absolute value of the double with this magnitude, as a multiple of `2⁻¹⁰⁷⁴`. -/
def scaled (magnitude : Nat) : Nat :=
  if magnitude < fractions then magnitude
  else (fractions + magnitude % fractions) <<< (magnitude / fractions - 1)

/-- The distance to the next larger magnitude, as a multiple of `2⁻¹⁰⁷⁴`. -/
def gap (magnitude : Nat) : Nat := 1 <<< (magnitude / fractions - 1)

/-- The whole number nearest to `num / den`, and the even one of two that are equally near. -/
def nearestEven (num den : Nat) : Nat :=
  let quotient := num / den
  let remainder := num % den
  if 2 * remainder < den then quotient
  else if 2 * remainder = den then quotient + quotient % 2
  else quotient + 1

/-- The magnitude of the double nearest to `num / den`; `infinity` or more if it overflows. -/
def roundRatio (num den : Nat) : Nat :=
  let multiple := num <<< 1074
  let shift := Nat.log2 (multiple / den) - 52
  shift * fractions + nearestEven multiple (den <<< shift)

/-- A finite double. -/
structure Double where
  negative : Bool
  magnitude : Nat
  finite : magnitude < infinity := by decide
  deriving DecidableEq

/-- The double with this sign and magnitude, if the magnitude is finite. -/
def Double.ofMagnitude? (negative : Bool) (magnitude : Nat) : Option Double :=
  if h : magnitude < infinity then some ⟨negative, magnitude, h⟩ else none

/-- Zero with the given sign. -/
def Double.zero (negative : Bool) : Double := ⟨negative, 0, by decide⟩

/-- The double nearest to a whole number; the largest finite one if it overflows. -/
def Double.ofInt (n : Int) : Double :=
  ⟨decide (n < 0), min (roundRatio n.natAbs 1) (infinity - 1),
    Nat.lt_of_le_of_lt (Nat.min_le_right _ _) (by decide)⟩

/-- A whole number that is in the order of the doubles' values: both zeros have the key `0`. -/
def Double.key (d : Double) : Int := if d.negative then -(d.magnitude : Int) else d.magnitude

/-- The value is zero, of either sign. -/
def Double.isZero (d : Double) : Bool := d.magnitude == 0

/-- Only zero is rounded to zero: a whole number is far above the smallest double. -/
theorem roundRatio_one_eq_zero_iff {n : Nat} : roundRatio n 1 = 0 ↔ n = 0 := by
  constructor
  · intro h
    by_cases hn : n = 0
    · exact hn
    · have hne : ∀ k, n <<< k ≠ 0 := fun k => by
        rw [Nat.shiftLeft_eq]
        exact Nat.mul_ne_zero hn (Nat.ne_of_gt (Nat.two_pow_pos k))
      have hlog : ∀ k, k ≤ Nat.log2 (n <<< k) := fun k => by
        rw [Nat.le_log2 (hne k), Nat.shiftLeft_eq]
        exact Nat.le_mul_of_pos_left _ (Nat.pos_of_ne_zero hn)
      have hlarge := hlog 1074
      have hshift : 0 < (Nat.log2 (n <<< 1074) - 52) * fractions :=
        Nat.mul_pos (by omega) (by decide)
      rw [roundRatio, Nat.div_one] at h
      omega
  · rintro rfl
    decide +kernel

theorem Double.isZero_ofInt_iff {n : Int} : (Double.ofInt n).isZero = true ↔ n = 0 := by
  have hround : roundRatio n.natAbs 1 = 0 ↔ n.natAbs = 0 := roundRatio_one_eq_zero_iff
  have hinfinity : 0 < infinity - 1 := by decide
  rw [isZero, beq_iff_eq]
  change min (roundRatio n.natAbs 1) (infinity - 1) = 0 ↔ n = 0
  omega

theorem gap_pos (m : Nat) : 0 < gap m := by
  rw [gap, Nat.shiftLeft_eq, Nat.one_mul]
  exact Nat.two_pow_pos _

theorem scaled_of_lt {m : Nat} (h : m < fractions) : scaled m = m := if_pos h

theorem gap_of_lt {m : Nat} (h : m < fractions) : gap m = 1 := by
  rw [gap, Nat.div_eq_of_lt h]
  rfl

theorem scaled_of_le {m : Nat} (h : fractions ≤ m) :
    scaled m = (fractions + m % fractions) * gap m := by
  rw [scaled, if_neg (Nat.not_lt.2 h), gap, Nat.shiftLeft_eq, Nat.shiftLeft_eq, Nat.one_mul]

/-- From a power of two on, the doubles are twice as far apart. -/
theorem gap_succ_of_carry {m : Nat} (h : (m + 1) % fractions = 0 ∧ 1 < (m + 1) / fractions) :
    gap (m + 1) = 2 * gap m := by
  simp only [fractions] at h
  have hsucc : (m + 1) / 0x10000000000000 - 1 = m / 0x10000000000000 - 1 + 1 := by omega
  rw [gap, gap, fractions, hsucc, Nat.shiftLeft_succ]

theorem gap_succ_of_not_carry {m : Nat}
    (h : ¬((m + 1) % fractions = 0 ∧ 1 < (m + 1) / fractions)) : gap (m + 1) = gap m := by
  simp only [fractions] at h
  have hsame : (m + 1) / 0x10000000000000 - 1 = m / 0x10000000000000 - 1 := by omega
  rw [gap, gap, fractions, hsame]

theorem scaled_succ (m : Nat) : scaled (m + 1) = scaled m + gap m := by
  rcases Nat.lt_or_ge (m + 1) fractions with hlt | hge
  · have hlt' : m < fractions := Nat.lt_of_succ_lt hlt
    rw [scaled_of_lt hlt, scaled_of_lt hlt', gap_of_lt hlt']
  · rw [scaled_of_le hge]
    by_cases hcarry : (m + 1) % fractions = 0 ∧ 1 < (m + 1) / fractions
    · -- the largest fraction of one exponent is followed by the smallest one of the next
      have hmod : m % fractions = fractions - 1 := by
        simp only [fractions] at hcarry ⊢
        omega
      have hle : fractions ≤ m := by
        simp only [fractions] at hcarry ⊢
        omega
      rw [gap_succ_of_carry hcarry, scaled_of_le hle, hmod, hcarry.1, Nat.add_zero,
        ← Nat.mul_assoc, ← Nat.succ_mul]
      rfl
    · rw [gap_succ_of_not_carry hcarry]
      rcases Nat.lt_or_ge m fractions with hlt | hle
      · have hm : m + 1 = fractions := by omega
        rw [scaled_of_lt hlt, gap_of_lt hlt, hm, Nat.mod_self]
        omega
      · have hmod : (m + 1) % fractions = m % fractions + 1 := by
          simp only [fractions] at hcarry hle ⊢
          omega
        rw [scaled_of_le hle, hmod, ← Nat.add_assoc, Nat.succ_mul]

theorem scaled_lt_scaled_succ (m : Nat) : scaled m < scaled (m + 1) := by
  rw [scaled_succ]
  exact Nat.lt_add_of_pos_right (gap_pos m)

theorem scaled_lt_scaled {m n : Nat} (h : m < n) : scaled m < scaled n := by
  induction n with
  | zero => omega
  | succ n ih =>
    rcases Nat.lt_or_ge m n with hlt | hge
    · exact Nat.lt_trans (ih hlt) (scaled_lt_scaled_succ n)
    · have : m = n := by omega
      exact this ▸ scaled_lt_scaled_succ n

/-- Magnitudes order absolute values. -/
theorem scaled_lt_scaled_iff {m n : Nat} : scaled m < scaled n ↔ m < n := by
  refine ⟨fun h => ?_, scaled_lt_scaled⟩
  rcases Nat.lt_trichotomy m n with hlt | rfl | hgt
  · exact hlt
  · exact absurd h (Nat.lt_irrefl _)
  · exact absurd (scaled_lt_scaled hgt) (Nat.lt_asymm h)

/-! ### Decimal notation -/

/-- The magnitude of the double nearest to a power of ten. -/
def powerOfTen (k : Nat) : Nat := roundRatio (Nat.pow 10 k) 1

/-- The product of a double and a power of ten, rounded. -/
def timesPowerOfTen (magnitude k : Nat) : Nat :=
  roundRatio (scaled magnitude * scaled (powerOfTen k)) (1 <<< 2148)

/-- The quotient of a double and a power of ten, rounded. -/
def overPowerOfTen (magnitude k : Nat) : Nat :=
  roundRatio (scaled magnitude) (scaled (powerOfTen k))

/-- Division by `10 ^ k` in steps of at most `10 ^ 308`, the largest power of ten that is finite;
it stops when nothing is left. -/
def shrink (magnitude k : Nat) : Nat :=
  if magnitude = 0 then 0
  else if k ≤ 308 then overPowerOfTen magnitude k
  else shrink (overPowerOfTen magnitude 308) (k - 308)
termination_by k

/-- The double for a decimal number `± digits · 10 ^ exponent`: the digits are rounded first and
then scaled by a power of ten. There is none if the number is too large. -/
def Double.ofDecimal? (negative : Bool) (digits : Nat) (exponent : Int) : Option Double :=
  let magnitude := roundRatio digits 1
  if magnitude = 0 then some (.zero negative)
  else if exponent < 0 then ofMagnitude? negative (shrink magnitude exponent.natAbs)
  else if exponent ≤ 308 then ofMagnitude? negative (timesPowerOfTen magnitude exponent.toNat)
  else none

end LiveDocs.Number
