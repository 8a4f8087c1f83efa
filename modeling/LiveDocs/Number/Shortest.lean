import LiveDocs.Number.Double

/-!
# Shortest decimal digits of a double

The decimal numbers that round to a given double form an interval around it. `shortest` walks
through the decimal grids `10 ^ x` from coarse to fine and takes the first grid with a point in
that interval; of two points it takes the nearer one, and the even one of two equally near.
Main statement: `reads_of_search`, a point that the walk returns lies in the interval.
-/

namespace LiveDocs.Number

/-- The reals that round to a double, in units of `2⁻¹⁰⁷⁶`. The two ends belong to it if the
magnitude is even. Below a power of two the next double is only half as far away. -/
structure RoundingInterval where
  low : Nat
  value : Nat
  high : Nat
  closed : Bool

/-- The interval of the double with this magnitude. -/
def roundingInterval (magnitude : Nat) : RoundingInterval :=
  let value := 4 * scaled magnitude
  let unit := gap magnitude
  let lowGap := if magnitude % fractions = 0 ∧ 1 < magnitude / fractions then unit else 2 * unit
  ⟨value - lowGap, value, value + 2 * unit, magnitude % 2 == 0⟩

/-- The factors `(a, b)` for which the grid point `c · 10 ^ x` is to an end `l` of an interval as
`c * a` is to `l * b`. -/
def gridFactors (x : Int) : Nat × Nat :=
  if x < 0 then (1 <<< 1076, Nat.pow 10 x.natAbs) else (Nat.pow 10 x.toNat <<< 1076, 1)

/-- The grid point `c · 10 ^ x` rounds to the double of the interval. -/
def RoundingInterval.reads (i : RoundingInterval) (c : Nat) (x : Int) : Bool :=
  let (a, b) := gridFactors x
  if i.closed then decide (i.low * b ≤ c * a) && decide (c * a ≤ i.high * b)
  else decide (i.low * b < c * a) && decide (c * a < i.high * b)

/-- The better one of the two grid points around the value, if either of them rounds to it. -/
def RoundingInterval.pick (i : RoundingInterval) (x : Int) : Option Nat :=
  let (a, b) := gridFactors x
  let below := i.value * b / a
  match i.reads below x, i.reads (below + 1) x with
  | false, false => none
  | true, false => some below
  | false, true => some (below + 1)
  | true, true =>
    let down := i.value * b - below * a
    let up := (below + 1) * a - i.value * b
    if down < up then some below
    else if up < down then some (below + 1)
    else some (below + below % 2)

/-- Walks through at most `steps` grids, from `10 ^ x` on to finer ones. -/
def RoundingInterval.search (i : RoundingInterval) : (steps : Nat) → (x : Int) → Option (Nat × Int)
  | 0, _ => none
  | steps + 1, x =>
    match i.pick x with
    | some c => some (c, x)
    | none => i.search steps (x - 1)

/-- A power of ten above the double: its binary exponent times `log₁₀ 2`, rounded up. -/
def coarsest (magnitude : Nat) : Int :=
  Int.fdiv ((Nat.log2 (scaled magnitude) + 1 - 1074 : Int) * 30103) 100000 + 1

/-- The shortest digits `c` and the exponent `x` for which `c · 10 ^ x` reads back as the double
with this positive magnitude. Twenty grids reach seventeen digits from the coarsest one. -/
def shortest (magnitude : Nat) : Nat × Int :=
  ((roundingInterval magnitude).search 20 (coarsest magnitude)).getD (0, 0)

theorem RoundingInterval.reads_of_pick {i : RoundingInterval} {x : Int} {c : Nat}
    (h : i.pick x = some c) : i.reads c x = true := by
  rw [pick] at h
  simp only at h
  split at h
  · simp at h
  · rename_i hb _
    simp only [Option.some.injEq] at h
    exact h ▸ hb
  · rename_i _ hb
    simp only [Option.some.injEq] at h
    exact h ▸ hb
  · rename_i hlow hhigh
    split at h
    · simp only [Option.some.injEq] at h
      exact h ▸ hlow
    · split at h
      · simp only [Option.some.injEq] at h
        exact h ▸ hhigh
      · simp only [Option.some.injEq] at h
        rcases Nat.mod_two_eq_zero_or_one (i.value * (gridFactors x).2 / (gridFactors x).1) with
          he | ho
        · rw [he, Nat.add_zero] at h
          exact h ▸ hlow
        · rw [ho] at h
          exact h ▸ hhigh

theorem RoundingInterval.reads_of_search {i : RoundingInterval} {steps : Nat} {x : Int}
    {result : Nat × Int} (h : i.search steps x = some result) :
    i.reads result.1 result.2 = true := by
  induction steps generalizing x with
  | zero => simp [search] at h
  | succ steps ih =>
    rw [search] at h
    split at h
    · rename_i hp
      simp only [Option.some.injEq] at h
      exact h ▸ reads_of_pick hp
    · exact ih h

end LiveDocs.Number
