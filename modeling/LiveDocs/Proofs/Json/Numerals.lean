import LiveDocs.Json.Printer
import LiveDocs.Json.Reader
import LiveDocs.Proofs.Number.Shortest

/-!
# Texts of numbers

A text without a sign is read as digits, a fraction and an exponent, which together stand for a
rational number. What is printed for a whole number has only digits and is read as that number;
what is printed for a double has a fraction or an exponent and is read as the number of its shortest
digits, which tells it apart from all other doubles. So a number is known from its text, also if
more follows that cannot belong to it. Main statements: `notates_layout`, both notations of a double
are read as the number that they were made for; `JsonNumber.eq_of_text_append`, numbers with one
text are the same.
-/

namespace LiveDocs

namespace Reader

/-! ### The number that a text stands for -/

/-- The parts of a number without its sign. -/
structure Decimal where
  whole : List Char
  fraction : Option (List Char)
  exponent : Option Int

/-- Reads digits, a fraction and an exponent. -/
def decimal : Reader Decimal := fun text => do
  let (whole, text) ← digitRun text
  let (after, text) ← fraction text
  let (power, text) ← exponent text
  return (⟨whole, after, power⟩, text)

/-- The number that the parts stand for. -/
def Decimal.value (d : Decimal) : ℚ :=
  natOfDigits (d.whole ++ d.fraction.getD []) *
    10 ^ (d.exponent.getD 0 - (d.fraction.getD []).length)

/-- There are digits only. -/
def Decimal.IsWhole (d : Decimal) : Prop := d.fraction = none ∧ d.exponent = none

/-- The text does not go on with what could belong to a number. -/
def Stops (text : List Char) : Prop :=
  ∀ c ∈ text.head?, isDigit c = false ∧ c ≠ '.' ∧ c ≠ 'e' ∧ c ≠ 'E'

theorem stops_nil : Stops [] := fun _ hc => nomatch hc

theorem stops_cons {c : Char} (h : isDigit c = false ∧ c ≠ '.' ∧ c ≠ 'e' ∧ c ≠ 'E')
    (text : List Char) : Stops (c :: text) := by
  rintro d ⟨rfl⟩
  exact h

/-- The text does not go on with a digit. -/
def StopsDigits (text : List Char) : Prop := ∀ c ∈ text.head?, isDigit c = false

theorem Stops.stopsDigits {text : List Char} (h : Stops text) : StopsDigits text :=
  fun c hc => (h c hc).1

theorem stopsDigits_cons {c : Char} {text : List Char} (h : isDigit c = false) :
    StopsDigits (c :: text) := by
  intro d hd
  obtain rfl : c = d := Option.some.inj hd
  exact h

variable {ds rest : List Char}

theorem digitRun_append (hds : ∀ c ∈ ds, isDigit c = true) (hrest : StopsDigits rest) :
    digitRun (ds ++ rest) = some (ds, rest) := by
  have htake : rest.takeWhile isDigit = [] := by
    cases rest with
    | nil => rfl
    | cons c rest => exact List.takeWhile_cons_of_neg (by simp [hrest c rfl])
  have hdrop : rest.dropWhile isDigit = rest := by
    cases rest with
    | nil => rfl
    | cons c rest => exact List.dropWhile_cons_of_neg (by simp [hrest c rfl])
  rw [digitRun, List.takeWhile_append_of_pos hds, List.dropWhile_append_of_pos hds, htake, hdrop,
    List.append_nil]

theorem fraction_point (hnil : ds ≠ []) (hds : ∀ c ∈ ds, isDigit c = true)
    (hrest : StopsDigits rest) : fraction ('.' :: (ds ++ rest)) = some (some ds, rest) := by
  simp [fraction, digitRun_append hds hrest, hnil]

theorem fraction_of_ne_point (h : ∀ c ∈ rest.head?, c ≠ '.') :
    fraction rest = some (none, rest) := by
  unfold fraction
  split
  · exact absurd rfl (h '.' rfl)
  · rfl

theorem exponent_of_stops (h : Stops rest) : exponent rest = some (none, rest) := by
  cases rest with
  | nil => rfl
  | cons c rest =>
    obtain ⟨-, -, he, hE⟩ := h c rfl
    simp [exponent, he, hE]

theorem exponent_negative (hnil : ds ≠ []) (hds : ∀ c ∈ ds, isDigit c = true)
    (hrest : StopsDigits rest) :
    exponent ('e' :: '-' :: (ds ++ rest)) = some (some (-(natOfDigits ds : ℤ)), rest) := by
  simp [exponent, digitRun_append hds hrest, hnil]

theorem exponent_positive (hnil : ds ≠ []) (hds : ∀ c ∈ ds, isDigit c = true)
    (hrest : StopsDigits rest) :
    exponent ('e' :: '+' :: (ds ++ rest)) = some (some (natOfDigits ds : ℤ), rest) := by
  simp [exponent, digitRun_append hds hrest, hnil]

/-! ### Digits -/

theorem natOfDigits_eq (ds : List Char) : natOfDigits ds = Nat.ofDigitChars 10 ds 0 := by
  rw [natOfDigits, Nat.ofDigitChars]
  simp only [Nat.mul_comm]

theorem natOfDigits_toDigits (n : ℕ) : natOfDigits (Nat.toDigits 10 n) = n := by
  rw [natOfDigits_eq, Nat.ofDigitChars_ten_toDigits]

theorem natOfDigits_zeros_append (n : ℕ) (ds : List Char) :
    natOfDigits (List.replicate n '0' ++ ds) = natOfDigits ds := by
  rw [natOfDigits_eq, natOfDigits_eq, Nat.ofDigitChars_append, Nat.ofDigitChars_replicate_zero,
    Nat.mul_zero]

theorem natOfDigits_append_zeros (ds : List Char) (n : ℕ) :
    natOfDigits (ds ++ List.replicate n '0') = natOfDigits ds * 10 ^ n := by
  rw [natOfDigits_eq, natOfDigits_eq, Nat.ofDigitChars_append, Nat.ofDigitChars_replicate_zero,
    Nat.mul_comm]

theorem isDigit_of_mem_toDigits {n : ℕ} {c : Char} (h : c ∈ Nat.toDigits 10 n) :
    isDigit c = true :=
  Nat.isDigit_of_mem_toDigits (by decide) (by decide) h

theorem isDigit_of_mem_zero : ∀ c ∈ ['0'], isDigit c = true := List.forall_mem_singleton.2 rfl

theorem isDigit_of_mem_zeros {n : ℕ} {c : Char} (h : c ∈ List.replicate n '0') :
    isDigit c = true := by
  rw [List.eq_of_mem_replicate h]
  rfl

/-! ### Notations of a double -/

/-- The text is read as a number, whatever comes behind it, and has a point or an exponent. -/
def Notates (text : List Char) (value : ℚ) : Prop :=
  ∀ rest, Stops rest →
    ∃ d, decimal (text ++ rest) = some (d, rest) ∧ d.value = value ∧ ¬d.IsWhole

theorem decimal_pointed {whole after text : List Char} {power : Option ℤ}
    (hwhole : ∀ c ∈ whole, isDigit c = true) (hnil : after ≠ [])
    (hafter : ∀ c ∈ after, isDigit c = true) (htext : StopsDigits text)
    (hpower : exponent text = some (power, rest)) :
    decimal (whole ++ '.' :: after ++ text) = some (⟨whole, some after, power⟩, rest) := by
  have hpoint : StopsDigits ('.' :: (after ++ text)) := stopsDigits_cons rfl
  rw [List.append_assoc, List.cons_append]
  simp [decimal, digitRun_append hwhole hpoint, fraction_point hnil hafter htext, hpower]

theorem decimal_unpointed {whole text : List Char} {power : Option ℤ}
    (hwhole : ∀ c ∈ whole, isDigit c = true) (htext : StopsDigits text)
    (hpoint : ∀ c ∈ text.head?, c ≠ '.') (hpower : exponent text = some (power, rest)) :
    decimal (whole ++ text) = some (⟨whole, none, power⟩, rest) := by
  simp [decimal, digitRun_append hwhole htext, fraction_of_ne_point hpoint, hpower]

/-- Where no number starts, nothing is read. -/
theorem decimal_of_stops (h : Stops rest) : decimal rest = some (⟨[], none, none⟩, rest) :=
  @decimal_unpointed rest [] rest none (fun _ hc => (List.not_mem_nil hc).elim) h.stopsDigits
    (fun c hc => (h c hc).2.1) (exponent_of_stops h)

/-- Digits on both sides of a point. -/
theorem notates_pointed (whole after : List Char) (hwhole : ∀ c ∈ whole, isDigit c = true)
    (hnil : after ≠ []) (hafter : ∀ c ∈ after, isDigit c = true) :
    Notates (whole ++ '.' :: after)
      (natOfDigits (whole ++ after) * 10 ^ (-(after.length : ℤ))) := by
  intro rest hrest
  refine ⟨_, decimal_pointed hwhole hnil hafter hrest.stopsDigits (exponent_of_stops hrest), ?_,
    fun h => Option.some_ne_none _ h.1⟩
  rw [Decimal.value, Option.getD_some, Option.getD_none, zero_sub]

/-- The exponent that is printed after an `e`. -/
theorem exponent_toDigits (e : ℤ) (hrest : StopsDigits rest) :
    exponent ('e' :: (if e < 0 then '-' else '+') :: Nat.toDigits 10 e.natAbs ++ rest) =
      some (some e, rest) := by
  have hdigits : ∀ c ∈ Nat.toDigits 10 e.natAbs, isDigit c = true :=
    fun _ => isDigit_of_mem_toDigits
  rw [List.cons_append, List.cons_append]
  split
  · rename_i hneg
    rw [exponent_negative Nat.toDigits_ne_nil hdigits hrest, natOfDigits_toDigits,
      Int.ofNat_natAbs_of_nonpos hneg.le, neg_neg]
  · rename_i hneg
    rw [exponent_positive Nat.toDigits_ne_nil hdigits hrest, natOfDigits_toDigits,
      Int.natAbs_of_nonneg (not_lt.1 hneg)]

/-- A single digit and an exponent. -/
theorem notates_digit {first : Char} (hfirst : isDigit first = true) (e : ℤ) :
    Notates ([first] ++ 'e' :: (if e < 0 then '-' else '+') :: Nat.toDigits 10 e.natAbs)
      (natOfDigits [first] * 10 ^ e) := by
  intro rest hrest
  rw [List.append_assoc]
  refine ⟨_, decimal_unpointed (List.forall_mem_singleton.2 hfirst) (stopsDigits_cons rfl) ?_
    (exponent_toDigits e hrest.stopsDigits), ?_, fun h => Option.some_ne_none _ h.2⟩
  · rintro c ⟨rfl⟩
    decide
  · rw [Decimal.value, Option.getD_none, Option.getD_some, List.append_nil, List.length_nil,
      Nat.cast_zero, sub_zero]

/-- Several digits with a point behind the first one, and an exponent. -/
theorem notates_scientific {first : Char} {after : List Char} (hfirst : isDigit first = true)
    (hnil : after ≠ []) (hafter : ∀ c ∈ after, isDigit c = true) (e : ℤ) :
    Notates ([first] ++ '.' :: after ++
        'e' :: (if e < 0 then '-' else '+') :: Nat.toDigits 10 e.natAbs)
      (natOfDigits (first :: after) * 10 ^ (e - after.length)) := by
  intro rest hrest
  rw [List.append_assoc]
  refine ⟨_, decimal_pointed (List.forall_mem_singleton.2 hfirst) hnil hafter
    (stopsDigits_cons rfl) (exponent_toDigits e hrest.stopsDigits), ?_,
    fun h => Option.some_ne_none _ h.1⟩
  rw [Decimal.value, Option.getD_some, Option.getD_some, List.singleton_append]

theorem Notates.of_eq {text : List Char} {value value' : ℚ} (h : Notates text value)
    (hvalue : value = value') : Notates text value' := hvalue ▸ h

/-- What is printed for some digits is read as the number that they stand for. -/
theorem notates_layout (hnil : ds ≠ []) (hds : ∀ c ∈ ds, isDigit c = true) (e : ℤ) :
    Notates (Number.layout ds e) (natOfDigits ds * 10 ^ (e + 1 - ds.length)) := by
  unfold Number.layout
  split
  · -- zeros stand between the point and the digits
    have hafter : ∀ c ∈ List.replicate (e.natAbs - 1) '0' ++ ds, isDigit c = true := fun c hc =>
      (List.mem_append.1 hc).elim isDigit_of_mem_zeros (hds c)
    have hzeros : natOfDigits (['0'] ++ (List.replicate (e.natAbs - 1) '0' ++ ds)) =
        natOfDigits ds := by
      rw [← List.append_assoc, ← List.replicate_one, ← List.replicate_add, natOfDigits_zeros_append]
    refine (notates_pointed ['0'] _ isDigit_of_mem_zero (by simp [hnil]) hafter).of_eq ?_
    rw [hzeros, List.length_append, List.length_replicate]
    congr 2
    omega
  · split
    · dsimp only
      split
      · -- zeros fill the digits up to the point, and one stands behind it
        have hwhole : ∀ c ∈ ds ++ List.replicate (e.toNat + 1 - ds.length) '0', isDigit c = true :=
          fun c hc => (List.mem_append.1 hc).elim (hds c) isDigit_of_mem_zeros
        have hzeros : natOfDigits (ds ++ List.replicate (e.toNat + 1 - ds.length) '0' ++ ['0']) =
            natOfDigits ds * 10 ^ (e.toNat + 1 - ds.length + 1) := by
          rw [List.append_assoc, ← List.replicate_succ', natOfDigits_append_zeros]
        refine (notates_pointed _ ['0'] hwhole (List.cons_ne_nil _ _) isDigit_of_mem_zero).of_eq ?_
        rw [hzeros, Nat.cast_mul, Nat.cast_pow, Nat.cast_ofNat, mul_assoc, ← zpow_natCast,
          ← zpow_add₀ (by norm_num), List.length_singleton]
        congr 2
        omega
      · -- the point stands between the digits
        have hdrop : ds.drop (e.toNat + 1) ≠ [] := by
          rw [Ne, List.drop_eq_nil_iff]
          omega
        refine (notates_pointed _ _ (fun c hc => hds c (List.mem_of_mem_take hc)) hdrop
          (fun c hc => hds c (List.mem_of_mem_drop hc))).of_eq ?_
        rw [List.take_append_drop, List.length_drop]
        congr 2
        omega
    · -- the exponent is written
      match ds with
      | [] => exact absurd rfl hnil
      | [first] =>
        refine (notates_digit (hds first List.mem_cons_self) e).of_eq ?_
        rw [List.length_singleton, Nat.cast_one, add_sub_cancel_right]
      | first :: second :: more =>
        refine (notates_scientific (hds first List.mem_cons_self) (List.cons_ne_nil second more)
          (fun c hc => hds c (List.mem_cons_of_mem _ hc)) e).of_eq ?_
        rw [List.length_cons (a := first)]
        congr 2
        omega

end Reader

/-! ### Numbers are known from their texts -/

namespace Number

/-- The text of the absolute value of a double. -/
def Double.unsigned (d : Double) : List Char :=
  if d.magnitude = 0 then ['0', '.', '0']
  else layout (digits (shortest d.magnitude).1)
    ((shortest d.magnitude).2 + (digits (shortest d.magnitude).1).length - 1)

theorem Double.toList_text (d : Double) :
    d.text.toList = if d.negative then '-' :: d.unsigned else d.unsigned := by
  rw [text, String.toList_ofList]
  rfl

/-- The shortest decimal number that rounds to the absolute value of a double. -/
def Double.decimal (d : Double) : ℚ :=
  if d.magnitude = 0 then 0 else (shortest d.magnitude).1 * 10 ^ (shortest d.magnitude).2

theorem Double.notates_unsigned (d : Double) : Reader.Notates d.unsigned d.decimal := by
  rw [unsigned, decimal]
  split
  · refine (Reader.notates_pointed ['0'] ['0'] Reader.isDigit_of_mem_zero (List.cons_ne_nil _ _)
      Reader.isDigit_of_mem_zero).of_eq ?_
    rw [show Reader.natOfDigits (['0'] ++ ['0']) = 0 from rfl, Nat.cast_zero, zero_mul]
  · have hdigits : digits (shortest d.magnitude).1 ≠ [] := Nat.toDigits_ne_nil
    refine (Reader.notates_layout hdigits (fun _ => Reader.isDigit_of_mem_toDigits) _).of_eq ?_
    rw [digits, Reader.natOfDigits_toDigits]
    congr 2
    ring

theorem Double.eq_of_decimal {d d' : Double} (hsign : d.negative = d'.negative)
    (h : d.decimal = d'.decimal) : d = d' := by
  obtain ⟨negative, m, hm⟩ := d
  obtain ⟨negative', m', hm'⟩ := d'
  obtain rfl : negative = negative' := hsign
  have hmagnitude : m = m' := by
    simp only [decimal] at h
    split at h
    · rename_i hzero
      split at h
      · rename_i hzero'
        rw [hzero, hzero']
      · rename_i hne
        exact absurd h (shortest_pos (Nat.pos_of_ne_zero hne) hm').ne
    · rename_i hne
      split at h
      · exact absurd h (shortest_pos (Nat.pos_of_ne_zero hne) hm).ne'
      · rename_i hne'
        exact eq_of_shortest (Nat.pos_of_ne_zero hne) hm (Nat.pos_of_ne_zero hne') hm' h
  obtain rfl := hmagnitude
  rfl

end Number

namespace JsonNumber

open Reader (Stops Decimal)

/-- The number has a minus sign. -/
def negative : JsonNumber → Bool
  | int value => decide (value < 0)
  | double value => value.negative

/-- The text of the number without its sign. -/
def unsigned : JsonNumber → List Char
  | int value => Nat.toDigits 10 value.natAbs
  | double value => value.unsigned

/-- The number that the text without its sign stands for. -/
def decimal : JsonNumber → ℚ
  | int value => value.natAbs
  | double value => value.decimal

/-- It is a whole number. -/
def IsInt : JsonNumber → Prop
  | int _ => True
  | double _ => False

variable {m n : JsonNumber} {rest rest' : List Char}

theorem toList_text (n : JsonNumber) :
    n.text.toList = if n.negative then '-' :: n.unsigned else n.unsigned := by
  cases n with
  | int value =>
    rw [text, negative, unsigned, Nat.toString_eq_ofList_toDigits]
    by_cases hneg : value < 0 <;> simp [hneg]
  | double value => exact value.toList_text

/-- The text of a number is read as the number, and as a whole one if it is one. -/
theorem exists_decimal_unsigned (n : JsonNumber) (hrest : Stops rest) :
    ∃ d : Decimal, Reader.decimal (n.unsigned ++ rest) = some (d, rest) ∧ d.value = n.decimal ∧
      (d.IsWhole ↔ n.IsInt) := by
  cases n with
  | int value =>
    refine ⟨⟨Nat.toDigits 10 value.natAbs, none, none⟩,
      Reader.decimal_unpointed (fun _ => Reader.isDigit_of_mem_toDigits) hrest.stopsDigits
        (fun c hc => (hrest c hc).2.1) (Reader.exponent_of_stops hrest), ?_,
      iff_of_true ⟨rfl, rfl⟩ trivial⟩
    rw [Decimal.value, Option.getD_none, Option.getD_none, List.append_nil,
      Reader.natOfDigits_toDigits, List.length_nil, Nat.cast_zero, sub_zero, zpow_zero, mul_one,
      decimal]
  | double value =>
    obtain ⟨d, hd, hvalue, hwhole⟩ := value.notates_unsigned rest hrest
    exact ⟨d, hd, hvalue, iff_of_false hwhole id⟩

/-- The text of a number starts with what belongs to a number. -/
theorem not_stops_unsigned (n : JsonNumber) (hrest : Stops rest) : ¬Stops (n.unsigned ++ rest) := by
  intro h
  obtain ⟨d, hd, -, hwhole⟩ := exists_decimal_unsigned n hrest
  rw [Reader.decimal_of_stops h] at hd
  obtain ⟨rfl, hnothing⟩ := Prod.mk.inj (Option.some.inj hd)
  cases n with
  | int value => exact Nat.toDigits_ne_nil (List.append_left_eq_self.1 hnothing)
  | double value => exact hwhole.1 ⟨rfl, rfl⟩

theorem unsigned_append_ne_minus (n : JsonNumber) (hrest : Stops rest) (text : List Char) :
    n.unsigned ++ rest ≠ '-' :: text := by
  intro h
  refine not_stops_unsigned n hrest ?_
  rw [h]
  exact Reader.stops_cons (by decide) text

theorem eq_of_decimal (hsign : m.negative = n.negative) (hkind : m.IsInt ↔ n.IsInt)
    (h : m.decimal = n.decimal) : m = n := by
  cases m with
  | int a =>
    cases n with
    | int b =>
      have habs : a.natAbs = b.natAbs := Nat.cast_injective (R := ℚ) h
      have hneg : a < 0 ↔ b < 0 := decide_eq_decide.1 hsign
      rw [show a = b by omega]
    | double b => exact (hkind.1 trivial).elim
  | double a =>
    cases n with
    | int b => exact (hkind.2 trivial).elim
    | double b => exact congrArg double (Number.Double.eq_of_decimal hsign h)

/-- Numbers with one text are the same, whatever comes behind their texts. -/
theorem eq_of_text_append (hrest : Stops rest) (hrest' : Stops rest')
    (h : m.text.toList ++ rest = n.text.toList ++ rest') : m = n ∧ rest = rest' := by
  have hsign : m.negative = n.negative := by
    rw [toList_text, toList_text] at h
    cases hm : m.negative with
    | false =>
      cases hn : n.negative with
      | false => rfl
      | true =>
        rw [hm, hn, if_neg Bool.false_ne_true, if_pos rfl] at h
        exact absurd h (unsigned_append_ne_minus m hrest _)
    | true =>
      cases hn : n.negative with
      | false =>
        rw [hm, hn, if_pos rfl, if_neg Bool.false_ne_true] at h
        exact absurd h.symm (unsigned_append_ne_minus n hrest' _)
      | true => rfl
  have hunsigned : m.unsigned ++ rest = n.unsigned ++ rest' := by
    rw [toList_text, toList_text, hsign] at h
    split at h
    · exact (List.cons.inj h).2
    · exact h
  obtain ⟨d, hd, hvalue, hwhole⟩ := exists_decimal_unsigned m hrest
  obtain ⟨d', hd', hvalue', hwhole'⟩ := exists_decimal_unsigned n hrest'
  rw [hunsigned, hd'] at hd
  obtain ⟨rfl, rfl⟩ := Prod.mk.inj (Option.some.inj hd)
  exact ⟨eq_of_decimal hsign (hwhole.symm.trans hwhole') (hvalue.symm.trans hvalue'), rfl⟩

end JsonNumber

end LiveDocs
