import AgentTelepathy.Foundation.Decimal
import AgentTelepathy.Foundation.Dialect

/-!
# Numbers in Python and in JavaScript

Python and JavaScript write the same shortest digits of a double, but lay them out
differently: they agree where both put the point between the digits, and where both use
an exponent of two digits or more. Python writes an integer with all its digits, which
JavaScript, and Go, do only if those are the shortest digits of the nearest double. What
JavaScript writes without a point and without an exponent Python reads as an integer.
-/

namespace Foundation

open Float64 JsonText

/-! ### Layouts -/

namespace Float64

/-- So many digits with the point after the first `point` of them have one layout. -/
def Shared (length : ℕ) (point : ℤ) : Prop :=
  -4 < point ∧ point ≤ 16 ∧ point < length ∨ point ≤ -9 ∨ 21 < point

instance (length : ℕ) (point : ℤ) : Decidable (Shared length point) :=
  inferInstanceAs (Decidable (_ ∨ _))

theorem length_digits_lt_two_iff (n : ℕ) : (digits n).length < 2 ↔ n < 10 := by
  have fits := Nat.length_toDigits_le_iff (b := 10) (n := n) (k := 1) (by decide) (by decide)
  rw [digits, Nat.lt_succ_iff, fits, pow_one]

section Layout

variable {ds : List Char} {point : ℤ} (nonempty : ds ≠ [])
  (only : ∀ c ∈ ds, c.isDigit = true)

include only in
/-- Without an exponent there is no letter. -/
theorem plain_layout (plain : -6 < point ∧ point ≤ 21) : 'e' ∉ Ecma.layout ds point := by
  have none {cs : List Char} (digit : ∀ c ∈ cs, c.isDigit = true) : 'e' ∉ cs := fun member =>
    absurd (digit 'e' member) (by decide)
  have zeros (k : ℕ) : 'e' ∉ List.replicate k '0' := fun member =>
    absurd (List.eq_of_mem_replicate member) (by decide)
  rw [Ecma.layout, if_pos plain]
  split_ifs
  · simp [none only, zeros]
  · simp [none only, zeros]
  · simp [none fun c h => only c (List.mem_of_mem_take h),
      none fun c h => only c (List.mem_of_mem_drop h)]

include nonempty only

theorem layout_eq_iff : layout ds point = Ecma.layout ds point ↔ Shared ds.length point := by
  have long := List.length_pos_iff.mpr nonempty
  by_cases python : -4 < point ∧ point ≤ 16
  · have ecma : -6 < point ∧ point ≤ 21 := by omega
    rw [layout, Ecma.layout, if_pos python, if_pos ecma]
    split_ifs with small short
    · exact iff_of_true rfl (by unfold Shared; omega)
    · -- Python writes a fraction.
      refine iff_of_false (fun same => ?_) (by unfold Shared; omega)
      have lengths := congrArg List.length same
      simp at lengths
    · exact iff_of_true rfl (by unfold Shared; omega)
  · have power : 'e' ∈ layout ds point := by
      rw [layout, if_neg python]
      simp
    by_cases ecma : -6 < point ∧ point ≤ 21
    · refine iff_of_false (fun same => ?_) (by unfold Shared; omega)
      exact plain_layout only ecma (same ▸ power)
    · rw [layout, Ecma.layout, if_neg python, if_neg ecma]
      dsimp only
      -- Python pads the exponent to two digits.
      have small := length_digits_lt_two_iff (point - 1).natAbs
      by_cases padded : (digits (point - 1).natAbs).length < 2
      · rw [if_pos padded]
        refine iff_of_false (fun same => ?_) (by unfold Shared; omega)
        have lengths := congrArg List.length same
        simp at lengths
      · rw [if_neg padded]
        exact iff_of_true rfl (by unfold Shared; omega)

end Layout

end Float64

namespace Binary64

/-- Python and JavaScript write the number alike. -/
def Shared (b : Binary64) : Prop :=
  b.mant ≠ 0 ∧ Float64.Shared (Float64.decimal b).1.length (Float64.decimal b).2

/-- JavaScript writes the number without a point and without an exponent. -/
def Whole (b : Binary64) : Prop :=
  b.mant = 0 ∨ (Float64.decimal b).1.length ≤ (Float64.decimal b).2 ∧ (Float64.decimal b).2 ≤ 21

instance (b : Binary64) : Decidable b.Shared := inferInstanceAs (Decidable (_ ∧ _))

instance (b : Binary64) : Decidable b.Whole := inferInstanceAs (Decidable (_ ∨ _))

theorem repr_zero {b : Binary64} (zero : b.mant = 0) :
    Float64.repr (.finite b) = signed b.neg ['0', '.', '0'] := by
  rw [b.eq_zero zero]
  cases b.neg <;> rfl

theorem signed_injective (neg : Bool) : Function.Injective (signed neg) := by
  intro x y same
  cases neg with
  | true => exact (List.cons.inj same).2
  | false => exact same

theorem repr_eq_layout_iff {b : Binary64} (nonzero : b.mant ≠ 0) :
    Float64.repr (.finite b) = signed b.neg (Ecma.layout (decimal b).1 (decimal b).2) ↔
      b.Shared := by
  obtain ⟨n, only⟩ := Decimal.decimal_digits b
  rw [repr_eq_layout nonzero, (signed_injective b.neg).eq_iff,
    layout_eq_iff (only ▸ digits_ne_nil n) (only ▸ fun c => digits_isDigit)]
  exact ⟨fun shared => ⟨nonzero, shared⟩, fun shared => shared.2⟩

/-- The number is written alike by Python and by JavaScript. -/
theorem repr_eq_numberText_iff (b : Binary64) :
    Float64.repr (.finite b) = Ecma.numberText (.finite b) ↔ b.Shared := by
  by_cases zero : b.mant = 0
  · refine iff_of_false (fun same => ?_) fun shared => shared.1 zero
    rw [repr_zero zero, Ecma.numberText, if_pos zero] at same
    cases neg : b.neg <;> simp [neg, signed] at same
  · rw [Ecma.numberText, if_neg zero]
    exact repr_eq_layout_iff zero

theorem not_whole_of_shared {b : Binary64} (shared : b.Shared) : ¬ b.Whole := by
  obtain ⟨nonzero, shared⟩ := shared
  rintro (zero | whole)
  · exact nonzero zero
  · obtain ⟨n, only⟩ := Decimal.decimal_digits b
    have long := List.length_pos_iff.mpr (only ▸ digits_ne_nil n : (decimal b).1 ≠ [])
    unfold Float64.Shared at shared
    omega

end Binary64

/-! ### Reading in Python -/

namespace Numeral

/-- A property of all characters of a text is decided by going through the text. -/
local instance decideForall (cs : List Char) (p : Char → Prop) [DecidablePred p] :
    Decidable (∀ c ∈ cs, p c) := List.decidableBAll p cs

/-- How `json.loads` reads the text of a number: an integer unless it has a point or an
exponent. -/
def ofText (cs : List Char) : Numeral :=
  match Decimal.read cs with
  | none => .inr .nan
  | some d =>
    if ∀ c ∈ cs, c.isDigit = true ∨ c = '-' then .inl (if d.neg then -d.digits else d.digits)
    else .inr d.toFloat

/-- The integer of a sign and a magnitude. -/
def signedInt (neg : Bool) (n : ℕ) : ℤ := if neg then -n else n

theorem natAbs_signedInt (neg : Bool) (n : ℕ) : (signedInt neg n).natAbs = n := by
  cases neg <;> simp [signedInt]

theorem ofInt_signedInt {n : ℕ} (positive : 0 < n) (neg : Bool) :
    Float64.ofInt (signedInt neg n) = ofRatio neg n 1 := by
  have sign : decide (signedInt neg n < 0) = neg := by
    cases neg <;> simp [signedInt, positive]
  rw [Float64.ofInt, natAbs_signedInt, sign]

theorem ofText_digits (neg : Bool) (n : ℕ) :
    ofText (signed neg (digits n)) = .inl (signedInt neg n) := by
  have only : ∀ c ∈ digits n, c.isDigit = true := fun c => digits_isDigit
  have read : Decimal.read (signed neg (digits n)) = some ⟨neg, n, 0⟩ := by
    have whole := Decimal.readUnsigned_whole neg [] (digits_ne_nil n) only nofun rfl
    rw [List.append_nil, digitsValue_digits] at whole
    exact Decimal.read_signed whole
  have plain : ∀ c ∈ signed neg (digits n), c.isDigit = true ∨ c = '-' := by
    cases neg with
    | true => exact List.forall_mem_cons.mpr ⟨.inr rfl, fun c h => .inl (only c h)⟩
    | false => exact fun c h => .inl (only c h)
  rw [ofText, read]
  exact if_pos plain

theorem ofText_intText (n : ℤ) : ofText (intText n) = .inl n := by
  rw [intText, ofText_digits, signedInt]
  congr 1
  by_cases negative : n < 0
  · simp only [negative, decide_true, if_true]
    omega
  · simp only [negative, decide_false, Bool.false_eq_true, if_false]
    omega

/-- The digits of a number with zeros behind them. -/
theorem digits_mul_pow {n : ℕ} (positive : 0 < n) (k : ℕ) :
    digits (n * 10 ^ k) = digits n ++ List.replicate k '0' := by
  induction k with
  | zero => simp
  | succ k ih =>
    have big : 10 ≤ n * 10 ^ (k + 1) := by
      rw [pow_succ, ← mul_assoc]
      exact Nat.le_mul_of_pos_left 10 (Nat.mul_pos positive (Nat.pow_pos (by decide)))
    rw [digits, Nat.toDigits_of_base_le (by decide) big, pow_succ, ← mul_assoc,
      Nat.mul_div_cancel _ (by decide), Nat.mul_mod_left, ← digits, ih, List.append_assoc,
      List.replicate_succ']
    rfl

variable {b : Binary64}

/-- The shortest digits of a number that is not zero do not start with zero. -/
theorem exists_digits (nonzero : b.mant ≠ 0) : ∃ n, 0 < n ∧ (decimal b).1 = digits n := by
  obtain ⟨n, only⟩ := Decimal.decimal_digits b
  refine ⟨n, Nat.pos_of_ne_zero fun nothing => nonzero ?_, only⟩
  have rounds := Decimal.toFloat_shortest b
  rw [Decimal.shortest, if_neg nonzero, only, nothing] at rounds
  have value : Decimal.toFloat ⟨b.neg, 0, (decimal b).2 - (digits 0).length⟩ = zero b.neg := by
    simp [Decimal.toFloat, ofDecimal, ofRatio]
  exact (congrArg Binary64.mant (Float64.finite.inj (value.symm.trans rounds))).symm

theorem roundHalfEven_between (n m : ℕ) :
    n / m ≤ roundHalfEven n m ∧ roundHalfEven n m ≤ n / m + 1 := by
  unfold roundHalfEven
  dsimp only
  split_ifs <;> omega

theorem length_significand_le {round : ℕ → ℕ → ℕ} {num den k : ℕ} (hnum : num ≠ 0)
    (hden : den ≠ 0) (hk : 0 < k) (near : ∀ n m, round n m ≤ n / m + 1) :
    (significand round num den k).1.length ≤ k := by
  obtain ⟨-, high⟩ := floorLog10_spec hnum hden
  rw [significand]
  generalize floorLog10 num den = p at high
  have bottom : 0 < den * 10 ^ (p - k + 1).toNat :=
    Nat.mul_pos (Nat.pos_of_ne_zero hden) (Nat.pow_pos (by decide))
  have quotient : num * 10 ^ (-(p - k + 1)).toNat / (den * 10 ^ (p - k + 1).toNat) < 10 ^ k := by
    have scaled := scaled_ratio num den 10 (p - k + 1)
    have below : (num : ℚ) / den / 10 ^ (p - k + 1) < 10 ^ k := by
      rw [div_lt_iff₀ (by positivity), ← zpow_natCast, ← zpow_add₀ (by norm_num)]
      rwa [show (k : ℤ) + (p - k + 1) = p + 1 by ring]
    rw [Nat.div_lt_iff_lt_mul bottom]
    rw [Nat.cast_ofNat] at scaled
    rw [← scaled, div_lt_iff₀ (by exact_mod_cast bottom)] at below
    exact_mod_cast below
  have bound := near (num * 10 ^ (-(p - k + 1)).toNat) (den * 10 ^ (p - k + 1).toNat)
  generalize round (num * 10 ^ (-(p - k + 1)).toNat) (den * 10 ^ (p - k + 1).toNat) = d at bound
  split_ifs with full
  · rw [digits, Nat.length_toDigits_le_iff (by decide) hk]
    exact Nat.pow_lt_pow_right (by decide) (Nat.sub_one_lt hk.ne')
  · rw [digits, Nat.length_toDigits_le_iff (by decide) hk]
    omega

/-- Seventeen digits are enough. -/
theorem length_decimal_le (nonzero : b.mant ≠ 0) : (decimal b).1.length ≤ 17 := by
  have hden : 2 ^ (-b.exp).toNat ≠ 0 := pow_ne_zero _ two_ne_zero
  have hnum : b.mant * 2 ^ b.exp.toNat ≠ 0 := Nat.mul_ne_zero nonzero (pow_ne_zero _ two_ne_zero)
  have half (n m : ℕ) : roundHalfEven n m ≤ n / m + 1 := (roundHalfEven_between n m).2
  rw [decimal]
  generalize found : List.find? _ _ = d
  cases d with
  | none => exact length_significand_le hnum hden (by decide) half
  | some d =>
    obtain ⟨k, range, member⟩ := List.mem_flatMap.mp (List.mem_of_find?_eq_some found)
    obtain ⟨round, either, rfl⟩ := List.mem_map.mp member
    obtain ⟨from', to'⟩ := List.mem_range'_1.mp range
    have near : ∀ n m, round n m ≤ n / m + 1 := by
      rcases List.mem_pair.mp either with rfl | rfl
      · exact half
      · exact fun _ _ => le_rfl
    exact (length_significand_le hnum hden from' near).trans (by omega)

/-- The number that the shortest digits make, with zeros behind them. -/
def whole (b : Binary64) : ℤ :=
  signedInt b.neg (digitsValue (decimal b).1 *
    10 ^ ((decimal b).2 - (decimal b).1.length).toNat)

theorem intText_signedInt {n : ℕ} (positive : 0 < n) (neg : Bool) :
    intText (signedInt neg n) = signed neg (digits n) := by
  cases neg with
  | true =>
    have below : decide (-(n : ℤ) < 0) = true := decide_eq_true (by omega)
    rw [signedInt, if_pos rfl, intText, below, Int.natAbs_neg, Int.natAbs_natCast]
  | false =>
    have above : decide ((n : ℤ) < 0) = false := decide_eq_false (by omega)
    rw [signedInt, if_neg Bool.false_ne_true, intText, above, Int.natAbs_natCast]

/-- Digits with zeros behind them are written as the integer they make. -/
theorem layout_digits {n : ℕ} (positive : 0 < n) (neg : Bool) {point : ℤ}
    (plain : (digits n).length ≤ point ∧ point ≤ 21) :
    signed neg (Ecma.layout (digits n) point) =
      intText (signedInt neg (n * 10 ^ (point - (digits n).length).toNat)) := by
  have long := List.length_pos_iff.mpr (digits_ne_nil n)
  have pad : point.toNat - (digits n).length = (point - (digits n).length).toNat := by omega
  rw [Ecma.layout, if_pos ⟨by omega, plain.2⟩, if_neg (by omega), if_pos (by omega), pad,
    ← digits_mul_pow positive,
    intText_signedInt (Nat.mul_pos positive (Nat.pow_pos (by decide)))]

/-- What is written without point and exponent is read as an integer, other numbers as floats. -/
theorem ofText_ecma {n : ℕ} (positive : 0 < n) (neg : Bool) (point : ℤ) :
    ofText (signed neg (Ecma.layout (digits n) point)) =
      if (digits n).length ≤ point ∧ point ≤ 21 then
        .inl (signedInt neg (n * 10 ^ (point - (digits n).length).toNat))
      else .inr (Decimal.toFloat ⟨neg, n, point - (digits n).length⟩) := by
  by_cases plain : (digits n).length ≤ point ∧ point ≤ 21
  · rw [if_pos plain, layout_digits positive neg plain, ofText_intText]
  · rw [if_neg plain]
    have only : ∀ c ∈ digits n, c.isDigit = true := fun c => digits_isDigit
    obtain ⟨d, reads, sign, size⟩ : Decimal.Reads neg (Ecma.layout (digits n) point) (digits n)
        point := Decimal.reads_ecma (digits_ne_nil n) only
    rw [digitsValue_digits] at size
    rw [ofText, Decimal.read_signed reads]
    refine (if_neg fun all => ?_).trans (congrArg Sum.inr (Decimal.toFloat_congr sign size))
    -- The text would consist of digits, but it has a point or an exponent.
    have inside {c : Char} (member : c ∈ Ecma.layout (digits n) point) :
        c.isDigit = true ∨ c = '-' := by
      refine all c ?_
      cases neg with
      | true => exact List.mem_cons_of_mem _ member
      | false => exact member
    by_cases power : -6 < point ∧ point ≤ 21
    · have point : '.' ∈ Ecma.layout (digits n) point := by
        rw [Ecma.layout, if_pos power]
        split_ifs with small
        · simp
        · omega
        · simp
      exact absurd (inside point) (by decide)
    · have letter : 'e' ∈ Ecma.layout (digits n) point := by
        rw [Ecma.layout, if_neg power]
        simp
      exact absurd (inside letter) (by decide)

/-- A number without point and exponent is written as the integer of its digits. -/
theorem layout_whole (nonzero : b.mant ≠ 0) (plain : b.Whole) :
    signed b.neg (Ecma.layout (decimal b).1 (decimal b).2) = intText (whole b) := by
  obtain ⟨n, positive, only⟩ := exists_digits nonzero
  have plain := plain.resolve_left nonzero
  rw [only] at plain
  rw [whole, only, digitsValue_digits, layout_digits positive _ plain]

theorem ofText_layout (nonzero : b.mant ≠ 0) :
    ofText (signed b.neg (Ecma.layout (decimal b).1 (decimal b).2)) =
      if b.Whole then .inl (whole b) else .inr (.finite b) := by
  obtain ⟨n, positive, only⟩ := exists_digits nonzero
  have rounds := Decimal.toFloat_shortest b
  rw [Decimal.shortest, if_neg nonzero, only, digitsValue_digits] at rounds
  have plain : b.Whole ↔ (digits n).length ≤ (decimal b).2 ∧ (decimal b).2 ≤ 21 := by
    rw [Binary64.Whole, or_iff_right nonzero, only]
  rw [whole, only, digitsValue_digits, ofText_ecma positive, rounds]
  simp only [plain]

/-- The shortest digits of the double next to the integer are those of the integer. -/
def Exact (n : ℤ) : Prop := n = 0 ∨ ∃ b, Float64.ofInt n = .finite b ∧ b.Whole ∧ whole b = n

instance (n : ℤ) : Decidable (Exact n) :=
  match near : Float64.ofInt n with
  | .finite b => decidable_of_iff (n = 0 ∨ b.Whole ∧ whole b = n) (by simp [Exact, near])
  | .infinite _ | .nan => decidable_of_iff (n = 0) (by simp [Exact, near])

/-- Python and JavaScript write the number alike. -/
def Shared : Numeral → Prop
  | .inl n => Exact n
  | .inr (.finite b) => b.Shared
  | .inr _ => False

instance : ∀ x : Numeral, Decidable x.Shared
  | .inl n => inferInstanceAs (Decidable (Exact n))
  | .inr (.finite b) => inferInstanceAs (Decidable b.Shared)
  | .inr (.infinite _) | .inr .nan => inferInstanceAs (Decidable False)

/-- The double next to an integer other than zero is not zero, and has its sign. -/
theorem ofInt_finite {n : ℤ} (nonzero : n ≠ 0) (nearest : Float64.ofInt n = .finite b) :
    b.neg = decide (n < 0) ∧ b.mant ≠ 0 := by
  have some' : n.natAbs ≠ 0 := Int.natAbs_ne_zero.mpr nonzero
  obtain ⟨-, high⟩ := floorLog2_spec some' one_ne_zero
  have large : 0 ≤ floorLog2 n.natAbs 1 := by
    have one : (2 : ℚ) ^ (0 : ℤ) < 2 ^ (floorLog2 n.natAbs 1 + 1) := by
      refine lt_of_le_of_lt ?_ high
      rw [zpow_zero, Nat.cast_one, div_one, Nat.one_le_cast]
      omega
    have := (zpow_lt_zpow_iff_right₀ (one_lt_two (α := ℚ))).mp one
    omega
  rw [Float64.ofInt, ofRatio, if_neg some'] at nearest
  dsimp only at nearest
  generalize here : (if roundHalfEven _ _ = 2 ^ 53 then _ else _ : ℕ × ℤ) = carried at nearest
  split_ifs at nearest with normal
  obtain rfl := Float64.finite.inj nearest
  refine ⟨rfl, fun mant => ?_⟩
  have zero' : carried.1 = 0 := mant
  -- Zero has the least exponent.
  have least : carried.2 = -1074 := by
    rcases normal with ⟨-, least⟩ | ⟨leading, -⟩
    · exact least
    · omega
  split_ifs at here <;> subst here <;> dsimp only at least <;> omega

/-- The text of the double next to a number in JavaScript. -/
def ecmaText : Numeral → List Char
  | .inl n => Ecma.numberText (Float64.ofInt n)
  | .inr x => Ecma.numberText x

/-- Python and JavaScript write a number alike exactly if its digits are those of the nearest
double, and both lay them out alike. -/
theorem text_eq_iff (x : Numeral) : Dialect.pythonNumber x = ecmaText x ↔ x.Shared := by
  match x with
  | .inl n =>
    change intText n = Ecma.numberText (Float64.ofInt n) ↔ Exact n
    rcases eq_or_ne n 0 with rfl | nonzero
    · exact iff_of_true rfl (.inl rfl)
    · rw [Exact, or_iff_right nonzero]
      -- Both texts are compared with what is read back from the text of the nearest double.
      cases nearest : Float64.ofInt n with
      | finite b =>
        obtain ⟨-, mant⟩ := ofInt_finite nonzero nearest
        rw [Ecma.numberText, if_neg mant]
        constructor
        · intro same
          have reads := ofText_intText n
          rw [same, ofText_layout mant] at reads
          split_ifs at reads with plain
          exact ⟨b, rfl, plain, Sum.inl.inj reads⟩
        · rintro ⟨c, same, plain, rfl⟩
          obtain rfl := Float64.finite.inj same
          exact (layout_whole mant plain).symm
      | infinite neg =>
        refine iff_of_false (fun same => ?_) (by rintro ⟨b, h, -⟩; cases h)
        have digit := signed_digits_isDecimalChar (decide (n < 0)) n.natAbs 'n' (by
          rw [← intText, same]
          exact List.mem_cons_self)
        exact absurd digit (by unfold IsDecimalChar; decide)
      | nan =>
        rw [Float64.ofInt, ofRatio] at nearest
        dsimp only at nearest
        split_ifs at nearest
        cases nearest
  | .inr (.finite b) => exact Binary64.repr_eq_numberText_iff b
  | .inr (.infinite neg) => exact iff_of_false (by cases neg <;> decide) id
  | .inr .nan => exact iff_of_false (by decide) id

end Numeral

end Foundation
