import Mathlib.Algebra.Order.Archimedean.Basic
import Mathlib.Algebra.Order.Field.Power
import Mathlib.Tactic.Linarith
import Mathlib.Tactic.NormNum
import Mathlib.Tactic.Positivity
import Mathlib.Tactic.Ring
import AgentTelepathy.Foundation.Binary64

/-!
# Seventeen significant digits suffice

A decimal with seventeen significant digits is nearer to the number it was made
from than half the gap to the next binary64 number. So rounding it gives the
number back, one of the candidate texts always reads back, and the shortest one
does.
-/

namespace Foundation

namespace Float64

/-! ### Ratios and powers -/

theorem zpow_eq_div (b : ℚ) (s : ℤ) : b ^ s = b ^ s.toNat / b ^ (-s).toNat := by
  rcases le_total 0 s with pos | neg
  · obtain ⟨n, rfl⟩ := Int.eq_ofNat_of_zero_le pos
    simp
  · obtain ⟨n, hn⟩ := Int.eq_ofNat_of_zero_le (neg_nonneg.mpr neg)
    obtain rfl : s = -n := by omega
    simp

/-- Moving a power into the numerator or the denominator divides by it. -/
theorem scaled_ratio (num den b : ℕ) (s : ℤ) :
    ((num * b ^ (-s).toNat : ℕ) : ℚ) / ((den * b ^ s.toNat : ℕ) : ℚ) =
      (num : ℚ) / den / (b : ℚ) ^ s := by
  rw [zpow_eq_div b s]
  push_cast
  rw [div_div_eq_mul_div, mul_div_mul_comm, mul_div_assoc]

/-! ### Rounding to an integer -/

theorem roundHalfEven_eq {num den m : ℕ} (positive : 0 < den) (below : (m : ℚ) - 1 / 2 < num / den)
    (above : (num : ℚ) / den < m + 1 / 2) : roundHalfEven num den = m := by
  have positive' : (0 : ℚ) < den := Nat.cast_pos.mpr positive
  rw [lt_div_iff₀ positive'] at below
  rw [div_lt_iff₀ positive'] at above
  have below' : 2 * (den * m) < 2 * num + den := by
    have : (2 * (den * m) : ℚ) < 2 * num + den := by linarith
    exact_mod_cast this
  have above' : 2 * num < 2 * (den * m) + den := by
    have : (2 * num : ℚ) < 2 * (den * m) + den := by linarith
    exact_mod_cast this
  have split := Nat.div_add_mod num den
  have small := Nat.mod_lt num positive
  rcases lt_trichotomy (num / den) m with less | same | more
  · have next := Nat.mul_le_mul_left den (Nat.succ_le_of_lt less)
    rw [Nat.succ_eq_add_one, Nat.mul_add, Nat.mul_one] at next
    -- The next integer is `m`, and the remainder is above one half.
    have one : num / den + 1 = m := by
      by_contra far
      have further := Nat.mul_le_mul_left den (show num / den + 2 ≤ m by omega)
      rw [Nat.mul_add] at further
      omega
    have exact : den * m = den * (num / den) + den := by rw [← one, Nat.mul_add, Nat.mul_one]
    unfold roundHalfEven
    dsimp only
    rw [if_neg (by omega), if_pos (by omega), one]
  · have exact : den * m = den * (num / den) := by rw [same]
    unfold roundHalfEven
    dsimp only
    rw [if_pos (by omega), same]
  · have next := Nat.mul_le_mul_left den (Nat.succ_le_of_lt more)
    rw [Nat.succ_eq_add_one, Nat.mul_add, Nat.mul_one] at next
    omega

theorem roundHalfEven_near (num : ℕ) {den : ℕ} (positive : 0 < den) :
    (roundHalfEven num den : ℚ) - 1 / 2 ≤ num / den ∧
      (num : ℚ) / den ≤ roundHalfEven num den + 1 / 2 := by
  have positive' : (0 : ℚ) < den := Nat.cast_pos.mpr positive
  have split := Nat.div_add_mod num den
  have small := Nat.mod_lt num positive
  have near : 2 * (den * roundHalfEven num den) ≤ 2 * num + den ∧
      2 * num ≤ 2 * (den * roundHalfEven num den) + den := by
    unfold roundHalfEven
    dsimp only
    split_ifs
    · omega
    · rw [Nat.mul_add, Nat.mul_one]
      omega
    · omega
    · rw [Nat.mul_add, Nat.mul_one]
      omega
  constructor
  · rw [le_div_iff₀ positive']
    have : (2 * (den * roundHalfEven num den) : ℚ) ≤ 2 * num + den := by exact_mod_cast near.1
    linarith
  · rw [div_le_iff₀ positive']
    have : (2 * num : ℚ) ≤ 2 * (den * roundHalfEven num den) + den := by exact_mod_cast near.2
    linarith

/-! ### Logarithms -/

theorem floorLog2_eq {num den : ℕ} {k : ℤ} (hnum : num ≠ 0) (hden : den ≠ 0)
    (below : (2 : ℚ) ^ k ≤ num / den) (above : (num : ℚ) / den < 2 ^ (k + 1)) :
    floorLog2 num den = k := by
  have base : (1 : ℚ) < 2 := by norm_num
  have den' : (0 : ℚ) < den := Nat.cast_pos.mpr (Nat.pos_of_ne_zero hden)
  have bounds (n : ℕ) (nonzero : n ≠ 0) :
      (2 : ℚ) ^ (n.log2 : ℤ) ≤ n ∧ (n : ℚ) < 2 ^ ((n.log2 : ℤ) + 1) := by
    constructor
    · rw [zpow_natCast]
      exact_mod_cast Nat.log2_self_le nonzero
    · rw [show (n.log2 : ℤ) + 1 = ((n.log2 + 1 : ℕ) : ℤ) by push_cast; rfl, zpow_natCast]
      exact_mod_cast Nat.lt_log2_self
  obtain ⟨numLow, numHigh⟩ := bounds num hnum
  obtain ⟨denLow, denHigh⟩ := bounds den hden
  have two : (2 : ℚ) ≠ 0 := by norm_num
  -- The logarithms of the two differ by this or by one less.
  have high : (num : ℚ) / den < 2 ^ ((num.log2 : ℤ) - den.log2 + 1) := by
    rw [div_lt_iff₀ den', show (num.log2 : ℤ) - den.log2 + 1 = num.log2 + 1 - den.log2 by omega,
      zpow_sub₀ two, div_mul_eq_mul_div, lt_div_iff₀ (by positivity)]
    exact mul_lt_mul numHigh denLow (by positivity) (by positivity)
  have low : (2 : ℚ) ^ ((num.log2 : ℤ) - den.log2 - 1) < num / den := by
    rw [lt_div_iff₀ den', show (num.log2 : ℤ) - den.log2 - 1 = num.log2 - (den.log2 + 1) by omega,
      zpow_sub₀ two, div_mul_eq_mul_div, div_lt_iff₀ (by positivity)]
    exact mul_lt_mul' numLow denHigh den'.le (by positivity)
  have upper := (zpow_lt_zpow_iff_right₀ base).mp (below.trans_lt high)
  have lower := (zpow_lt_zpow_iff_right₀ base).mp (low.trans above)
  have reaches : den * 2 ^ ((num.log2 : ℤ) - den.log2).toNat ≤
      num * 2 ^ (-((num.log2 : ℤ) - den.log2)).toNat ↔
        (2 : ℚ) ^ ((num.log2 : ℤ) - den.log2) ≤ num / den := by
    have scaled := scaled_ratio num den 2 ((num.log2 : ℤ) - den.log2)
    have bottom : (0 : ℚ) < (den * 2 ^ ((num.log2 : ℤ) - den.log2).toNat : ℕ) :=
      Nat.cast_pos.mpr (Nat.mul_pos (Nat.pos_of_ne_zero hden) (Nat.pow_pos (by decide)))
    rw [Nat.cast_ofNat] at scaled
    rw [← Nat.cast_le (α := ℚ), ← one_le_div bottom, scaled, one_le_div (by positivity)]
  unfold floorLog2
  dsimp only
  split_ifs with fits
  · have := (zpow_lt_zpow_iff_right₀ base).mp ((reaches.mp fits).trans_lt above)
    omega
  · have := (zpow_lt_zpow_iff_right₀ base).mp (below.trans_lt (not_le.mp (mt reaches.mpr fits)))
    omega

theorem floorLog2_spec {num den : ℕ} (hnum : num ≠ 0) (hden : den ≠ 0) :
    (2 : ℚ) ^ floorLog2 num den ≤ num / den ∧ (num : ℚ) / den < 2 ^ (floorLog2 num den + 1) := by
  have positive : (0 : ℚ) < num / den :=
    div_pos (Nat.cast_pos.mpr (Nat.pos_of_ne_zero hnum))
      (Nat.cast_pos.mpr (Nat.pos_of_ne_zero hden))
  obtain ⟨k, low, high⟩ := exists_mem_Ico_zpow positive (one_lt_two (α := ℚ))
  rw [floorLog2_eq hnum hden low high]
  exact ⟨low, high⟩

theorem length_digits {n : ℕ} (positive : 0 < n) :
    10 ^ ((digits n).length - 1) ≤ n ∧ n < 10 ^ (digits n).length := by
  have long : 0 < (digits n).length := Nat.length_toDigits_pos
  have fits {k : ℕ} (h : 0 < k) : (digits n).length ≤ k ↔ n < 10 ^ k :=
    Nat.length_toDigits_le_iff (by decide) h
  refine ⟨?_, (fits long).mp le_rfl⟩
  rcases Nat.eq_zero_or_pos ((digits n).length - 1) with one | more
  · rw [one]
    exact positive
  · by_contra below
    have := (fits more).mpr (not_le.mp below)
    omega

theorem length_digits_eq {n k : ℕ} (below : 10 ^ k ≤ n) (above : n < 10 ^ (k + 1)) :
    (digits n).length = k + 1 := by
  have base : 1 < 10 := by decide
  obtain ⟨low, high⟩ := length_digits ((Nat.pow_pos (by decide)).trans_le below)
  have less := (Nat.pow_lt_pow_iff_right base).mp (low.trans_lt above)
  have more := (Nat.pow_lt_pow_iff_right base).mp (below.trans_lt high)
  omega

theorem floorLog10_spec {num den : ℕ} (hnum : num ≠ 0) (hden : den ≠ 0) :
    (10 : ℚ) ^ floorLog10 num den ≤ num / den ∧
    (num : ℚ) / den < 10 ^ (floorLog10 num den + 1) := by
  have numPos := Nat.pos_of_ne_zero hnum
  have denPos := Nat.pos_of_ne_zero hden
  have num' : (0 : ℚ) < num := Nat.cast_pos.mpr numPos
  have den' : (0 : ℚ) < den := Nat.cast_pos.mpr denPos
  rw [le_div_iff₀ den', div_lt_iff₀ den']
  unfold floorLog10
  split_ifs with whole
  -- The digits of the whole part are counted, or those of the inverse rounded down.
  · obtain ⟨low, high⟩ := length_digits (Nat.div_pos whole denPos)
    have long : 0 < (digits (num / den)).length := Nat.length_toDigits_pos
    generalize (digits (num / den)).length = l at low high long
    obtain ⟨k, rfl⟩ : ∃ k, l = k + 1 := ⟨l - 1, by omega⟩
    have exponent : ((k + 1 : ℕ) : ℤ) - 1 = (k : ℤ) := by omega
    have successor : (k : ℤ) + 1 = ((k + 1 : ℕ) : ℤ) := by omega
    rw [exponent, successor, zpow_natCast, zpow_natCast]
    constructor
    · have : 10 ^ k * den ≤ num := (Nat.le_div_iff_mul_le denPos).mp low
      exact_mod_cast this
    · have : num < 10 ^ (k + 1) * den := (Nat.div_lt_iff_lt_mul denPos).mp high
      exact_mod_cast this
  · obtain ⟨low, high⟩ := length_digits
      (Nat.div_pos (show num ≤ den - 1 by omega) numPos)
    have long : 0 < (digits ((den - 1) / num)).length := Nat.length_toDigits_pos
    generalize (digits ((den - 1) / num)).length = l at low high long
    obtain ⟨k, rfl⟩ : ∃ k, l = k + 1 := ⟨l - 1, by omega⟩
    have exponent : -((k + 1 : ℕ) : ℤ) + 1 = -(k : ℤ) := by omega
    rw [exponent, zpow_neg, zpow_neg, zpow_natCast, zpow_natCast, inv_mul_le_iff₀ (by positivity),
      ← div_eq_inv_mul, lt_div_iff₀ (by positivity)]
    have low' : 10 ^ k * num ≤ den - 1 := (Nat.le_div_iff_mul_le numPos).mp low
    have high' : den - 1 < 10 ^ (k + 1) * num := (Nat.div_lt_iff_lt_mul numPos).mp high
    constructor
    · have : den ≤ 10 ^ (k + 1) * num := by omega
      exact_mod_cast this
    · have : num * 10 ^ k < den := by rw [Nat.mul_comm]; omega
      exact_mod_cast this

/-! ### Rounding to binary64 -/

/-- What rounding yields once the exponent and the rounded significand are known. -/
theorem ofRatio_eq {num den mant : ℕ} {exp : ℤ} (neg : Bool) (hnum : num ≠ 0)
    (hexp : max (floorLog2 num den - 52) (-1074) = exp)
    (hmant : roundHalfEven (num * 2 ^ (-exp).toNat) (den * 2 ^ exp.toNat) = mant) :
    ofRatio neg num den =
      let carried : ℕ × ℤ := if mant = 2 ^ 53 then (2 ^ 52, exp + 1) else (mant, exp)
      if normal : Binary64.Normal carried.1 carried.2 then .finite ⟨neg, carried.1, carried.2,
        normal⟩
      else .infinite neg := by
  subst hexp hmant
  rw [ofRatio, if_neg hnum]

theorem two_zpow_add (k : ℤ) (n : ℕ) : (2 : ℚ) ^ (k + n) = 2 ^ k * 2 ^ n := by
  rw [zpow_add₀ two_ne_zero, zpow_natCast]

section Near

variable {neg : Bool} {num den m : ℕ} {e : ℤ} (hnum : num ≠ 0) (hden : den ≠ 0)
include hnum hden

/-- A ratio nearer than half a unit that is not below the least significand of the
exponent. -/
theorem ofRatio_near_regular (normal : Binary64.Normal m e)
    (regular : (2 : ℚ) ^ (e + 52) ≤ num / den ∨ e = -1074)
    (below : ((m : ℚ) - 1 / 2) * 2 ^ e < num / den)
    (above : (num : ℚ) / den < (m + 1 / 2) * 2 ^ e) :
    ofRatio neg num den = .finite ⟨neg, m, e, normal⟩ := by
  have unit : (0 : ℚ) < 2 ^ e := by positivity
  have small : m < 2 ^ 53 := by
    rcases normal with ⟨h, -⟩ | ⟨-, h, -, -⟩
    · exact h.trans (by decide)
    · exact h
  have upper : (num : ℚ) / den < 2 ^ (e + 53) := by
    have : (m : ℚ) + 1 ≤ 2 ^ 53 := by exact_mod_cast small
    rw [show (53 : ℤ) = ((53 : ℕ) : ℤ) by rfl, two_zpow_add]
    nlinarith
  -- The exponent of the ratio is that of the number.
  have hexp : max (floorLog2 num den - 52) (-1074) = e := by
    rcases le_or_gt ((2 : ℚ) ^ (e + 52)) (num / den) with high | low
    · rw [floorLog2_eq hnum hden high (by rwa [add_assoc])]
      rcases normal with ⟨-, h⟩ | ⟨-, -, h, -⟩ <;> omega
    · obtain rfl := regular.resolve_left (not_le.mpr low)
      have log := (zpow_lt_zpow_iff_right₀ one_lt_two).mp
        ((floorLog2_spec hnum hden).1.trans_lt low)
      omega
  have rounded : roundHalfEven (num * 2 ^ (-e).toNat) (den * 2 ^ e.toNat) = m := by
    have scaled := scaled_ratio num den 2 e
    rw [Nat.cast_ofNat] at scaled
    apply roundHalfEven_eq (Nat.mul_pos (Nat.pos_of_ne_zero hden) (Nat.pow_pos (by decide)))
    · rw [scaled, lt_div_iff₀ unit]
      exact below
    · rw [scaled, div_lt_iff₀ unit]
      exact above
  rw [ofRatio_eq neg hnum hexp rounded]
  simp only [if_neg small.ne, dif_pos normal]

/-- A ratio below a power of two, nearer than half of the unit there. -/
theorem ofRatio_near_power (normal : Binary64.Normal (2 ^ 52) e) (notLeast : -1074 < e)
    (below : (2 ^ 52 - 1 / 4) * (2 : ℚ) ^ e < num / den)
    (above : (num : ℚ) / den < 2 ^ 52 * 2 ^ e) :
    ofRatio neg num den = .finite ⟨neg, 2 ^ 52, e, normal⟩ := by
  have half : (2 : ℚ) ^ e = 2 ^ (e - 1) * 2 := by
    have := two_zpow_add (e - 1) 1
    rwa [Nat.cast_one, sub_add_cancel, pow_one] at this
  have unit : (0 : ℚ) < 2 ^ (e - 1) := by positivity
  have hexp : max (floorLog2 num den - 52) (-1074) = e - 1 := by
    have log : floorLog2 num den = e - 1 + 52 := by
      apply floorLog2_eq hnum hden
      · rw [show (52 : ℤ) = ((52 : ℕ) : ℤ) by rfl, two_zpow_add]
        nlinarith
      · rw [show e - 1 + 52 + 1 = e + ((52 : ℕ) : ℤ) by omega, two_zpow_add, mul_comm]
        exact above
    omega
  -- In units half as large the ratio rounds up to the power of two.
  have rounded : roundHalfEven (num * 2 ^ (-(e - 1)).toNat) (den * 2 ^ (e - 1).toNat) = 2 ^ 53 := by
    have scaled := scaled_ratio num den 2 (e - 1)
    rw [Nat.cast_ofNat] at scaled
    apply roundHalfEven_eq (Nat.mul_pos (Nat.pos_of_ne_zero hden) (Nat.pow_pos (by decide)))
    · rw [scaled, lt_div_iff₀ unit]
      push_cast
      nlinarith
    · rw [scaled, div_lt_iff₀ unit]
      push_cast
      nlinarith
  rw [ofRatio_eq neg hnum hexp rounded]
  simp only [if_true, sub_add_cancel, dif_pos normal]

end Near

/-- A ratio that is nearer to a number than half the gap rounds to it; below a
power of two the gap is half as wide. -/
theorem ofRatio_near {num den : ℕ} (b : Binary64) (hmant : b.mant ≠ 0) (hden : den ≠ 0)
    (below : ((b.mant : ℚ) - 1 / 2) * 2 ^ b.exp < num / den)
    (power : b.mant = 2 ^ 52 → ((b.mant : ℚ) - 1 / 4) * 2 ^ b.exp < num / den)
    (above : (num : ℚ) / den < (b.mant + 1 / 2) * 2 ^ b.exp) :
    ofRatio b.neg num den = .finite b := by
  obtain ⟨neg, m, e, normal⟩ := b
  dsimp only at hmant below power above ⊢
  have unit : (0 : ℚ) < 2 ^ e := by positivity
  have one : (1 : ℚ) ≤ m := by exact_mod_cast Nat.one_le_iff_ne_zero.mpr hmant
  have hnum : num ≠ 0 := by
    have positive : (0 : ℚ) < num / den := lt_trans (by nlinarith) below
    rintro rfl
    simp at positive
  by_cases regular : (2 : ℚ) ^ (e + 52) ≤ num / den ∨ e = -1074
  · exact ofRatio_near_regular hnum hden normal regular below above
  · -- The ratio is below the least significand, so the number is that power of two.
    obtain ⟨low, notLeast⟩ := not_or.mp regular
    rw [not_le, show (52 : ℤ) = ((52 : ℕ) : ℤ) by rfl, two_zpow_add] at low
    have least : 2 ^ 52 ≤ m ∧ -1074 ≤ e := by
      rcases normal with ⟨-, h⟩ | ⟨h, -, h', -⟩
      · exact absurd h notLeast
      · exact ⟨h, h'⟩
    obtain rfl : m = 2 ^ 52 := by
      by_contra other
      have larger : (2 : ℚ) ^ 52 + 1 ≤ m := by
        exact_mod_cast Nat.lt_of_le_of_ne least.1 (Ne.symm other)
      nlinarith
    have close := power rfl
    push_cast at close
    rw [mul_comm] at low
    exact ofRatio_near_power hnum hden normal (by omega) close low

/-! ### Reading what was laid out -/

theorem digitsValue_eq (ds : List Char) : digitsValue ds = Nat.ofDigitChars 10 ds 0 :=
  Nat.ofDigitChars_eq_foldl.symm

@[simp] theorem digitsValue_digits (n : ℕ) : digitsValue (digits n) = n := by
  rw [digitsValue_eq, digits, Nat.ofDigitChars_ten_toDigits]

theorem digitsValue_replicate_append (k : ℕ) (ds : List Char) :
    digitsValue (List.replicate k '0' ++ ds) = digitsValue ds := by
  rw [digitsValue_eq, digitsValue_eq, Nat.ofDigitChars_append, Nat.ofDigitChars_replicate_zero,
    Nat.mul_zero]

theorem digitsValue_zero_cons (ds : List Char) : digitsValue ('0' :: ds) = digitsValue ds :=
  digitsValue_replicate_append 1 ds

theorem isDigit_zeros_append {ds : List Char} (k : ℕ) (only : ∀ c ∈ ds, c.isDigit = true) :
    ∀ c ∈ List.replicate k '0' ++ ds, c.isDigit = true := by
  intro c member
  rcases List.mem_append.mp member with zero | digit
  · rw [List.eq_of_mem_replicate zero]
    decide
  · exact only c digit

/-- Digits end at a point. -/
theorem point_stops (rest : List Char) : ∀ c ∈ ('.' :: rest).head?, c.isDigit = false := by
  rintro c same
  obtain rfl := Option.some.inj same
  decide

section Digits

variable {ds rest : List Char} (only : ∀ c ∈ ds, c.isDigit = true)
  (stops : ∀ c ∈ rest.head?, c.isDigit = false)

include only stops

theorem takeWhile_digits : (ds ++ rest).takeWhile Char.isDigit = ds := by
  rw [List.takeWhile_append_of_pos only]
  cases rest with
  | nil => simp
  | cons c rest => simp [stops c rfl]

theorem dropWhile_digits : (ds ++ rest).dropWhile Char.isDigit = rest := by
  rw [List.dropWhile_append_of_pos only]
  cases rest with
  | nil => rfl
  | cons c rest => simp [stops c rfl]

end Digits

/-- Digits, a point, digits, and whatever reads as an exponent. -/
theorem readUnsigned_point (neg : Bool) (whole frac rest : List Char) {e : ℤ} (hwhole : whole ≠ [])
    (hfrac : frac ≠ []) (wholeOnly : ∀ c ∈ whole, c.isDigit = true)
    (fracOnly : ∀ c ∈ frac, c.isDigit = true) (stops : ∀ c ∈ rest.head?, c.isDigit = false)
    (exponent : readExponent rest = some e) :
    readUnsigned neg (whole ++ '.' :: (frac ++ rest)) =
      some (ofDecimal neg (digitsValue (whole ++ frac)) (e - frac.length)) := by
  have point := point_stops (frac ++ rest)
  unfold readUnsigned
  simp only [takeWhile_digits wholeOnly point, dropWhile_digits wholeOnly point, if_neg hwhole,
    takeWhile_digits fracOnly stops, dropWhile_digits fracOnly stops, if_neg hfrac, exponent,
    Option.map_some]

theorem readDigits_eq {ds : List Char} (hds : ds ≠ []) (only : ∀ c ∈ ds, c.isDigit = true) :
    readDigits ds = some (digitsValue ds) := if_pos ⟨hds, List.all_eq_true.mpr only⟩

/-- An exponent with its sign. -/
theorem readExponent_of_readDigits {ds : List Char} {e : ℤ}
    (power : readDigits ds = some e.natAbs) :
    readExponent ('e' :: (if e < 0 then '-' else '+') :: ds) = some e := by
  by_cases below : e < 0
  · simp only [if_pos below, readExponent, true_or, if_true, power, Option.map_some]
    congr 1
    omega
  · simp only [if_neg below, readExponent, true_or, if_true, power, Option.map_some]
    congr 1
    omega

/-- The exponent suffix that `layout` writes. -/
theorem readExponent_power (e : ℤ) :
    readExponent ('e' :: (if e < 0 then '-' else '+') ::
      (if (digits e.natAbs).length < 2 then '0' :: digits e.natAbs else digits e.natAbs)) =
        some e := by
  have power : readDigits (if (digits e.natAbs).length < 2 then '0' :: digits e.natAbs
      else digits e.natAbs) = some e.natAbs := by
    split_ifs
    · rw [readDigits_eq (List.cons_ne_nil _ _), digitsValue_zero_cons, digitsValue_digits]
      exact List.forall_mem_cons.mpr ⟨by decide, fun c => digits_isDigit⟩
    · rw [readDigits_eq (digits_ne_nil _) (fun c => digits_isDigit), digitsValue_digits]
  exact readExponent_of_readDigits power

/-- More than sixteen digits are laid out with all of them. -/
theorem readUnsigned_layout {ds : List Char} (neg : Bool) (only : ∀ c ∈ ds, c.isDigit = true)
    (long : 16 < ds.length) (point : ℤ) :
    readUnsigned neg (layout ds point) =
      some (ofDecimal neg (digitsValue ds) (point - ds.length)) := by
  have nonempty : ds ≠ [] := List.ne_nil_of_length_pos (by omega)
  have takes (k : ℕ) : ∀ c ∈ ds.take k, c.isDigit = true :=
    fun c h => only c (List.mem_of_mem_take h)
  have drops (k : ℕ) : ∀ c ∈ ds.drop k, c.isDigit = true :=
    fun c h => only c (List.mem_of_mem_drop h)
  have none' : ∀ c ∈ ([] : List Char).head?, c.isDigit = false := nofun
  rw [layout]
  by_cases plain : -4 < point ∧ point ≤ 16
  · rw [if_pos plain]
    split_ifs with small short
    · -- Zeros stand between the point and the digits.
      have zeros := isDigit_zeros_append (-point).toNat only
      have read := readUnsigned_point neg ['0'] _ [] (by simp)
        (List.append_ne_nil_of_right_ne_nil _ nonempty)
        (List.forall_mem_singleton.mpr (by decide)) zeros none' rfl
      rw [List.append_nil] at read
      refine read.trans ?_
      rw [List.singleton_append, digitsValue_zero_cons, digitsValue_replicate_append,
        List.length_append, List.length_replicate]
      congr 2
      omega
    · omega
    · have read := readUnsigned_point neg (ds.take point.toNat) (ds.drop point.toNat) []
        (by simp [nonempty]; omega) (by simp; omega) (takes _) (drops _) none' rfl
      rw [List.append_nil, List.take_append_drop] at read
      refine read.trans ?_
      rw [List.length_drop]
      congr 2
      omega
  -- The layout with an exponent: one digit, the point, and the rest.
  · have read := readUnsigned_point neg (ds.take 1) (ds.drop 1) _ (by simp [nonempty])
      (List.ne_nil_of_length_pos (by rw [List.length_drop]; omega)) (takes 1) (drops 1) (by simp)
      (readExponent_power (point - 1))
    rw [List.take_append_drop] at read
    rw [if_neg plain]
    dsimp only
    rw [if_neg (by omega), List.append_assoc, List.cons_append]
    refine read.trans ?_
    rw [List.length_drop]
    congr 2
    omega

/-- The sign in front of a text that reads without it. -/
theorem read_signed {neg : Bool} {cs : List Char} {f : Float64}
    (unsigned : readUnsigned neg cs = some f) : read (signed neg cs) = some f := by
  cases neg with
  | true => exact unsigned
  | false =>
    unfold read
    split
    · next same =>
      rw [show cs = '-' :: _ from same] at unsigned
      cases unsigned
    · exact unsigned

/-! ### The nearest decimal with seventeen digits -/

/-- Rounding to seventeen digits errs by less than a part in ten to the sixteenth. -/
theorem significant_spec {num den : ℕ} (hnum : num ≠ 0) (hden : den ≠ 0) :
    ∃ (d : ℕ) (point : ℤ), significant roundHalfEven num den 17 = layout (digits d) point ∧
      (digits d).length = 17 ∧
        |(num : ℚ) / den - d * 10 ^ (point - 17)| ≤ (num : ℚ) / den / (2 * 10 ^ 16) := by
  obtain ⟨low, high⟩ := floorLog10_spec hnum hden
  have ten : (10 : ℚ) ≠ 0 := by norm_num
  have shift (k : ℤ) (n : ℕ) : (10 : ℚ) ^ (k + n) = 10 ^ k * 10 ^ n := by
    rw [zpow_add₀ ten, zpow_natCast]
  unfold significant
  dsimp only
  generalize floorLog10 num den = p at low high
  have unit : (0 : ℚ) < 10 ^ (p - 16) := by positivity
  have scaled := scaled_ratio num den 10 (p - 16)
  have near := roundHalfEven_near (num * 10 ^ (-(p - 16)).toNat)
    (Nat.mul_pos (Nat.pos_of_ne_zero hden) (Nat.pow_pos (show 0 < 10 by decide)) :
      0 < den * 10 ^ (p - 16).toNat)
  rw [scaled, Nat.cast_ofNat, le_div_iff₀ unit, div_le_iff₀ unit] at near
  rw [show p - (17 : ℕ) + 1 = p - 16 by omega]
  generalize roundHalfEven (num * 10 ^ (-(p - 16)).toNat) (den * 10 ^ (p - 16).toNat) = d at near
  generalize (num : ℚ) / den = x at near low high ⊢
  rw [show p = p - 16 + (16 : ℕ) by omega, shift] at low
  rw [show p + 1 = p - 16 + (17 : ℕ) by omega, shift] at high
  generalize hu : (10 : ℚ) ^ (p - 16) = u at unit near low high
  -- Rounding keeps the seventeen digits, except that it can carry into an eighteenth.
  have least : 10 ^ 16 ≤ d := by
    have : (10 : ℚ) ^ 16 < d + 1 := by nlinarith
    have : 10 ^ 16 < d + 1 := by exact_mod_cast this
    omega
  have greatest : d ≤ 10 ^ 17 := by
    have : (d : ℚ) < 10 ^ 17 + 1 := by nlinarith
    have : d < 10 ^ 17 + 1 := by exact_mod_cast this
    omega
  have error : |x - d * u| ≤ x / (2 * 10 ^ 16) := by
    have half : u / 2 ≤ x / (2 * 10 ^ 16) := by
      rw [le_div_iff₀ (by positivity)]
      linarith
    exact abs_le.mpr ⟨by linarith, by linarith⟩
  by_cases carry : d = 10 ^ 17
  · refine ⟨10 ^ 16, p + 2, if_pos carry, length_digits_eq le_rfl (by decide), ?_⟩
    rw [show p + 2 - 17 = p - 16 + (1 : ℕ) by omega, shift, hu]
    have same : ((10 ^ 16 : ℕ) : ℚ) * (u * 10 ^ 1) = d * u := by
      rw [carry]
      push_cast
      ring
    rwa [same]
  · refine ⟨d, p + 1, if_neg carry, length_digits_eq least (by omega), ?_⟩
    rwa [show p + 1 - 17 = p - 16 by omega, hu]

/-- The seventeen-digit text of a number reads back as it. -/
theorem read_significant {b : Binary64} (nonzero : b.mant ≠ 0) :
    read (signed b.neg
      (significant roundHalfEven (b.mant * 2 ^ b.exp.toNat) (2 ^ (-b.exp).toNat) 17)) =
        some (.finite b) := by
  have hden : 2 ^ (-b.exp).toNat ≠ 0 := pow_ne_zero _ two_ne_zero
  have hnum : b.mant * 2 ^ b.exp.toNat ≠ 0 := Nat.mul_ne_zero nonzero (pow_ne_zero _ two_ne_zero)
  obtain ⟨d, point, text, length, near⟩ := significant_spec hnum hden
  have value : ((b.mant * 2 ^ b.exp.toNat : ℕ) : ℚ) / ((2 ^ (-b.exp).toNat : ℕ) : ℚ) =
      b.mant * 2 ^ b.exp := by
    rw [zpow_eq_div 2 b.exp]
    push_cast
    rw [mul_div_assoc]
  rw [value] at near
  rw [text]
  apply read_signed
  rw [readUnsigned_layout b.neg (fun c => digits_isDigit) (by omega), length, digitsValue_digits,
    ofDecimal, show ((17 : ℕ) : ℤ) = 17 by rfl]
  congr 1
  have unit : (0 : ℚ) < 2 ^ b.exp := by positivity
  have decimal : ((d * 10 ^ (point - 17).toNat : ℕ) : ℚ) / ((10 ^ (-(point - 17)).toNat : ℕ) : ℚ) =
      d * 10 ^ (point - 17) := by
    rw [zpow_eq_div 10 (point - 17)]
    push_cast
    rw [mul_div_assoc]
  -- Seventeen digits are enough, as the significand has at most 53 bits.
  have small : (b.mant : ℚ) < 2 ^ 53 := by
    have : b.mant < 2 ^ 53 := by
      rcases b.normal with ⟨h, -⟩ | ⟨-, h, -, -⟩
      · exact h.trans (by decide)
      · exact h
    exact_mod_cast this
  rw [abs_le] at near
  generalize hu : (2 : ℚ) ^ b.exp = u at near unit
  generalize (d : ℚ) * 10 ^ (point - 17) = y at near decimal
  apply ofRatio_near b nonzero (pow_ne_zero _ (by decide))
  all_goals rw [decimal, hu]
  · -- Half a unit is more than the error.
    have : (b.mant : ℚ) * u / (2 * 10 ^ 16) < 1 / 2 * u := by
      rw [div_lt_iff₀ (by positivity)]
      nlinarith
    linarith
  -- Below a power of two the numbers are twice as close.
  · intro power
    rw [power] at near ⊢
    push_cast at near ⊢
    have : (2 : ℚ) ^ 52 * u / (2 * 10 ^ 16) < 1 / 4 * u := by
      rw [div_lt_iff₀ (by positivity)]
      nlinarith
    linarith
  · have : (b.mant : ℚ) * u / (2 * 10 ^ 16) < 1 / 2 * u := by
      rw [div_lt_iff₀ (by positivity)]
      nlinarith
    linarith

/-- Some candidate reads back as the number. -/
theorem isSome_shortest (b : Binary64) : (shortest b).isSome = true := by
  rw [shortest, List.find?_isSome]
  by_cases zero : b.mant = 0
  · refine ⟨signed b.neg ['0', '.', '0'], by simp [candidates, zero], ?_⟩
    rw [b.eq_zero zero]
    cases b.neg <;> exact decide_eq_true rfl
  · refine ⟨_, ?_, decide_eq_true (read_significant zero)⟩
    rw [candidates, if_neg zero, List.mem_flatMap]
    exact ⟨17, by simp, List.mem_cons_self⟩

/-- The text of every finite number reads back as it. -/
theorem read_repr (b : Binary64) : read (repr (.finite b)) = some (.finite b) := by
  obtain ⟨cs, shortest⟩ := Option.isSome_iff_exists.mp (isSome_shortest b)
  have reads := List.find?_some shortest
  rw [repr, shortest]
  exact of_decide_eq_true reads

end Float64

end Foundation
