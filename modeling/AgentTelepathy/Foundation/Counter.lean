import AgentTelepathy.Foundation.Ecma

/-!
# Counting with doubles

A counter that is a double counts up to `2 ^ 53`. From there to `2 ^ 54` the doubles are
the even numbers: adding one lands between two of them, and ties go to the one whose
half is even. From `2 ^ 54` on adding one changes nothing.
-/

namespace Foundation

namespace Counter

open Float64

/-- Adding one to a number of this size makes it greater. -/
def Counts (n : ℕ) : Prop := n < 2 ^ 53 ∨ n < 2 ^ 54 ∧ n % 4 = 2

instance (n : ℕ) : Decidable (Counts n) := by unfold Counts; infer_instance

variable {x : Float64} {n : ℕ}

/-- A natural number from `2 ^ 53` on has a significand with all its bits, and a
positive exponent. -/
theorem exists_large (value : x.number = .rat n) (large : 2 ^ 53 ≤ n) :
    ∃ b : Binary64, x = .finite b ∧ b.neg = false ∧ 2 ^ 52 ≤ b.mant ∧ b.mant < 2 ^ 53 ∧
      ∃ k : ℕ, b.exp = k + 1 ∧ n = b.mant * 2 ^ (k + 1) := by
  cases x with
  | infinite neg => cases value
  | nan => cases value
  | finite b =>
    have size := Number.rat.inj ((number_finite b).symm.trans value)
    have positive : (0 : ℚ) < n := by
      have : 0 < n := by omega
      exact_mod_cast this
    have unit : (0 : ℚ) < 2 ^ b.exp := by positivity
    have plus : b.neg = false := by
      cases sign : b.neg with
      | false => rfl
      | true =>
        have product : (0 : ℚ) ≤ b.mant * 2 ^ b.exp := by positivity
        rw [sign, if_pos rfl] at size
        linarith
    rw [plus, if_neg Bool.false_ne_true, one_mul] at size
    have small : b.mant < 2 ^ 53 := by
      rcases b.normal with ⟨h, -⟩ | ⟨-, h, -, -⟩
      · exact h.trans (by decide)
      · exact h
    -- The significand alone would be too small.
    have exponent : 1 ≤ b.exp := by
      by_contra below
      have bound : (2 : ℚ) ^ b.exp ≤ 1 := zpow_le_one_of_nonpos₀ one_le_two (by omega)
      have mant : (b.mant : ℚ) < 2 ^ 53 := by exact_mod_cast small
      have large' : (2 : ℚ) ^ 53 ≤ n := by exact_mod_cast large
      nlinarith
    have leading : 2 ^ 52 ≤ b.mant := by
      rcases b.normal with ⟨-, h⟩ | ⟨h, -, -, -⟩
      · omega
      · exact h
    obtain ⟨k, exp⟩ := Int.eq_ofNat_of_zero_le (show 0 ≤ b.exp - 1 by omega)
    have exp' : b.exp = ((k + 1 : ℕ) : ℤ) := by push_cast; omega
    refine ⟨b, rfl, plus, leading, small, k, by omega, ?_⟩
    rw [exp', zpow_natCast] at size
    exact_mod_cast size.symm

/-- Between `2 ^ 53` and `2 ^ 54` adding one rounds to the multiple of four. -/
theorem ofInt_tie {m : ℕ} (low : 2 ^ 52 ≤ m) (high : m < 2 ^ 53) :
    (ofInt (2 * m + 1 : ℕ)).number = .rat ((2 * (m + m % 2) : ℕ) : ℚ) := by
  have log : floorLog2 (2 * m + 1) 1 = 53 := by
    apply floorLog2_eq (by omega) one_ne_zero
    · rw [Nat.cast_one, div_one]
      exact_mod_cast (show 2 ^ 53 ≤ 2 * m + 1 by omega)
    · rw [Nat.cast_one, div_one]
      exact_mod_cast (show 2 * m + 1 < 2 ^ 54 by omega)
  -- Half of the sum lies in the middle of two naturals.
  have rounded : roundHalfEven ((2 * m + 1) * 2 ^ (-1 : ℤ).toNat) (1 * 2 ^ (1 : ℤ).toNat) =
      m + m % 2 := by
    simp only [roundHalfEven, show (-1 : ℤ).toNat = 0 by rfl, show (1 : ℤ).toNat = 1 by rfl,
      pow_zero, pow_one, mul_one, one_mul]
    split_ifs <;> omega
  have sign : decide (((2 * m + 1 : ℕ) : ℤ) < 0) = false := decide_eq_false (by omega)
  rw [ofInt, sign, Int.natAbs_natCast,
    ofRatio_eq false (by omega) (by rw [log]; rfl) rounded]
  by_cases carry : m + m % 2 = 2 ^ 53
  · have normal : Binary64.Normal (2 ^ 52) (1 + 1) := .inr (by decide)
    simp only [carry, if_true, dif_pos normal, number_finite]
    norm_num
  · have normal : Binary64.Normal (m + m % 2) 1 := .inr ⟨by omega, by omega, by decide, by decide⟩
    simp only [if_neg carry, dif_pos normal, number_finite]
    push_cast
    ring_nf

/-- From `2 ^ 54` on adding one is rounded away. -/
theorem addOne_saturated (value : x.number = .rat n) (large : 2 ^ 54 ≤ n) : Ecma.addOne x = x := by
  obtain ⟨b, rfl, plus, leading, small, k, exp, size⟩ := exists_large value (by omega)
  have sum : ofRat ((n : ℚ) + 1) = ofInt ((n + 1 : ℕ) : ℤ) := by
    rw [← ofRat_intCast]
    push_cast
    rfl
  have sign : decide (((n + 1 : ℕ) : ℤ) < 0) = b.neg := by
    rw [plus]
    exact decide_eq_false (by omega)
  -- The unit of the number is at least four.
  have unit : (4 : ℚ) ≤ 2 ^ b.exp := by
    have positive : 0 < k := by
      by_contra zero
      obtain rfl : k = 0 := by omega
      omega
    have : 4 ≤ 2 ^ (k + 1) := Nat.pow_le_pow_right two_pos (show 2 ≤ k + 1 by omega)
    rw [exp, show (k : ℤ) + 1 = ((k + 1 : ℕ) : ℤ) by push_cast; rfl, zpow_natCast]
    exact_mod_cast this
  have total : (n : ℚ) = b.mant * 2 ^ b.exp := by
    rw [exp, show (k : ℤ) + 1 = ((k + 1 : ℕ) : ℤ) by push_cast; rfl, zpow_natCast]
    exact_mod_cast size
  rw [Ecma.addOne, value]
  change ofRat ((n : ℚ) + 1) = _
  rw [sum, ofInt, sign, Int.natAbs_natCast]
  refine ofRatio_near b (by omega) one_ne_zero ?_ (fun _ => ?_) ?_ <;>
    rw [Nat.cast_one, div_one, Nat.cast_add, Nat.cast_one, total] <;> linarith

/-- Adding one to a natural number gives a natural number, which is greater if and only
if the number is of the size that counts. -/
theorem number_addOne_nat (value : x.number = .rat n) :
    ∃ n' : ℕ, (Ecma.addOne x).number = .rat n' ∧ n ≤ n' ∧ (n < n' ↔ Counts n) := by
  rcases lt_or_ge n (2 ^ 53) with low | high
  · have double : IsDouble ((n + 1 : ℕ) : ℤ) := isDouble_of_natAbs_le (by omega)
    refine ⟨n + 1, ?_, Nat.le_succ n, iff_of_true n.lt_succ_self (.inl low)⟩
    rw [Ecma.number_addOne (n := n) (by exact_mod_cast value)]
    exact_mod_cast double
  rcases lt_or_ge n (2 ^ 54) with tie | saturated
  · obtain ⟨b, rfl, plus, leading, small, k, exp, size⟩ := exists_large value high
    -- Below `2 ^ 54` the exponent is one.
    obtain rfl : k = 0 := by
      by_contra more
      have : 4 ≤ 2 ^ (k + 1) := Nat.pow_le_pow_right two_pos (show 2 ≤ k + 1 by omega)
      nlinarith
    rw [zero_add, pow_one] at size
    refine ⟨2 * (b.mant + b.mant % 2), ?_, by omega, ?_⟩
    · rw [Ecma.number_addOne (n := n) (by exact_mod_cast value), ← ofInt_tie leading small, size]
      push_cast
      rw [mul_comm]
    · unfold Counts
      omega
  · refine ⟨n, by rw [addOne_saturated value saturated, value], le_rfl, ?_⟩
    unfold Counts
    omega

end Counter

end Foundation
