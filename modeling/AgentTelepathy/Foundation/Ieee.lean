import Mathlib.Data.Nat.Sqrt
import Mathlib.Data.Prod.Lex
import AgentTelepathy.Foundation.Quotient

/-!
# Arithmetic on binary64 numbers

Sums, products, quotients and square roots are the exact ones, rounded to nearest with
ties to even. Comparisons are those of the exact values: the two zeros are equal, and
not-a-number is equal to nothing and neither above nor below anything.

A square root is zero, or not less than `2 ^ (-537)`, or not a finite number. So the
product of two roots that are not zero is not rounded to zero.
-/

namespace Foundation

namespace Float64

/-! ### Operations -/

/-- The sign, also of a zero. -/
def sign : Float64 → Bool
  | .finite b => b.neg
  | .infinite neg => neg
  | .nan => false

/-- The number nearest to `q`, up to its sign, which is given. -/
def nearest (neg : Bool) (q : ℚ) : Float64 := ofRatio neg q.num.natAbs q.den

/-- `x + y`. -/
def add (x y : Float64) : Float64 :=
  match x.number, y.number with
  | .rat p, .rat q =>
    -- A sum of zero is negative only if both zeros are.
    if p + q = 0 then zero (x.sign && y.sign) else ofRat (p + q)
  | .rat _, .infinite neg | .infinite neg, .rat _ => .infinite neg
  | .infinite s, .infinite t => if s = t then .infinite s else .nan
  | _, _ => .nan

/-- `x * y`. -/
def mul (x y : Float64) : Float64 :=
  match x.number, y.number with
  | .rat p, .rat q => nearest (x.sign ^^ y.sign) (p * q)
  | .rat q, .infinite _ | .infinite _, .rat q =>
    -- Zero times infinity is not a number.
    if q = 0 then .nan else .infinite (x.sign ^^ y.sign)
  | .infinite s, .infinite t => .infinite (s ^^ t)
  | _, _ => .nan

/-- `x / y`, where `y` is not zero. -/
def div (x y : Float64) : Float64 :=
  match x.number, y.number with
  | .rat p, .rat q => nearest (x.sign ^^ y.sign) (p / q)
  | .rat _, .infinite _ => zero (x.sign ^^ y.sign)
  | .infinite _, .rat _ => .infinite (x.sign ^^ y.sign)
  | _, _ => .nan

/-- The root of `n / 4 ^ 600`. Where the root of `n` lies between two integers of more than
55 binary digits, no number and no middle of two numbers does, so the middle of the integers
is rounded like the root. -/
def root (n : ℕ) : Float64 :=
  if n.sqrt * n.sqrt = n then ofRatio false n.sqrt (2 ^ 600)
  else ofRatio false (2 * n.sqrt + 1) (2 ^ 601)

/-- `math.sqrt(x)`; not-a-number for what is negative, where `math.sqrt` raises. -/
def sqrt (x : Float64) : Float64 :=
  match x with
  | .finite b =>
    -- A zero is its own root, with its sign.
    if b.mant = 0 then x
    else if b.neg then .nan
    -- With 1200 more binary places the number is an integer, and its root has 600 more.
    else root (b.mant * 2 ^ (b.exp + 1200).toNat)
  | .infinite neg => if neg then .nan else x
  | .nan => .nan

/-- `x == y`. -/
def equal (x y : Float64) : Bool :=
  match x.number, y.number with
  | .rat p, .rat q => p = q
  | .infinite s, .infinite t => s = t
  | _, _ => false

/-- `x < y`. -/
def less (x y : Float64) : Bool :=
  match x.number, y.number with
  | .rat p, .rat q => p < q
  | .rat _, .infinite neg => !neg
  | .infinite neg, .rat _ => neg
  | .infinite s, .infinite t => s && !t
  | _, _ => false

example : sqrt (ofInt 9) = ofInt 3 := by decide +kernel
example : sqrt (ofInt 2) = .finite ⟨false, 6369051672525773, -52, by decide⟩ := by decide +kernel

/-! ### Order -/

/-- The place of a number in the order. -/
def rank : Float64 → ℤ ×ₗ ℚ
  -- The infinities come before and after all that is finite.
  | .finite b => toLex (0, (if b.neg then -1 else 1) * (b.mant * 2 ^ b.exp))
  | .infinite neg => toLex (if neg then -1 else 1, 0)
  | .nan => toLex (0, 0)

/-- All that are numbers are ordered by their places. -/
theorem less_iff_rank {x y : Float64} (hx : x ≠ .nan) (hy : y ≠ .nan) :
    less x y = true ↔ rank x < rank y := by
  rw [Prod.Lex.lt_iff]
  cases x with
  | finite b =>
    cases y with
    | finite c => simp [less, number_finite, rank]
    | infinite t => cases t <;> simp [less, number, rank]
    | nan => exact absurd rfl hy
  | infinite s =>
    cases y with
    | finite c => cases s <;> simp [less, number, rank]
    | infinite t => cases s <;> cases t <;> simp [less, number, rank]
    | nan => exact absurd rfl hy
  | nan => exact absurd rfl hx

/-! ### Sizes -/

/-- A number is not finite, or not smaller than a power of two. -/
def AtLeast (k : ℤ) (x : Float64) : Prop := ∀ q, x.number = .rat q → (2 : ℚ) ^ k ≤ |q|

variable {k l : ℤ} {x y : Float64}

theorem atLeast_infinite (neg : Bool) : AtLeast k (.infinite neg) := fun q value => by cases value

theorem atLeast_nan : AtLeast k .nan := fun q value => by cases value

theorem AtLeast.equal_zero (large : AtLeast k x) : equal x (zero false) = false := by
  have positive : (0 : ℚ) < 2 ^ k := by positivity
  have none : (zero false).number = .rat 0 := by decide +kernel
  rw [equal, none]
  cases value : x.number with
  | rat q =>
    have nonzero : q ≠ 0 := abs_pos.mp (positive.trans_le (large q value))
    exact decide_eq_false nonzero
  | infinite | nan => rfl

theorem atLeast_finite {b : Binary64} (large : (2 : ℚ) ^ k ≤ b.mant * 2 ^ b.exp) :
    AtLeast k (.finite b) := by
  intro q value
  rw [number_finite] at value
  obtain rfl := Number.rat.inj value
  have one : |if b.neg then (-1 : ℚ) else 1| = 1 := by split_ifs <;> simp
  rwa [abs_mul, one, one_mul, abs_of_nonneg (by positivity)]

theorem atLeast_ofRatio {num den : ℕ} (neg : Bool) (hden : den ≠ 0) (least : -1074 ≤ k)
    (low : (2 : ℚ) ^ k ≤ num / den) : AtLeast k (ofRatio neg num den) := by
  cases nearest : ofRatio neg num den with
  | finite b => exact atLeast_finite (zpow_le_ofRatio hden least low nearest)
  | infinite s => exact atLeast_infinite s
  | nan => exact atLeast_nan

/-- The absolute value of a rational is that of its numerator over its denominator. -/
theorem natAbs_num_div_den (q : ℚ) : (q.num.natAbs : ℚ) / q.den = |q| := by
  rw [Nat.cast_natAbs, Int.cast_abs]
  conv_rhs => rw [← Rat.num_div_den q, abs_div, Nat.abs_cast]

theorem atLeast_nearest {q : ℚ} (neg : Bool) (least : -1074 ≤ k) (low : (2 : ℚ) ^ k ≤ |q|) :
    AtLeast k (nearest neg q) :=
  atLeast_ofRatio neg q.den_ne_zero least (low.trans_eq (natAbs_num_div_den q).symm)

theorem AtLeast.mul (hx : AtLeast k x) (hy : AtLeast l y) (least : -1074 ≤ k + l) :
    AtLeast (k + l) (mul x y) := by
  have infinity (c : Bool) (q : ℚ) : AtLeast (k + l) (if q = 0 then .nan else .infinite c) := by
    split_ifs
    · exact atLeast_nan
    · exact atLeast_infinite c
  rw [Float64.mul]
  cases first : x.number with
  | rat p =>
    cases second : y.number with
    | rat q =>
      apply atLeast_nearest _ least
      rw [zpow_add₀ two_ne_zero, abs_mul]
      have low := hx p first
      have low' := hy q second
      gcongr
    | infinite => exact infinity _ _
    | nan => exact atLeast_nan
  | infinite s =>
    cases second : y.number with
    | rat q => exact infinity _ _
    | infinite => exact atLeast_infinite _
    | nan => exact atLeast_nan
  | nan => exact atLeast_nan

/-! ### Roots -/

theorem atLeast_root {n : ℕ} (large : 2 ^ 126 ≤ n) : AtLeast (-537) (root n) := by
  have long : 2 ^ 63 ≤ n.sqrt := Nat.le_sqrt.mpr (by rwa [← pow_add])
  have long' : (2 : ℚ) ^ 63 ≤ n.sqrt := by exact_mod_cast long
  rw [root]
  split_ifs
  · apply atLeast_ofRatio false (by positivity) (by decide)
    have exponent : (-537 : ℤ) + (600 : ℕ) = (63 : ℕ) := by decide
    rw [Nat.cast_pow, Nat.cast_ofNat, le_div_iff₀ (by positivity), ← two_zpow_add, exponent,
      zpow_natCast]
    exact long'
  · apply atLeast_ofRatio false (by positivity) (by decide)
    -- Both sides are doubled for the middle of two integers.
    have exponent : (-537 : ℤ) + (601 : ℕ) = (64 : ℕ) := by decide
    rw [Nat.cast_pow, Nat.cast_ofNat, le_div_iff₀ (by positivity), ← two_zpow_add, exponent,
      zpow_natCast, pow_succ]
    push_cast
    linarith

/-- A root that is not zero is not small. -/
theorem atLeast_sqrt {x : Float64} (nonzero : equal (sqrt x) (zero false) = false) :
    AtLeast (-537) (sqrt x) := by
  cases x with
  | finite b =>
    rw [sqrt] at nonzero ⊢
    split_ifs at nonzero ⊢ with none negative
    · have all : ∀ neg, equal (zero neg) (zero false) = true := by decide +kernel
      rw [Binary64.eq_zero none] at nonzero
      exact absurd ((all b.neg).symm.trans nonzero) (by decide)
    · exact atLeast_nan
    · -- The least positive number is `2 ^ (-1074)`, so the radicand has 126 binary places at least.
      apply atLeast_root
      have one : 1 ≤ b.mant := Nat.one_le_iff_ne_zero.mpr none
      have exponent : 126 ≤ (b.exp + 1200).toNat := by
        rcases b.normal with ⟨-, least⟩ | ⟨-, -, least, -⟩ <;> omega
      calc 2 ^ 126 ≤ 2 ^ (b.exp + 1200).toNat := Nat.pow_le_pow_right (by decide) exponent
        _ ≤ b.mant * 2 ^ (b.exp + 1200).toNat := Nat.le_mul_of_pos_left _ one
  | infinite neg =>
    cases neg with
    | true => exact atLeast_nan
    | false => exact atLeast_infinite false
  | nan => exact atLeast_nan

/-- The product of two roots that are not zero is not zero. -/
theorem mul_sqrt_ne_zero {x y : Float64} (hx : equal (sqrt x) (zero false) = false)
    (hy : equal (sqrt y) (zero false) = false) :
    equal (mul (sqrt x) (sqrt y)) (zero false) = false :=
  ((atLeast_sqrt hx).mul (atLeast_sqrt hy) (by decide)).equal_zero

end Float64

/-! ### Operators -/

namespace Ieee

scoped instance : Zero Float64 := ⟨Float64.zero false⟩

scoped instance : Add Float64 := ⟨Float64.add⟩

scoped instance : Mul Float64 := ⟨Float64.mul⟩

scoped instance : Div Float64 := ⟨Float64.div⟩

scoped instance : BEq Float64 := ⟨Float64.equal⟩

scoped instance : LT Float64 := ⟨fun x y => x.less y = true⟩

scoped instance : DecidableLT Float64 := fun x y => inferInstanceAs (Decidable (x.less y = true))

end Ieee

end Foundation
