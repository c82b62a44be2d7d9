import Mathlib.Data.Nat.Notation
import Mathlib.Data.List.Basic
import Mathlib.Algebra.Order.Ring.Nat
import Mathlib.Tactic.Ring

/-!
# Fixed-width digit strings

A number below `base ^ width` is written with exactly `width` digits, leading
zeros included, and read back digit by digit. Hexadecimal digits are written in
lower case and read in either case.
-/

namespace Foundation

namespace FixedWidth

/-- The value of a digit character in bases up to sixteen. -/
def digit? (base : ℕ) (c : Char) : Option ℕ :=
  let value :=
    if '0' ≤ c ∧ c ≤ '9' then c.toNat - '0'.toNat
    else if 'a' ≤ c ∧ c ≤ 'f' then c.toNat - 'a'.toNat + 10
    else if 'A' ≤ c ∧ c ≤ 'F' then c.toNat - 'A'.toNat + 10
    else base
  if value < base then some value else none

/-- The `width` lowest digits of a number, highest first. -/
def write (base : ℕ) : ℕ → ℕ → List Char
  | 0, _ => []
  | width + 1, n => write base width (n / base) ++ [Nat.digitChar (n % base)]

/-- Read digits onto a number already read. -/
def readOnto (base : ℕ) : ℕ → List Char → Option ℕ
  | n, [] => some n
  | n, c :: cs => (digit? base c).bind fun d => readOnto base (n * base + d) cs

/-- Read a digit string. -/
def read (base : ℕ) (cs : List Char) : Option ℕ := readOnto base 0 cs

variable {base : ℕ}

@[simp] theorem length_write (width n : ℕ) : (write base width n).length = width := by
  induction width generalizing n with
  | zero => rfl
  | succ width ih => simp [write, ih]

theorem digit?_digitChar (small : base ≤ 16) {d : ℕ} (h : d < base) :
    digit? base (Nat.digitChar d) = some d := by
  have table : ∀ b ≤ 16, ∀ d < b, digit? b (Nat.digitChar d) = some d := by decide
  exact table base small d h

theorem readOnto_append (n : ℕ) (cs ds : List Char) :
    readOnto base n (cs ++ ds) = (readOnto base n cs).bind fun m => readOnto base m ds := by
  induction cs generalizing n with
  | nil => rfl
  | cons c cs ih =>
    simp only [List.cons_append, readOnto, Option.bind_assoc]
    exact congrArg _ (funext fun d => ih _)

theorem readOnto_write (positive : 0 < base) (small : base ≤ 16) (width m n : ℕ) :
    readOnto base m (write base width n) = some (m * base ^ width + n % base ^ width) := by
  induction width generalizing n with
  | zero => simp [write, readOnto, Nat.mod_one]
  | succ width ih =>
    rw [write, readOnto_append, ih]
    simp only [Option.bind_some, readOnto, digit?_digitChar small (Nat.mod_lt n positive)]
    rw [pow_succ', Nat.mod_mul]
    congr 1
    ring

/-- What is written in `width` digits is read back. -/
theorem read_write (positive : 0 < base) (small : base ≤ 16) {width n : ℕ}
    (fits : n < base ^ width) : read base (write base width n) = some n := by
  rw [read, readOnto_write positive small, Nat.mod_eq_of_lt fits, Nat.zero_mul, Nat.zero_add]

end FixedWidth

end Foundation
