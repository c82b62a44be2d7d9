import Mathlib.Algebra.Group.Nat.Defs
import Mathlib.Data.List.TakeWhile
import Mathlib.Data.Nat.Notation
import Mathlib.Data.Int.Notation
import Mathlib.Logic.Encodable.Basic
import Mathlib.Tactic.SplitIfs

/-!
# Binary64 floating-point numbers and their shortest decimal text

A finite number is a sign, a significand and an exponent in normal form, so
each number has exactly one representation and equality of representations
distinguishes the two zeros. A ratio of naturals is rounded to nearest, ties to
even. The text of a number is the shortest decimal that reads back as it, laid
out with an exponent only outside the range from `1e-4` to `1e16`.
-/

namespace Foundation

namespace Binary64

/-- Significand and exponent of a finite number: subnormal, or with a leading
bit at position 52. -/
def Normal (mant : ℕ) (exp : ℤ) : Prop :=
  (mant < 2 ^ 52 ∧ exp = -1074) ∨ (2 ^ 52 ≤ mant ∧ mant < 2 ^ 53 ∧ -1074 ≤ exp ∧ exp ≤ 971)

instance (mant : ℕ) (exp : ℤ) : Decidable (Normal mant exp) := by
  unfold Normal
  infer_instance

theorem normal_zero : Normal 0 (-1074) := .inl ⟨by decide, rfl⟩

end Binary64

/-- A finite binary64 number, of value `(-1) ^ neg * mant * 2 ^ exp`. -/
structure Binary64 where
  neg : Bool
  mant : ℕ
  exp : ℤ
  normal : Binary64.Normal mant exp
  deriving DecidableEq

/-- The numbers without a significand are the two zeros. -/
theorem Binary64.eq_zero {b : Binary64} (zero : b.mant = 0) :
    b = ⟨b.neg, 0, -1074, Binary64.normal_zero⟩ := by
  obtain ⟨neg, mant, exp, normal⟩ := b
  obtain rfl : mant = 0 := zero
  obtain ⟨-, rfl⟩ | ⟨leading, -⟩ := normal
  · rfl
  · exact absurd leading (by decide)

/-- A binary64 value: a finite number, an infinity, or not a number. -/
inductive Float64 where
  | finite (number : Binary64)
  | infinite (neg : Bool)
  | nan
  deriving DecidableEq

namespace Float64

/-! ### Rounding -/

/-- Both signed zeros. -/
def zero (neg : Bool) : Float64 := .finite ⟨neg, 0, -1074, Binary64.normal_zero⟩

/-- The integer nearest to `num / den`, ties to even. -/
def roundHalfEven (num den : ℕ) : ℕ :=
  let q := num / den
  let r := num % den
  if 2 * r < den then q
  else if den < 2 * r then q + 1
  else if q % 2 = 0 then q else q + 1

/-- The integer part of the binary logarithm of `num / den`. -/
def floorLog2 (num den : ℕ) : ℤ :=
  let k : ℤ := (num.log2 : ℤ) - den.log2
  if den * 2 ^ k.toNat ≤ num * 2 ^ (-k).toNat then k else k - 1

/-- The binary64 value nearest to `num / den`, ties to even; beyond the largest
finite number, an infinity. -/
def ofRatio (neg : Bool) (num den : ℕ) : Float64 :=
  if num = 0 then zero neg
  else
    let exp := max (floorLog2 num den - 52) (-1074)
    let mant := roundHalfEven (num * 2 ^ (-exp).toNat) (den * 2 ^ exp.toNat)
    let carried : ℕ × ℤ := if mant = 2 ^ 53 then (2 ^ 52, exp + 1) else (mant, exp)
    if normal : Binary64.Normal carried.1 carried.2 then
      .finite ⟨neg, carried.1, carried.2, normal⟩
    else .infinite neg

/-- The binary64 value nearest to an integer. -/
def ofInt (n : ℤ) : Float64 := ofRatio (decide (n < 0)) n.natAbs 1

/-! ### Reading decimal text -/

/-- The value of a decimal digit. -/
def digitValue (c : Char) : ℕ := c.toNat - '0'.toNat

/-- The number written by a list of decimal digits. -/
def digitsValue (ds : List Char) : ℕ := ds.foldl (fun n c => 10 * n + digitValue c) 0

/-- The value of `digits * 10 ^ scale`. -/
def ofDecimal (neg : Bool) (digits : ℕ) (scale : ℤ) : Float64 :=
  ofRatio neg (digits * 10 ^ scale.toNat) (10 ^ (-scale).toNat)

/-- Read a nonempty run of digits that ends the text. -/
def readDigits (ds : List Char) : Option ℕ :=
  if ds ≠ [] ∧ ds.all Char.isDigit then some (digitsValue ds) else none

/-- Read an optional exponent suffix. -/
def readExponent : List Char → Option ℤ
  | [] => some 0
  | c :: cs =>
    if c = 'e' ∨ c = 'E' then
      match cs with
      | '-' :: ds => (readDigits ds).map fun n : ℕ => -(n : ℤ)
      | '+' :: ds => (readDigits ds).map fun n : ℕ => (n : ℤ)
      | ds => (readDigits ds).map fun n : ℕ => (n : ℤ)
    else none

/-- Read digits with a fraction, an exponent, or both. Digits alone are an
integer and not read here. -/
def readUnsigned (neg : Bool) (cs : List Char) : Option Float64 :=
  let whole := cs.takeWhile Char.isDigit
  if whole = [] then none
  else
    match cs.dropWhile Char.isDigit with
    | [] => none
    | '.' :: rest =>
      let frac := rest.takeWhile Char.isDigit
      if frac = [] then none
      else (readExponent (rest.dropWhile Char.isDigit)).map fun e =>
        ofDecimal neg (digitsValue (whole ++ frac)) (e - frac.length)
    | rest => (readExponent rest).map (ofDecimal neg (digitsValue whole))

/-- Read the decimal text of a float. -/
def read : List Char → Option Float64
  | '-' :: cs => readUnsigned true cs
  | cs => readUnsigned false cs

/-! ### Shortest text -/

/-- The decimal digits of a natural number. -/
def digits (n : ℕ) : List Char := Nat.toDigits 10 n

/-- The integer part of the decimal logarithm of `num / den`. -/
def floorLog10 (num den : ℕ) : ℤ :=
  if den ≤ num then (digits (num / den)).length - 1
  else -((digits ((den - 1) / num)).length : ℤ)

/-- Lay out digits whose decimal point stands after the first `point` of them. -/
def layout (ds : List Char) (point : ℤ) : List Char :=
  if -4 < point ∧ point ≤ 16 then
    if point ≤ 0 then '0' :: '.' :: (List.replicate (-point).toNat '0' ++ ds)
    else if ds.length ≤ point.toNat then
      ds ++ List.replicate (point.toNat - ds.length) '0' ++ ['.', '0']
    else ds.take point.toNat ++ '.' :: ds.drop point.toNat
  else
    let frac := if ds.length ≤ 1 then [] else '.' :: ds.drop 1
    let sign := if point - 1 < 0 then '-' else '+'
    let power := digits (point - 1).natAbs
    ds.take 1 ++ frac ++
      'e' :: sign :: (if power.length < 2 then '0' :: power else power)

/-- The text of `num / den` cut to `n` significant digits by `round`. -/
def significant (round : ℕ → ℕ → ℕ) (num den n : ℕ) : List Char :=
  let p := floorLog10 num den
  let scale := p - n + 1
  let d := round (num * 10 ^ (-scale).toNat) (den * 10 ^ scale.toNat)
  if d = 10 ^ n then layout (digits (10 ^ (n - 1))) (p + 2) else layout (digits d) (p + 1)

/-- The next integer above `num / den`. -/
def roundUp (num den : ℕ) : ℕ := num / den + 1

/-- Put the sign in front. -/
def signed (neg : Bool) (cs : List Char) : List Char := if neg then '-' :: cs else cs

/-- The candidate texts of a finite number, shortest first. The decimals below a
power of two are denser, so next to the nearest one the one above is tried. -/
def candidates (b : Binary64) : List (List Char) :=
  if b.mant = 0 then [signed b.neg ['0', '.', '0']]
  else (List.range' 1 17).flatMap fun n =>
    [roundHalfEven, roundUp].map fun round =>
      signed b.neg (significant round (b.mant * 2 ^ b.exp.toNat) (2 ^ (-b.exp).toNat) n)

/-- The shortest candidate that reads back as the number. -/
def shortest (b : Binary64) : Option (List Char) :=
  (candidates b).find? fun cs => read cs = some (.finite b)

/-- A code outside the decimal texts. Seventeen digits always read back, so no
number is printed by it; with it the text determines the number by definition. -/
def code (b : Binary64) : List Char :=
  'x' :: digits (Encodable.encode (b.neg, b.mant, b.exp))

/-- The text of a float, as Python's `float.__repr__` lays it out, with the JSON
names of the values that are not finite. -/
def repr : Float64 → List Char
  | .finite b => (shortest b).getD (code b)
  | .infinite neg => signed neg ['I', 'n', 'f', 'i', 'n', 'i', 't', 'y']
  | .nan => ['N', 'a', 'N']

example : repr (ofRatio false 1 10) = ['0', '.', '1'] := by decide +kernel
example : repr (ofInt (10 ^ 16)) = ['1', 'e', '+', '1', '6'] := by decide +kernel
example : ofInt (2 ^ 53 + 1) = ofInt (2 ^ 53) := by decide +kernel

/-! ### The text determines the number -/

/-- The characters of decimal text. -/
def IsDecimalChar (c : Char) : Prop := c.isDigit = true ∨ c ∈ ['-', '+', '.', 'e', 'E']

theorem digits_isDigit {n : ℕ} {c : Char} (member : c ∈ digits n) : c.isDigit = true :=
  Nat.isDigit_of_mem_toDigits (by decide) (by decide) member

theorem digits_injective : Function.Injective digits := by
  intro m n same
  have values := congrArg (Nat.ofDigitChars 10 · 0) same
  simpa only [digits, Nat.ofDigitChars_ten_toDigits] using values

theorem digits_ne_nil (n : ℕ) : digits n ≠ [] := Nat.toDigits_ne_nil

theorem readDigits_chars {ds : List Char} {n : ℕ} (h : readDigits ds = some n) :
    ∀ c ∈ ds, IsDecimalChar c := by
  unfold readDigits at h
  split_ifs at h with valid
  exact fun c member => Or.inl (List.all_eq_true.mp valid.2 c member)

theorem readExponent_chars {cs : List Char} {e : ℤ} (h : readExponent cs = some e) :
    ∀ c ∈ cs, IsDecimalChar c := by
  cases cs with
  | nil => simp
  | cons c cs =>
    simp only [readExponent] at h
    split_ifs at h with marker
    have here : IsDecimalChar c := by
      rcases marker with rfl | rfl <;> exact Or.inr (by simp)
    rw [List.forall_mem_cons]
    refine ⟨here, ?_⟩
    split at h
    all_goals obtain ⟨n, found, -⟩ := Option.map_eq_some_iff.mp h
    · exact List.forall_mem_cons.mpr ⟨Or.inr (by simp), readDigits_chars found⟩
    · exact List.forall_mem_cons.mpr ⟨Or.inr (by simp), readDigits_chars found⟩
    · exact readDigits_chars found

private theorem takeWhile_isDecimalChar (cs : List Char) :
    ∀ c ∈ cs.takeWhile Char.isDigit, IsDecimalChar c :=
  fun _ member => Or.inl (List.mem_takeWhile_imp member)

private theorem forall_mem_of_split {p : Char → Prop} {cs : List Char}
    (front : ∀ c ∈ cs.takeWhile Char.isDigit, p c)
    (back : ∀ c ∈ cs.dropWhile Char.isDigit, p c) : ∀ c ∈ cs, p c := by
  intro c member
  rw [← List.takeWhile_append_dropWhile (p := Char.isDigit) (l := cs), List.mem_append] at member
  exact member.elim (front c) (back c)

theorem readUnsigned_chars {neg : Bool} {cs : List Char} {f : Float64}
    (h : readUnsigned neg cs = some f) : ∀ c ∈ cs, IsDecimalChar c := by
  unfold readUnsigned at h
  refine forall_mem_of_split (takeWhile_isDecimalChar cs) ?_
  dsimp only at h
  split_ifs at h
  split at h
  · exact absurd h (by simp)
  · next rest dropped =>
    rw [dropped]
    split_ifs at h
    obtain ⟨e, found, -⟩ := Option.map_eq_some_iff.mp h
    exact List.forall_mem_cons.mpr ⟨Or.inr (by simp),
      forall_mem_of_split (takeWhile_isDecimalChar rest) (readExponent_chars found)⟩
  · obtain ⟨e, found, -⟩ := Option.map_eq_some_iff.mp h
    exact readExponent_chars found

/-- Text that reads as a float is made of decimal characters. -/
theorem read_chars {cs : List Char} {f : Float64} (h : read cs = some f) :
    ∀ c ∈ cs, IsDecimalChar c := by
  unfold read at h
  split at h
  · exact List.forall_mem_cons.mpr ⟨Or.inr (by simp), readUnsigned_chars h⟩
  · exact readUnsigned_chars h

theorem readUnsigned_digits {neg : Bool} {cs : List Char} (only : ∀ c ∈ cs, c.isDigit = true) :
    readUnsigned neg cs = none := by
  have all : cs.dropWhile Char.isDigit = [] := List.dropWhile_eq_nil_iff.mpr only
  unfold readUnsigned
  rw [all]
  simp

/-- Digits alone, with or without a sign, do not read as a float. -/
theorem read_signed_digits (neg : Bool) (n : ℕ) : read (signed neg (digits n)) = none := by
  have only : ∀ c ∈ digits n, c.isDigit = true := fun _ => digits_isDigit
  cases neg with
  | true => exact readUnsigned_digits only
  | false =>
    unfold read
    split
    · next cs same =>
      have minus : '-' ∈ digits n := by
        change digits n = '-' :: cs at same
        simp [same]
      exact absurd (only _ minus) (by decide)
    · exact readUnsigned_digits only

/-- The text of a finite number reads back as it, or is its code. -/
theorem repr_finite (b : Binary64) :
    read (repr (.finite b)) = some (.finite b) ∨ repr (.finite b) = code b := by
  cases found : shortest b with
  | none => exact Or.inr (by simp [repr, found])
  | some cs =>
    have reads := List.find?_some found
    exact Or.inl (by simpa [repr, found] using reads)

theorem code_injective {b c : Binary64} (h : code b = code c) : b = c := by
  have same := Encodable.encode_injective (digits_injective (List.cons.inj h).2)
  cases b
  cases c
  simp_all

private theorem read_code (b : Binary64) : read (code b) = none := by
  cases h : read (code b) with
  | none => rfl
  | some f =>
    have bad := read_chars h 'x' (by simp [code])
    exact absurd bad (by unfold IsDecimalChar; decide)

theorem repr_infinite_injective {s t : Bool}
    (h : repr (.infinite s) = repr (.infinite t)) : s = t := by
  revert s t
  decide

private theorem read_special : read (repr .nan) = none ∧ ∀ neg, read (repr (.infinite neg)) =
    none := by
  decide

private theorem repr_finite_ne {b : Binary64} {f : Float64} (special : read (repr f) = none)
    (plain : (repr f).head? ≠ some 'x') : repr (.finite b) ≠ repr f := by
  intro same
  rcases repr_finite b with reads | coded
  · rw [same, special] at reads
    exact absurd reads (by simp)
  · rw [coded] at same
    exact plain (by rw [← same]; rfl)

/-- Distinct floats have distinct texts. -/
theorem repr_injective : Function.Injective repr := by
  intro f g same
  -- A finite number reads back, or is written as its code; the other texts are no decimals.
  cases f with
  | finite b =>
    cases g with
    | finite c =>
      rcases repr_finite b with hb | hb <;> rcases repr_finite c with hc | hc
      · rw [same, hc] at hb
        exact (Option.some.inj hb).symm
      · rw [same, hc, read_code] at hb
        exact absurd hb (by simp)
      · rw [← same, hb, read_code] at hc
        exact absurd hc (by simp)
      · rw [code_injective (hb.symm.trans (same.trans hc))]
    | infinite neg =>
      exact absurd same (repr_finite_ne (read_special.2 neg) (by cases neg <;> decide))
    | nan => exact absurd same (repr_finite_ne read_special.1 (by decide))
  | infinite neg =>
    cases g with
    | finite c =>
      exact absurd same.symm (repr_finite_ne (read_special.2 neg) (by cases neg <;> decide))
    | infinite neg' => rw [repr_infinite_injective same]
    | nan => cases neg <;> exact absurd same (by decide)
  | nan =>
    cases g with
    | finite c => exact absurd same.symm (repr_finite_ne read_special.1 (by decide))
    | infinite neg => cases neg <;> exact absurd same (by decide)
    | nan => rfl

/-- A word that does not read as a float is the text of none, unless it starts
like a value that is not finite or like a code. -/
theorem repr_ne_word {cs : List Char} (unread : read cs = none)
    (start : ∀ c ∈ cs.head?, c ∉ ['x', 'I', 'N', '-']) (f : Float64) : repr f ≠ cs := by
  rintro rfl
  cases f with
  | finite b =>
    rcases repr_finite b with hb | hb
    · rw [unread] at hb
      exact absurd hb (by simp)
    · exact absurd (start 'x' (by simp [hb, code])) (by simp)
  | infinite neg =>
    cases neg with
    | true => exact absurd (start '-' (by simp [repr, signed])) (by simp)
    | false => exact absurd (start 'I' (by simp [repr, signed])) (by simp)
  | nan => exact absurd (start 'N' (by simp [repr])) (by simp)

/-- A float's text is never an integer's. -/
theorem repr_ne_signed_digits (f : Float64) (neg : Bool) (n : ℕ) :
    repr f ≠ signed neg (digits n) := by
  intro same
  have reads := read_signed_digits neg n
  have only : ∀ c ∈ signed neg (digits n), c = '-' ∨ c.isDigit = true := by
    cases neg with
    | true => exact List.forall_mem_cons.mpr ⟨Or.inl rfl, fun _ h => Or.inr (digits_isDigit h)⟩
    | false => exact fun _ h => Or.inr (digits_isDigit h)
  rw [← same] at reads only
  cases f with
  | finite b =>
    rcases repr_finite b with hb | hb
    · rw [reads] at hb
      exact absurd hb (by simp)
    · exact absurd (only 'x' (by simp [hb, code])) (by decide)
  | infinite s => exact absurd (only 'I' (by cases s <;> decide)) (by decide)
  | nan => exact absurd (only 'N' (by decide)) (by decide)

end Float64

end Foundation
