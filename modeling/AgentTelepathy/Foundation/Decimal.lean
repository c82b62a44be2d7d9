import AgentTelepathy.Foundation.Ecma

/-!
# Exact decimals

The number of a JSON text is an exact decimal; readers round it. Decimals of one
value and one sign round to one float, so what an encoder writes for a float reads
back as it in whichever way the encoder lays out the digits.
-/

namespace Foundation

namespace Float64

/-! ### Rounding depends on the ratio alone -/

private theorem roundHalfEven_mul {k : ℕ} (positive : 0 < k) (num den : ℕ) :
    roundHalfEven (k * num) (k * den) = roundHalfEven num den := by
  have less (a b : ℕ) : 2 * (k * a) < k * b ↔ 2 * a < b := by
    rw [show 2 * (k * a) = k * (2 * a) by ring]
    exact Nat.mul_lt_mul_left positive
  have greater (a b : ℕ) : k * b < 2 * (k * a) ↔ b < 2 * a := by
    rw [show 2 * (k * a) = k * (2 * a) by ring]
    exact Nat.mul_lt_mul_left positive
  rw [roundHalfEven, roundHalfEven, Nat.mul_div_mul_left _ _ positive, Nat.mul_mod_mul_left]
  simp only [less, greater]

theorem roundHalfEven_congr {num den num' den' : ℕ} (hden : 0 < den) (hden' : 0 < den')
    (same : num * den' = num' * den) : roundHalfEven num den = roundHalfEven num' den' := by
  rw [← roundHalfEven_mul hden' num den, ← roundHalfEven_mul hden num' den', Nat.mul_comm den' num,
    same, Nat.mul_comm num' den, Nat.mul_comm den' den]

/-- Equal ratios round to one number. -/
theorem ofRatio_congr {num den num' den' : ℕ} (neg : Bool) (hden : den ≠ 0) (hden' : den' ≠ 0)
    (same : (num : ℚ) / den = num' / den') : ofRatio neg num den = ofRatio neg num' den' := by
  have left : (den : ℚ) ≠ 0 := Nat.cast_ne_zero.mpr hden
  have right : (den' : ℚ) ≠ 0 := Nat.cast_ne_zero.mpr hden'
  have cross : num * den' = num' * den := by
    have rational := (div_eq_div_iff left right).mp same
    exact_mod_cast rational
  by_cases zero : num = 0
  · have zero' : num' = 0 := by
      rw [zero, Nat.zero_mul] at cross
      exact (Nat.mul_eq_zero.mp cross.symm).resolve_right hden
    rw [zero, zero', ofRatio, ofRatio, if_pos rfl, if_pos rfl]
  · have nonzero : num' ≠ 0 := by
      rintro rfl
      rw [Nat.zero_mul] at cross
      exact (Nat.mul_eq_zero.mp cross).elim zero hden'
    -- Equal ratios have the same exponent, and with it round to the same significand.
    have log : floorLog2 num den = floorLog2 num' den' := by
      obtain ⟨low, high⟩ := floorLog2_spec nonzero hden'
      exact floorLog2_eq zero hden (same ▸ low) (same ▸ high)
    have mant (exp : ℤ) : roundHalfEven (num * 2 ^ (-exp).toNat) (den * 2 ^ exp.toNat) =
        roundHalfEven (num' * 2 ^ (-exp).toNat) (den' * 2 ^ exp.toNat) := by
      refine roundHalfEven_congr (by positivity) (by positivity) ?_
      calc num * 2 ^ (-exp).toNat * (den' * 2 ^ exp.toNat)
          = num * den' * (2 ^ (-exp).toNat * 2 ^ exp.toNat) := by ring
        _ = num' * 2 ^ (-exp).toNat * (den * 2 ^ exp.toNat) := by rw [cross]; ring
    rw [ofRatio_eq neg zero (congrArg (fun k => max (k - 52) (-1074)) log) (mant _),
      ofRatio_eq neg nonzero rfl rfl]

end Float64

/-- A decimal number, `± digits · 10 ^ scale`; zero has two signs. -/
structure Decimal where
  neg : Bool
  digits : ℕ
  scale : ℤ

namespace Decimal

open Float64

/-- The number without its sign. -/
def magnitude (d : Decimal) : ℚ := d.digits * 10 ^ d.scale

/-- The number. -/
def value (d : Decimal) : ℚ := (if d.neg then -1 else 1) * d.magnitude

/-- The nearest float. -/
def toFloat (d : Decimal) : Float64 := ofDecimal d.neg d.digits d.scale

theorem magnitude_eq (d : Decimal) : d.magnitude =
    ((d.digits * 10 ^ d.scale.toNat : ℕ) : ℚ) / ((10 ^ (-d.scale).toNat : ℕ) : ℚ) := by
  rw [magnitude, zpow_eq_div 10 d.scale]
  push_cast
  rw [mul_div_assoc]

theorem toFloat_congr {d e : Decimal} (sign : d.neg = e.neg) (size : d.magnitude = e.magnitude) :
    d.toFloat = e.toFloat := by
  rw [toFloat, toFloat, ofDecimal, ofDecimal, sign]
  refine ofRatio_congr _ (pow_ne_zero _ (by decide)) (pow_ne_zero _ (by decide)) ?_
  rw [← magnitude_eq, ← magnitude_eq, size]

/-! ### Reading -/

/-- Read a number without its sign: digits, and a fraction, an exponent, or both. -/
def readUnsigned (neg : Bool) (cs : List Char) : Option Decimal :=
  let whole := cs.takeWhile Char.isDigit
  if whole = [] then none
  else
    match cs.dropWhile Char.isDigit with
    | '.' :: rest =>
      let frac := rest.takeWhile Char.isDigit
      if frac = [] then none
      else (readExponent (rest.dropWhile Char.isDigit)).map fun e =>
        ⟨neg, digitsValue (whole ++ frac), e - frac.length⟩
    | rest => (readExponent rest).map fun e => ⟨neg, digitsValue whole, e⟩

/-- Read the text of a number. -/
def read : List Char → Option Decimal
  | '-' :: cs => readUnsigned true cs
  | cs => readUnsigned false cs

/-- What reads as a float reads as a decimal that rounds to it. -/
theorem read_of_float {cs : List Char} {f : Float64} (reads : Float64.read cs = some f) :
    ∃ d, read cs = some d ∧ d.toFloat = f := by
  -- The sign is read first and alike, so the part after it is compared.
  have unsigned {neg : Bool} {cs : List Char} (reads : Float64.readUnsigned neg cs = some f) :
      ∃ d, readUnsigned neg cs = some d ∧ d.toFloat = f := by
    unfold Float64.readUnsigned at reads
    unfold readUnsigned
    dsimp only at reads ⊢
    split_ifs at reads ⊢
    split at reads
    · cases reads
    · next rest dropped =>
      split_ifs at reads with some
      obtain ⟨e, exponent, rfl⟩ := Option.map_eq_some_iff.mp reads
      refine ⟨⟨neg, _, _⟩, ?_, rfl⟩
      simp only [dropped, if_neg some, exponent, Option.map_some]
      rfl
    · next rest other other' =>
      obtain ⟨e, exponent, rfl⟩ := Option.map_eq_some_iff.mp reads
      split
      · next rest dropped => exact absurd dropped (other' rest)
      · exact ⟨_, by rw [exponent]; rfl, rfl⟩
  by_cases minus : ∃ rest, cs = '-' :: rest
  · obtain ⟨rest, rfl⟩ := minus
    exact unsigned reads
  · have other (rest : List Char) (same : cs = '-' :: rest) : False := minus ⟨rest, same⟩
    rw [Float64.read.eq_2 cs other] at reads
    rw [read.eq_2 cs other]
    exact unsigned reads

/-- What reads as a decimal reads as a float if it has more than digits. -/
theorem readUnsigned_float {neg : Bool} {cs : List Char} {d : Decimal}
    (reads : readUnsigned neg cs = some d) (more : cs.dropWhile Char.isDigit ≠ []) :
    Float64.readUnsigned neg cs = some d.toFloat := by
  unfold readUnsigned at reads
  unfold Float64.readUnsigned
  dsimp only at reads ⊢
  split_ifs at reads ⊢
  split at reads
  · next rest dropped =>
    split_ifs at reads with some'
    obtain ⟨e, exponent, rfl⟩ := Option.map_eq_some_iff.mp reads
    simp only [dropped, if_neg some', exponent, Option.map_some]
    rfl
  · next rest other =>
    obtain ⟨e, exponent, rfl⟩ := Option.map_eq_some_iff.mp reads
    split
    · next empty => exact absurd empty more
    · next rest dropped => exact absurd dropped (other rest)
    · rw [exponent]
      rfl

section Digits

variable {ds rest : List Char} (neg : Bool)

theorem readUnsigned_point (whole frac rest : List Char) {e : ℤ} (hwhole : whole ≠ [])
    (hfrac : frac ≠ []) (wholeOnly : ∀ c ∈ whole, c.isDigit = true)
    (fracOnly : ∀ c ∈ frac, c.isDigit = true) (stops : ∀ c ∈ rest.head?, c.isDigit = false)
    (exponent : readExponent rest = some e) :
    readUnsigned neg (whole ++ '.' :: (frac ++ rest)) =
      some ⟨neg, digitsValue (whole ++ frac), e - frac.length⟩ := by
  have point := point_stops (frac ++ rest)
  unfold readUnsigned
  simp only [takeWhile_digits wholeOnly point, dropWhile_digits wholeOnly point, if_neg hwhole,
    takeWhile_digits fracOnly stops, dropWhile_digits fracOnly stops, if_neg hfrac, exponent,
    Option.map_some]

theorem readUnsigned_whole (rest : List Char) {e : ℤ} (nonempty : ds ≠ [])
    (only : ∀ c ∈ ds, c.isDigit = true)
    (stops : ∀ c ∈ rest.head?, c.isDigit = false ∧ c ≠ '.')
    (exponent : readExponent rest = some e) :
    readUnsigned neg (ds ++ rest) = some ⟨neg, digitsValue ds, e⟩ := by
  have digits : ∀ c ∈ rest.head?, c.isDigit = false := fun c member => (stops c member).1
  unfold readUnsigned
  simp only [takeWhile_digits only digits, dropWhile_digits only digits, if_neg nonempty]
  split
  · exact absurd rfl (stops '.' rfl).2
  · rw [exponent, Option.map_some]

theorem digitsValue_append_zeros (ds : List Char) (k : ℕ) :
    digitsValue (ds ++ List.replicate k '0') = digitsValue ds * 10 ^ k := by
  rw [digitsValue_eq, digitsValue_eq, Nat.ofDigitChars_append, Nat.ofDigitChars_replicate_zero,
    Nat.mul_comm]

/-- The text reads as the digits with their point after the first `point` of them. -/
def Reads (neg : Bool) (cs ds : List Char) (point : ℤ) : Prop :=
  ∃ d, readUnsigned neg cs = some d ∧ d.neg = neg ∧
    d.magnitude = digitsValue ds * 10 ^ (point - ds.length)

variable {neg} {point : ℤ} (nonempty : ds ≠ []) (only : ∀ c ∈ ds, c.isDigit = true)

include nonempty only

/-- Zeros stand between the point and the digits. -/
theorem reads_below (below : point ≤ 0) :
    Reads neg ('0' :: '.' :: (List.replicate (-point).toNat '0' ++ ds)) ds point := by
  have zeros := isDigit_zeros_append (-point).toNat only
  have read := readUnsigned_point neg ['0'] _ [] (by simp)
    (List.append_ne_nil_of_right_ne_nil _ nonempty) (List.forall_mem_singleton.mpr (by decide))
    zeros nofun rfl
  rw [List.append_nil] at read
  refine ⟨_, read, rfl, ?_⟩
  rw [magnitude, List.singleton_append, digitsValue_zero_cons, digitsValue_replicate_append,
    List.length_append, List.length_replicate]
  dsimp only
  congr 2
  omega

/-- Zeros stand between the digits and the point. -/
theorem reads_above (above : ds.length ≤ point.toNat) :
    Reads neg (ds ++ List.replicate (point.toNat - ds.length) '0') ds point ∧
      Reads neg (ds ++ List.replicate (point.toNat - ds.length) '0' ++ ['.', '0']) ds point := by
  have long := List.length_pos_iff.mpr nonempty
  obtain ⟨k, exact⟩ : ∃ k : ℕ, point = ds.length + k := ⟨point.toNat - ds.length, by omega⟩
  -- The zeros that fill up to the point are digits too.
  have zeros : ∀ c ∈ ds ++ List.replicate k '0', c.isDigit = true := by
    intro c member
    rcases List.mem_append.mp member with digit | zero
    · exact only c digit
    · rw [List.eq_of_mem_replicate zero]
      decide
  rw [show point.toNat - ds.length = k by omega]
  constructor
  · have read := readUnsigned_whole neg [] (List.append_ne_nil_of_left_ne_nil nonempty _)
      zeros nofun rfl
    rw [List.append_nil] at read
    refine ⟨_, read, rfl, ?_⟩
    rw [magnitude, digitsValue_append_zeros, zpow_zero, mul_one, exact, add_sub_cancel_left,
      zpow_natCast]
    push_cast
    rfl
  · have read := readUnsigned_point neg _ ['0'] []
      (List.append_ne_nil_of_left_ne_nil nonempty _) (by simp) zeros
      (List.forall_mem_singleton.mpr (by decide)) nofun rfl
    refine ⟨_, read, rfl, ?_⟩
    rw [magnitude, List.append_assoc, ← List.replicate_succ', digitsValue_append_zeros, exact,
      add_sub_cancel_left, zpow_natCast, pow_succ, List.length_singleton]
    norm_num
    rw [mul_assoc, mul_assoc]
    norm_num

/-- The point stands between the digits. -/
theorem reads_between (low : 0 < point) (high : point.toNat < ds.length) :
    Reads neg (ds.take point.toNat ++ '.' :: ds.drop point.toNat) ds point := by
  have read := readUnsigned_point neg (ds.take point.toNat) (ds.drop point.toNat) []
    (by simp [nonempty]; omega) (by simp; omega)
    (fun c h => only c (List.mem_of_mem_take h)) (fun c h => only c (List.mem_of_mem_drop h))
    nofun rfl
  rw [List.append_nil, List.take_append_drop] at read
  refine ⟨_, read, rfl, ?_⟩
  rw [magnitude, List.length_drop]
  dsimp only
  congr 2
  omega

omit nonempty only in
/-- The exponent suffix without a zero in front. -/
theorem readExponent_digits (e : ℤ) : readExponent
    ('e' :: (if e < 0 then '-' else '+') :: Float64.digits e.natAbs) = some e := by
  have power : readDigits (Float64.digits e.natAbs) = some e.natAbs := by
    rw [readDigits_eq (digits_ne_nil _) (fun c => digits_isDigit), digitsValue_digits]
  exact readExponent_of_readDigits power

/-- The point stands after the first digit, and an exponent follows. -/
theorem reads_power (stops : ∀ c ∈ rest.head?, c.isDigit = false ∧ c ≠ '.')
    (exponent : readExponent rest = some (point - 1)) :
    Reads neg (ds.take 1 ++ (if ds.length ≤ 1 then [] else '.' :: ds.drop 1) ++ rest) ds point := by
  have long := List.length_pos_iff.mpr nonempty
  split_ifs with one
  · have all : ds.take 1 = ds := List.take_of_length_le one
    have read := readUnsigned_whole neg _ nonempty only stops exponent
    rw [all, List.append_nil]
    refine ⟨_, read, rfl, ?_⟩
    rw [magnitude, show (ds.length : ℤ) = 1 by omega]
  · have read := readUnsigned_point neg (ds.take 1) (ds.drop 1) _ (by simp [nonempty])
      (List.ne_nil_of_length_pos (by rw [List.length_drop]; omega))
      (fun c h => only c (List.mem_of_mem_take h)) (fun c h => only c (List.mem_of_mem_drop h))
      (fun c h => (stops c h).1) exponent
    rw [List.take_append_drop] at read
    rw [List.append_assoc, List.cons_append]
    refine ⟨_, read, rfl, ?_⟩
    rw [magnitude, List.length_drop]
    dsimp only
    congr 2
    omega

/-- The text of a float reads as its digits. -/
theorem reads_layout : Reads neg (Float64.layout ds point) ds point := by
  rw [Float64.layout]
  by_cases plain : -4 < point ∧ point ≤ 16
  · rw [if_pos plain]
    split_ifs with small short
    · exact reads_below nonempty only small
    · exact (reads_above nonempty only short).2
    · exact reads_between nonempty only (by omega) (by omega)
  · rw [if_neg plain]
    exact reads_power nonempty only (by simp) (readExponent_power (point - 1))

omit nonempty only in
/-- The text of a float has a point or an exponent. -/
theorem dropWhile_layout : (Float64.layout ds point).dropWhile Char.isDigit ≠ [] := by
  have mark : '.' ∈ Float64.layout ds point ∨ 'e' ∈ Float64.layout ds point := by
    rw [Float64.layout]
    split_ifs <;> simp
  intro digits
  have only := List.dropWhile_eq_nil_iff.mp digits
  rcases mark with point | power
  · exact absurd (only _ point) (by decide)
  · exact absurd (only _ power) (by decide)

theorem reads_ecma : Reads neg (Ecma.layout ds point) ds point := by
  rw [Ecma.layout]
  by_cases plain : -6 < point ∧ point ≤ 21
  · rw [if_pos plain]
    split_ifs with small short
    · exact reads_below nonempty only small
    · exact (reads_above nonempty only short).1
    · exact reads_between nonempty only (by omega) (by omega)
  · rw [if_neg plain]
    exact reads_power nonempty only (by simp) (readExponent_digits (point - 1))

end Digits

theorem read_signed {neg : Bool} {cs : List Char} {d : Decimal}
    (unsigned : readUnsigned neg cs = some d) : read (signed neg cs) = some d := by
  cases neg with
  | true => exact unsigned
  | false =>
    unfold read
    split
    · next same =>
      rw [show cs = '-' :: _ from same] at unsigned
      cases unsigned
    · exact unsigned

/-- Text that reads as a decimal is made of decimal characters. -/
theorem read_chars {cs : List Char} {d : Decimal} (reads : read cs = some d) :
    ∀ c ∈ cs, IsDecimalChar c := by
  -- What is read starts with digits, and only what follows them needs an argument.
  have split {cs : List Char} (rest : ∀ c ∈ cs.dropWhile Char.isDigit, IsDecimalChar c) :
      ∀ c ∈ cs, IsDecimalChar c := by
    intro c member
    rw [← List.takeWhile_append_dropWhile (p := Char.isDigit) (l := cs), List.mem_append] at member
    exact member.elim (fun digit => .inl (List.mem_takeWhile_imp digit)) (rest c)
  have unsigned {neg : Bool} {cs : List Char} (reads : readUnsigned neg cs = some d) :
      ∀ c ∈ cs, IsDecimalChar c := by
    unfold readUnsigned at reads
    refine split ?_
    dsimp only at reads
    split_ifs at reads
    split at reads
    · next rest dropped =>
      rw [dropped]
      split_ifs at reads
      obtain ⟨e, found, -⟩ := Option.map_eq_some_iff.mp reads
      exact List.forall_mem_cons.mpr ⟨.inr (by simp), split (readExponent_chars found)⟩
    · obtain ⟨e, found, -⟩ := Option.map_eq_some_iff.mp reads
      exact readExponent_chars found
  unfold read at reads
  split at reads
  · exact List.forall_mem_cons.mpr ⟨.inr (by simp), unsigned reads⟩
  · exact unsigned reads

/-! ### The shortest decimal of a float -/

/-- The shortest decimal that rounds to the float. -/
def shortest (b : Binary64) : Decimal :=
  if b.mant = 0 then ⟨b.neg, 0, 0⟩
  else ⟨b.neg, digitsValue (decimal b).1, (decimal b).2 - (decimal b).1.length⟩

theorem decimal_digits (b : Binary64) : ∃ n, (decimal b).1 = Float64.digits n := by
  have candidate (round : ℕ → ℕ → ℕ) (num den k : ℕ) :
      ∃ n, (significand round num den k).1 = Float64.digits n := by
    unfold significand
    dsimp only
    split_ifs <;> exact ⟨_, rfl⟩
  rw [Float64.decimal]
  generalize found : List.find? _ _ = d
  cases d with
  | none => exact candidate _ _ _ _
  | some d =>
    obtain ⟨k, -, member⟩ := List.mem_flatMap.mp (List.mem_of_find?_eq_some found)
    obtain ⟨round, -, rfl⟩ := List.mem_map.mp member
    exact candidate round _ _ k

theorem toFloat_shortest (b : Binary64) : (shortest b).toFloat = .finite b := by
  by_cases zero : b.mant = 0
  · rw [b.eq_zero zero]
    rfl
  · have reads := read_repr b
    rw [repr_eq_layout zero] at reads
    obtain ⟨d, here, rounds⟩ := read_of_float reads
    obtain ⟨n, only⟩ := decimal_digits b
    have again : Reads b.neg (layout (decimal b).1 (decimal b).2) (decimal b).1 (decimal b).2 :=
      reads_layout (only ▸ digits_ne_nil n) (only ▸ fun c => digits_isDigit)
    obtain ⟨d', here', sign, size⟩ := again
    obtain rfl := Option.some.inj (here.symm.trans (read_signed here'))
    rw [← rounds]
    rw [shortest, if_neg zero]
    exact toFloat_congr sign.symm size.symm

/-- What JavaScript writes reads as a decimal that rounds to the float. -/
theorem read_ecma {b : Binary64} (nonzero : b.mant ≠ 0) :
    ∃ d, read (signed b.neg (Ecma.layout (decimal b).1 (decimal b).2)) = some d ∧
      d.toFloat = .finite b := by
  obtain ⟨n, only⟩ := decimal_digits b
  have written : Reads b.neg (Ecma.layout (decimal b).1 (decimal b).2)
      (decimal b).1 (decimal b).2 :=
    reads_ecma (only ▸ digits_ne_nil n) (only ▸ fun c => digits_isDigit)
  obtain ⟨d, here, sign, size⟩ := written
  have rounds := toFloat_shortest b
  rw [shortest, if_neg nonzero] at rounds
  exact ⟨d, read_signed here, rounds ▸ toFloat_congr sign size⟩

/-! ### Other decimals of a float -/

/-- A decimal that is nearer to a number than half the gap rounds to it. -/
theorem toFloat_of_near {d : Decimal} {b : Binary64} (nonzero : b.mant ≠ 0) (sign : d.neg = b.neg)
    (below : ((b.mant : ℚ) - 1 / 4) * 2 ^ b.exp < d.magnitude)
    (above : d.magnitude < (b.mant + 1 / 2) * 2 ^ b.exp) : d.toFloat = .finite b := by
  have unit : (0 : ℚ) < 2 ^ b.exp := by positivity
  rw [magnitude_eq] at below above
  rw [toFloat, ofDecimal, sign]
  refine ofRatio_near b nonzero (pow_ne_zero _ (by decide)) (lt_trans ?_ below) (fun _ => below)
    above
  nlinarith

/-- The number itself, or a number above it, in quarters of its unit. -/
def quarters (q : ℕ) (b : Binary64) : Decimal :=
  ⟨b.neg, (4 * b.mant + q) * 2 ^ (b.exp - 2).toNat * 5 ^ (-(b.exp - 2)).toNat,
    -((-(b.exp - 2)).toNat : ℤ)⟩

theorem magnitude_quarters (q : ℕ) (b : Binary64) :
    (quarters q b).magnitude = (b.mant + q / 4) * 2 ^ b.exp := by
  have power : (2 : ℚ) ^ b.exp = 2 ^ (b.exp - 2) * 4 := by
    have := two_zpow_add (b.exp - 2) 2
    rw [Nat.cast_two, sub_add_cancel] at this
    rw [this]
    norm_num
  have ten : (5 : ℚ) ^ (-(b.exp - 2)).toNat * 10 ^ (-((-(b.exp - 2)).toNat : ℤ)) =
      1 / 2 ^ (-(b.exp - 2)).toNat := by
    rw [zpow_neg, zpow_natCast, show (10 : ℚ) = 5 * 2 by norm_num, mul_pow, mul_inv, ← mul_assoc,
      mul_inv_cancel₀ (by positivity), one_mul, one_div]
  rw [magnitude, quarters]
  push_cast
  rw [mul_assoc, ten, mul_assoc, mul_one_div, ← zpow_eq_div, power]
  ring

/-- A quarter of a unit more makes no difference to the float. -/
theorem toFloat_quarters {q : ℕ} (small : q ≤ 1) (b : Binary64) :
    (quarters q b).toFloat = .finite b := by
  by_cases zero : b.mant = 0
  · rw [b.eq_zero zero]
    have table : ∀ neg : Bool, ∀ q ≤ 1, (quarters q ⟨neg, 0, -1074, by decide⟩).toFloat =
        .finite ⟨neg, 0, -1074, by decide⟩ := by decide +kernel
    exact table b.neg q small
  · have unit : (0 : ℚ) < 2 ^ b.exp := by positivity
    have small' : (q : ℚ) ≤ 1 := by exact_mod_cast small
    have least : (0 : ℚ) ≤ q := Nat.cast_nonneg q
    refine toFloat_of_near zero rfl ?_ ?_ <;> rw [magnitude_quarters] <;> nlinarith

/-- The two are not one number. -/
theorem value_quarters_ne (b : Binary64) : (quarters 0 b).value ≠ (quarters 1 b).value := by
  have unit : (0 : ℚ) < 2 ^ b.exp := by positivity
  rw [value, value, magnitude_quarters, magnitude_quarters]
  change (if b.neg then (-1 : ℚ) else 1) * _ ≠ (if b.neg then (-1 : ℚ) else 1) * _
  have sign : (if b.neg then (-1 : ℚ) else 1) ≠ 0 := by split_ifs <;> norm_num
  intro same
  have sizes := mul_left_cancel₀ sign same
  push_cast at sizes
  nlinarith

end Decimal

end Foundation
