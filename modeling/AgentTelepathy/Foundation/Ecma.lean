import AgentTelepathy.Foundation.Comparison
import AgentTelepathy.Foundation.JsonRoundTrip

/-!
# JSON values in JavaScript

JavaScript has one type of numbers, the binary64 values, and its strings are
sequences of UTF-16 code units, by which they are compared. Reading JSON rounds
every number to a double; writing it lays out the same shortest digits as Python,
but with other bounds for the exponent and without a fraction that is zero. The
stable text of a value has its keys in the order of their code units.

Two values are the same JSON value if their numbers have the same values and their
objects the same members. Values that are the same have the same text.
-/

namespace Foundation

/-! ### Numbers -/

namespace Float64

theorem ofRat_intCast (n : ℤ) : ofRat n = ofInt n := by
  simp [ofRat, ofInt]

theorem number_finite (b : Binary64) :
    number (.finite b) = .rat ((if b.neg then -1 else 1) * (b.mant * 2 ^ b.exp)) := by
  rw [number, zpow_eq_div, ← mul_div_assoc, ← mul_div_assoc, ← mul_assoc]

/-- A float that is not zero is the only one of its value. -/
theorem ofRat_of_number {f : Float64} {q : ℚ} (value : f.number = .rat q) (nonzero : q ≠ 0) :
    ofRat q = f := by
  cases f with
  | infinite neg => cases value
  | nan => cases value
  | finite b =>
    have size := (Number.rat.inj ((number_finite b).symm.trans value)).symm
    have hmant : b.mant ≠ 0 := by
      intro zero
      rw [zero, Nat.cast_zero, zero_mul, mul_zero] at size
      exact nonzero size
    have positive : (0 : ℚ) < b.mant * 2 ^ b.exp := by positivity
    have sign : decide (q < 0) = b.neg := by
      cases neg : b.neg <;> simp [size, neg, positive, positive.le]
    have ratio : (q.num.natAbs : ℚ) / q.den = b.mant * 2 ^ b.exp := by
      have absolute : (q.num.natAbs : ℚ) / q.den = |q| := by
        rw [Nat.cast_natAbs, Int.cast_abs, ← Nat.abs_cast q.den, ← abs_div, Rat.num_div_den]
      rw [absolute, size, abs_mul, abs_of_pos positive]
      cases b.neg <;> simp
    have unit : (0 : ℚ) < 2 ^ b.exp := by positivity
    rw [ofRat, sign]
    refine ofRatio_near b hmant q.den_nz ?_ (fun _ => ?_) ?_ <;> rw [ratio] <;> nlinarith

/-- Whether an integer is a double. -/
def IsDouble (n : ℤ) : Prop := (ofInt n).number = .rat n

instance (n : ℤ) : Decidable (IsDouble n) := inferInstanceAs (Decidable (_ = _))

theorem isDouble_of_number {f : Float64} {n : ℤ} (value : f.number = .rat n) : IsDouble n := by
  by_cases zero : n = 0
  · subst zero
    simp [IsDouble, ofInt, ofRatio, Float64.zero, number]
  · rw [IsDouble, ← ofRat_intCast, ofRat_of_number value (Int.cast_ne_zero.mpr zero), value]

/-- The integers up to `2 ^ 53` are doubles. -/
theorem isDouble_of_natAbs_le {n : ℤ} (bound : n.natAbs ≤ 2 ^ 53) : IsDouble n := by
  have signed : (if decide (n < 0) then -1 else 1) * (n.natAbs : ℚ) = n := by
    rw [Nat.cast_natAbs]
    rcases lt_or_ge n 0 with below | above
    · simp [below, abs_of_neg below]
    · simp [not_lt.mpr above, abs_of_nonneg above]
  rcases eq_or_lt_of_le bound with top | below
  · -- The next power of two has one more exponent.
    refine isDouble_of_number (f := .finite ⟨decide (n < 0), 2 ^ 52, 1, .inr (by decide)⟩) ?_
    rw [number, ← signed, top]
    simp only [Int.toNat_one, show (-(1 : ℤ)).toNat = 0 by rfl]
    norm_num
  · by_cases zero : n = 0
    · -- Zero alone has no leading bit.
      subst zero
      exact isDouble_of_number (f := Float64.zero false) (by simp [Float64.zero, number])
    · -- The significand is shifted until its leading bit stands in front.
      have nonzero : n.natAbs ≠ 0 := Int.natAbs_ne_zero.mpr zero
      have low := Nat.log2_self_le nonzero
      have high := Nat.lt_log2_self (n := n.natAbs)
      have log : n.natAbs.log2 ≤ 52 := Nat.lt_succ_iff.mp ((Nat.log2_lt nonzero).mpr below)
      obtain ⟨k, sum⟩ := Nat.exists_eq_add_of_le log
      have shift : 2 ^ k * 2 ^ n.natAbs.log2 = 2 ^ 52 := by rw [← pow_add, sum, Nat.add_comm]
      have normal : Binary64.Normal (n.natAbs * 2 ^ k) (-k) := by
        refine .inr ⟨?_, ?_, by omega, by omega⟩
        · rw [← shift, Nat.mul_comm]
          exact Nat.mul_le_mul_right _ low
        · have double : 2 ^ 53 = 2 ^ (n.natAbs.log2 + 1) * 2 ^ k := by
            rw [pow_succ 2 52, ← shift]
            ring
          rw [double]
          exact Nat.mul_lt_mul_of_pos_right high (by positivity)
      refine isDouble_of_number (f := .finite ⟨decide (n < 0), _, _, normal⟩) ?_
      rw [number, neg_neg, Int.toNat_natCast, Int.toNat_neg_natCast]
      push_cast
      rw [← mul_assoc, signed]
      simp

/-- The digits of `num / den` cut to `n` significant ones by `round`, and their point. -/
def significand (round : ℕ → ℕ → ℕ) (num den n : ℕ) : List Char × ℤ :=
  let p := floorLog10 num den
  let scale := p - n + 1
  let d := round (num * 10 ^ (-scale).toNat) (den * 10 ^ scale.toNat)
  if d = 10 ^ n then (digits (10 ^ (n - 1)), p + 2) else (digits d, p + 1)

/-- The shortest digits that read back as the number, and their point. -/
def decimal (b : Binary64) : List Char × ℤ :=
  let num := b.mant * 2 ^ b.exp.toNat
  let den := 2 ^ (-b.exp).toNat
  let candidates := (List.range' 1 17).flatMap fun n =>
    [roundHalfEven, roundUp].map fun round => significand round num den n
  let reads (d : List Char × ℤ) : Bool := read (signed b.neg (layout d.1 d.2)) = some (.finite b)
  (candidates.find? reads).getD (significand roundHalfEven num den 17)

theorem significant_eq (round : ℕ → ℕ → ℕ) (num den n : ℕ) :
    significant round num den n =
      layout (significand round num den n).1 (significand round num den n).2 := by
  unfold significant significand
  dsimp only
  split_ifs <;> rfl

/-- The digits are those of the Python text. -/
theorem repr_eq_layout {b : Binary64} (nonzero : b.mant ≠ 0) :
    repr (.finite b) = signed b.neg (layout (decimal b).1 (decimal b).2) := by
  have texts : candidates b = ((List.range' 1 17).flatMap fun n =>
      [roundHalfEven, roundUp].map fun round =>
        significand round (b.mant * 2 ^ b.exp.toNat) (2 ^ (-b.exp).toNat) n).map
          fun d => signed b.neg (layout d.1 d.2) := by
    rw [candidates, if_neg nonzero]
    simp [List.map_flatMap, significant_eq]
  have found := isSome_shortest b
  rw [shortest, texts, List.find?_map] at found
  rw [repr, shortest, texts, List.find?_map, decimal]
  obtain ⟨d, here⟩ := Option.isSome_iff_exists.mp (Option.isSome_map ▸ found)
  simp only [Function.comp_def] at here ⊢
  rw [here]
  rfl

end Float64

namespace Ecma

open Float64

/-- `x + 1`. -/
def addOne (x : Float64) : Float64 :=
  match x.number with
  | .rat q => ofRat (q + 1)
  | .infinite neg => .infinite neg
  | .nan => .nan

/-- `Math.max(x, y)`, for which zero is above minus zero. -/
def max (x y : Float64) : Float64 :=
  if x = .nan ∨ y = .nan then .nan
  -- The two zeros are equal, and yet one is the greater.
  else if x.number.lt y.number = true ∨ x = Float64.zero true ∧ y = Float64.zero false then y
  else x

theorem number_addOne {x : Float64} {n : ℤ} (value : x.number = .rat n) :
    (addOne x).number = (ofInt (n + 1)).number := by
  rw [addOne, value, ← ofRat_intCast]
  push_cast
  rfl

theorem number_max {x y : Float64} {m n : ℤ} (left : x.number = .rat m)
    (right : y.number = .rat n) : (max x y).number = .rat (Max.max m n : ℤ) := by
  have zeros (neg : Bool) : (Float64.zero neg).number = .rat 0 := by simp [Float64.zero, number]
  have order : x.number.lt y.number = decide (m < n) := by simp [left, right, Number.lt]
  unfold max
  rw [if_neg (by rintro (rfl | rfl) <;> simp [number] at left right), order]
  split_ifs with above
  · rw [right]
    rcases above with less | ⟨rfl, rfl⟩
    · rw [max_eq_right (of_decide_eq_true less).le]
    · rw [zeros] at left right
      have same : m = n := by exact_mod_cast Number.rat.inj (left.symm.trans right)
      rw [same, max_self]
  · rw [left, max_eq_left (not_lt.mp fun less => above (.inl (decide_eq_true less)))]

/-- Lay out digits whose decimal point stands after the first `point` of them. -/
def layout (ds : List Char) (point : ℤ) : List Char :=
  if -6 < point ∧ point ≤ 21 then
    -- A whole number has no point, where Python writes `.0`.
    if point ≤ 0 then '0' :: '.' :: (List.replicate (-point).toNat '0' ++ ds)
    else if ds.length ≤ point.toNat then ds ++ List.replicate (point.toNat - ds.length) '0'
    else ds.take point.toNat ++ '.' :: ds.drop point.toNat
  else
    let frac := if ds.length ≤ 1 then [] else '.' :: ds.drop 1
    let sign := if point - 1 < 0 then '-' else '+'
    ds.take 1 ++ frac ++ 'e' :: sign :: digits (point - 1).natAbs

/-- The text of a number in JSON. -/
def numberText : Float64 → List Char
  | .finite b =>
    if b.mant = 0 then ['0'] else signed b.neg (layout (decimal b).1 (decimal b).2)
  | _ => ['n', 'u', 'l', 'l']

example : numberText (ofRatio false 1 10) = ['0', '.', '1'] := by decide +kernel
example : numberText (ofInt (10 ^ 16)) = '1' :: List.replicate 16 '0' := by decide +kernel
example : numberText (ofRatio false 1 (10 ^ 7)) = ['1', 'e', '-', '7'] := by decide +kernel

/-- The text depends on the value alone. -/
theorem numberText_congr {x y : Float64} {q : ℚ} (left : x.number = .rat q)
    (right : y.number = .rat q) : numberText x = numberText y := by
  by_cases zero : q = 0
  · have text {z : Float64} (value : z.number = .rat q) : numberText z = ['0'] := by
      cases z with
      | finite b =>
        have size := (Number.rat.inj ((number_finite b).symm.trans value)).trans zero
        have mant : b.mant = 0 := by
          cases neg : b.neg <;> simpa [neg, zpow_ne_zero] using size
        rw [numberText, if_pos mant]
      | infinite neg => cases value
      | nan => cases value
    rw [text left, text right]
  · rw [← ofRat_of_number left zero, ofRat_of_number right zero]

/-! ### Strings -/

/-- The code units of a character, a surrogate pair beyond the first plane. -/
def charUnits (c : Char) : List ℕ :=
  if c.toNat < 0x10000 then [c.toNat]
  else [0xD800 + (c.toNat - 0x10000) / 0x400, 0xDC00 + (c.toNat - 0x10000) % 0x400]

/-- The code units of a string, in whose order strings are compared. -/
def units (s : String) : List ℕ := s.toList.flatMap charUnits

theorem charUnits_cancel {c d : Char} {a b : List ℕ} (h : charUnits c ++ a = charUnits d ++ b) :
    c = d ∧ a = b := by
  have first := JsonText.toNat_scalar c
  have second := JsonText.toNat_scalar d
  have equal (same : c.toNat = d.toNat) : c = d := Char.toNat_inj.mp same
  unfold charUnits at h
  -- No first half of a pair is a unit of its own.
  split_ifs at h <;> simp only [List.cons_append, List.nil_append, List.cons.injEq] at h
  · exact ⟨equal h.1, h.2⟩
  · omega
  · omega
  · exact ⟨equal (by omega), h.2.2⟩

theorem units_injective : Function.Injective units := by
  have chars : ∀ l m : List Char, l.flatMap charUnits = m.flatMap charUnits → l = m := by
    have nonempty (c : Char) (l : List ℕ) : charUnits c ++ l ≠ [] := by
      unfold charUnits
      split_ifs <;> simp
    intro l
    induction l with
    | nil =>
      rintro (_ | ⟨d, m⟩) h
      · rfl
      · exact absurd h.symm (nonempty d _)
    | cons c l ih =>
      rintro (_ | ⟨d, m⟩) h
      · exact absurd h (nonempty c _)
      · obtain ⟨rfl, rest⟩ := charUnits_cancel h
        rw [ih m rest]
  intro s t h
  exact String.toList_injective (chars _ _ h)

end Ecma

/-! ### Numbers in JSON -/

/-- A number as JSON readers return it: an integer or a float. -/
abbrev Numeral := ℤ ⊕ Float64

namespace Numeral

/-- The number as a JSON value. -/
def toJson : Numeral → Json := Sum.elim .int .float

/-- The number as an integer if it is one. -/
def integral : Numeral → Numeral
  | .inl n => .inl n
  | .inr x =>
    match x.number with
    | .rat q => if q.den = 1 then .inl q.num else .inr x
    | _ => .inr x

/-- The nearest double. -/
def double : Numeral → Numeral
  | .inl n => .inr (Float64.ofInt n)
  | .inr x => .inr x

@[simp] theorem double_double (x : Numeral) : double (double x) = double x := by cases x <;> rfl

/-- What `integral` yields: an integer of the same value, or the number itself. -/
theorem integral_inr (x : Float64) :
    (∃ n : ℤ, integral (.inr x) = .inl n ∧ x.number = .rat n) ∨ integral (.inr x) = .inr x := by
  rw [integral]
  cases value : x.number with
  | rat q =>
    dsimp only
    split_ifs with whole
    · exact .inl ⟨q.num, rfl, by rw [Rat.coe_int_num_of_den_eq_one whole]⟩
    · exact .inr rfl
  | infinite neg => exact .inr rfl
  | nan => exact .inr rfl

theorem integral_inr_of_number {x : Float64} {n : ℤ} (value : x.number = .rat n) :
    integral (.inr x) = .inl n := by
  simp [integral, value]

theorem integral_double_integral (x : Numeral) :
    integral (double (integral x)) = integral (double x) := by
  cases x with
  | inl n => rfl
  | inr x =>
    rcases integral_inr x with ⟨n, whole, value⟩ | same
    · -- A float that is an integer is the double of that integer.
      rw [whole, double, double, integral_inr_of_number (Float64.isDouble_of_number value), whole]
    · rw [same]

end Numeral

namespace Json

mutual

/-- Change every number. -/
def mapNumbers (f : Numeral → Numeral) : Json → Json
  | .null => .null
  | .bool b => .bool b
  | .int n => (f (.inl n)).toJson
  | .float x => (f (.inr x)).toJson
  | .str s => .str s
  | .arr l => .arr (mapItems f l)
  | .obj l => .obj (mapMembers f l)

/-- Change the numbers inside every item. -/
def mapItems (f : Numeral → Numeral) : List Json → List Json
  | [] => []
  | v :: l => mapNumbers f v :: mapItems f l

/-- Change the numbers inside every member's value. -/
def mapMembers (f : Numeral → Numeral) : List (String × Json) → List (String × Json)
  | [] => []
  | (k, v) :: l => (k, mapNumbers f v) :: mapMembers f l

end

variable {f g : Numeral → Numeral}

theorem mapMembers_eq_map (l : List (String × Json)) :
    mapMembers f l = l.map fun p => (p.1, mapNumbers f p.2) := by
  induction l with
  | nil => rfl
  | cons p l ih => rw [mapMembers, ih, List.map_cons]

@[simp] theorem mapNumbers_toJson (x : Numeral) : mapNumbers f x.toJson = (f x).toJson := by
  cases x <;> rfl

mutual

theorem mapNumbers_mapNumbers : ∀ v : Json, mapNumbers f (mapNumbers g v) = mapNumbers (f ∘ g) v
  | .null | .bool _ | .str _ => rfl
  | .int n => mapNumbers_toJson (g (.inl n))
  | .float x => mapNumbers_toJson (g (.inr x))
  | .arr l => congrArg Json.arr (mapItems_mapItems l)
  | .obj l => congrArg Json.obj (mapMembers_mapMembers l)

theorem mapItems_mapItems : ∀ l : List Json, mapItems f (mapItems g l) = mapItems (f ∘ g) l
  | [] => rfl
  | v :: l => by rw [mapItems, mapItems, mapItems, mapNumbers_mapNumbers v, mapItems_mapItems l]

theorem mapMembers_mapMembers :
    ∀ l : List (String × Json), mapMembers f (mapMembers g l) = mapMembers (f ∘ g) l
  | [] => rfl
  | (k, v) :: l => by
    rw [mapMembers, mapMembers, mapMembers, mapNumbers_mapNumbers v, mapMembers_mapMembers l]

end

@[simp] theorem sortKeys_toJson (x : Numeral) : sortKeys x.toJson = x.toJson := by cases x <;> rfl

mutual

theorem sortKeys_mapNumbers : ∀ v : Json, sortKeys (mapNumbers f v) = mapNumbers f (sortKeys v)
  | .null | .bool _ | .str _ => rfl
  | .int n => sortKeys_toJson (f (.inl n))
  | .float x => sortKeys_toJson (f (.inr x))
  | .arr l => congrArg Json.arr (sortItems_mapItems l)
  | .obj l => by
    rw [mapNumbers, sortKeys, sortMembers_mapMembers l, mapMembers_eq_map, sortByKey_map,
      ← mapMembers_eq_map]
    rfl

theorem sortItems_mapItems : ∀ l : List Json, sortItems (mapItems f l) = mapItems f (sortItems l)
  | [] => rfl
  | v :: l => by
    rw [mapItems, sortItems, sortItems, mapItems, sortKeys_mapNumbers v, sortItems_mapItems l]

theorem sortMembers_mapMembers :
    ∀ l : List (String × Json), sortMembers (mapMembers f l) = mapMembers f (sortMembers l)
  | [] => rfl
  | (k, v) :: l => by
    rw [mapMembers, sortMembers, sortMembers, mapMembers, sortKeys_mapNumbers v,
      sortMembers_mapMembers l]

end

theorem distinct_toJson (x : Numeral) : x.toJson.Distinct := by cases x <;> trivial

mutual

theorem distinct_mapNumbers : ∀ v : Json, v.Distinct → (mapNumbers f v).Distinct
  | .null, h | .bool _, h | .str _, h => h
  | .int n, _ => distinct_toJson (f (.inl n))
  | .float x, _ => distinct_toJson (f (.inr x))
  | .arr l, h => distinctItems_mapItems l h
  | .obj l, h => by
    refine ⟨?_, distinctMembers_mapMembers l h.2⟩
    simpa [mapMembers_eq_map, Function.comp_def] using h.1

theorem distinctItems_mapItems : ∀ l : List Json, DistinctItems l → DistinctItems (mapItems f l)
  | [], h => h
  | v :: l, h => ⟨distinct_mapNumbers v h.1, distinctItems_mapItems l h.2⟩

theorem distinctMembers_mapMembers :
    ∀ l : List (String × Json), DistinctMembers l → DistinctMembers (mapMembers f l)
  | [], h => h
  | (_, v) :: l, h => ⟨distinct_mapNumbers v h.1, distinctMembers_mapMembers l h.2⟩

end

/-- Every number that is an integer as an integer. -/
def normalize (v : Json) : Json := mapNumbers Numeral.integral v

/-- Every number as the nearest double, as JavaScript reads it. -/
def toDoubles (v : Json) : Json := mapNumbers Numeral.double v

/-- Two values are one JSON value: their numbers are equal, whatever their types, and
their objects have the same members, in whatever order. -/
def SameValue (v w : Json) : Prop := Same v.normalize w.normalize

instance (v w : Json) : Decidable (SameValue v w) := inferInstanceAs (Decidable (Same _ _))

variable {u v w : Json}

@[refl] theorem SameValue.refl (v : Json) : SameValue v v := Same.refl _

theorem SameValue.symm (same : SameValue v w) : SameValue w v := Same.symm same

theorem SameValue.trans (first : SameValue u v) (second : SameValue v w) : SameValue u w :=
  Eq.trans first second

theorem toDoubles_toDoubles (v : Json) : v.toDoubles.toDoubles = v.toDoubles := by
  rw [toDoubles, toDoubles, mapNumbers_mapNumbers]
  exact congrArg (mapNumbers · v) (funext Numeral.double_double)

theorem SameValue.toDoubles (same : SameValue v w) : SameValue v.toDoubles w.toDoubles := by
  have through (u : Json) : u.toDoubles.normalize =
      mapNumbers (Numeral.integral ∘ Numeral.double) u.normalize := by
    rw [normalize, normalize, Json.toDoubles, mapNumbers_mapNumbers, mapNumbers_mapNumbers]
    exact congrArg (mapNumbers · u) (funext fun x => (Numeral.integral_double_integral x).symm)
  rw [SameValue, Same, through, through, sortKeys_mapNumbers, sortKeys_mapNumbers]
  exact congrArg _ same

theorem sameValue_float_iff {n : ℤ} {x : Float64} :
    SameValue (.int n) (.float x) ↔ x.number = .rat n := by
  have sorted : SameValue (.int n) (.float x) ↔ Numeral.integral (.inr x) = .inl n := by
    rw [SameValue, Same, normalize, normalize, mapNumbers, mapNumbers, sortKeys_toJson,
      sortKeys_toJson]
    cases Numeral.integral (.inr x) <;> simp [Numeral.toJson, Numeral.integral, eq_comm]
  rw [sorted]
  refine ⟨fun whole => ?_, Numeral.integral_inr_of_number⟩
  rcases Numeral.integral_inr x with ⟨m, integer, value⟩ | same
  · obtain rfl := Sum.inl.inj (integer.symm.trans whole)
    exact value
  · cases same.symm.trans whole

theorem sameValue_str_iff {s t : String} : SameValue (.str s) (.str t) ↔ s = t :=
  ⟨Json.str.inj, congrArg Json.str⟩

/-- One JSON object has one set of members. -/
theorem SameValue.exists_member {l m : List (String × Json)} (same : SameValue (.obj l) (.obj m))
    {key : String} (member : (key, v) ∈ l) : ∃ w, (key, w) ∈ m ∧ SameValue v w := by
  have sorted : sortByKey (sortMembers (mapMembers Numeral.integral l)) =
      sortByKey (sortMembers (mapMembers Numeral.integral m)) := Json.obj.inj same
  have perm : (sortMembers (mapMembers Numeral.integral l)).Perm
      (sortMembers (mapMembers Numeral.integral m)) := by
    refine (perm_sortByKey _).symm.trans ?_
    rw [sorted]
    exact perm_sortByKey _
  have here : (key, v.normalize.sortKeys) ∈ sortMembers (mapMembers Numeral.integral l) := by
    rw [sortMembers_eq_map, mapMembers_eq_map, List.map_map]
    exact List.mem_map.mpr ⟨_, member, rfl⟩
  have there := perm.mem_iff.mp here
  rw [sortMembers_eq_map, mapMembers_eq_map, List.map_map] at there
  obtain ⟨⟨k, w⟩, found, equal⟩ := List.mem_map.mp there
  obtain ⟨rfl, values⟩ := Prod.mk.inj equal
  exact ⟨w, found, values.symm⟩

theorem sameValue_obj_of_members {l m : List (String × Json)} (hl : (l.map Prod.fst).Nodup)
    (hm : (m.map Prod.fst).Nodup)
    (forth : ∀ k v, (k, v) ∈ l → ∃ w, (k, w) ∈ m ∧ SameValue v w)
    (back : ∀ k w, (k, w) ∈ m → ∃ v, (k, v) ∈ l ∧ SameValue v w) :
    SameValue (.obj l) (.obj m) := by
  have keys (l : List (String × Json)) : (mapMembers Numeral.integral l).map Prod.fst =
      l.map Prod.fst := by simp [mapMembers_eq_map, Function.comp_def]
  refine same_obj_of_members (by rwa [keys]) (by rwa [keys]) ?_ ?_
  · intro k v member
    rw [mapMembers_eq_map] at member ⊢
    obtain ⟨⟨j, x⟩, found, equal⟩ := List.mem_map.mp member
    obtain ⟨rfl, rfl⟩ := Prod.mk.inj equal
    obtain ⟨w, there, same⟩ := forth j x found
    exact ⟨_, List.mem_map.mpr ⟨_, there, rfl⟩, same⟩
  · intro k w member
    rw [mapMembers_eq_map] at member ⊢
    obtain ⟨⟨j, x⟩, found, equal⟩ := List.mem_map.mp member
    obtain ⟨rfl, rfl⟩ := Prod.mk.inj equal
    obtain ⟨v, there, same⟩ := back j x found
    exact ⟨_, List.mem_map.mpr ⟨_, there, rfl⟩, same⟩

end Json

namespace Ecma

open Json JsonText

/-! ### Text -/

/-- Members in the order of the code units of their keys. -/
def sortByUnits (members : List (String × List Char)) : List (String × List Char) :=
  members.insertionSort fun p q => units p.1 ≤ units q.1

mutual

/-- The stable text of a value. -/
def text : Json → List Char
  | .null => ['n', 'u', 'l', 'l']
  | .bool true => ['t', 'r', 'u', 'e']
  | .bool false => ['f', 'a', 'l', 's', 'e']
  | .int n => numberText (Float64.ofInt n)
  | .float x => numberText x
  | .str s => quote compactStyle s
  | .arr l => '[' :: ([','].intercalate (textItems l) ++ [']'])
  | .obj l =>
    let members := (sortByUnits (textMembers l)).map fun p => quote compactStyle p.1 ++ ':' :: p.2
    '{' :: ([','].intercalate members ++ ['}'])

/-- The text of every item. -/
def textItems : List Json → List (List Char)
  | [] => []
  | v :: l => text v :: textItems l

/-- The text of every member's value. -/
def textMembers : List (String × Json) → List (String × List Char)
  | [] => []
  | (k, v) :: l => (k, text v) :: textMembers l

end

theorem textMembers_eq_map (l : List (String × Json)) :
    textMembers l = l.map fun p => (p.1, text p.2) := by
  induction l with
  | nil => rfl
  | cons p l ih => rw [textMembers, ih, List.map_cons]

theorem sortByUnits_eq {l m : List (String × List Char)} (nodup : (l.map Prod.fst).Nodup)
    (perm : l.Perm m) : sortByUnits l = sortByUnits m := by
  have sorted (l : List (String × List Char)) :
      (sortByUnits l).Pairwise fun p q => units p.1 ≤ units q.1 := by
    have : IsTrans (String × List Char) fun p q => units p.1 ≤ units q.1 :=
      ⟨fun _ _ _ => le_trans⟩
    have : Std.Total fun p q : String × List Char => units p.1 ≤ units q.1 :=
      ⟨fun _ _ => le_total _ _⟩
    exact List.pairwise_insertionSort _ _
  have permuted (l : List (String × List Char)) : (sortByUnits l).Perm l :=
    List.perm_insertionSort _ _
  refine List.Perm.eq_of_pairwise ?_ (sorted l) (sorted m)
    ((permuted l).trans (perm.trans (permuted m).symm))
  -- Keys with the same units are one key, and a key has one member.
  rintro ⟨j, v⟩ ⟨k, w⟩ hv hw below above
  obtain rfl : j = k := units_injective (le_antisymm below above)
  rw [(permuted _).mem_iff] at hv hw
  exact List.inj_on_of_nodup_map nodup hv (perm.mem_iff.mpr hw) rfl

mutual

theorem text_mapNumbers {f : Numeral → Numeral} (kept : ∀ x, text (f x).toJson = text x.toJson) :
    ∀ v : Json, text (mapNumbers f v) = text v
  | .null | .bool _ | .str _ => rfl
  | .int n => kept (.inl n)
  | .float x => kept (.inr x)
  | .arr l => by rw [mapNumbers, text, text, textItems_mapItems kept l]
  | .obj l => by rw [mapNumbers, text, text, textMembers_mapMembers kept l]

theorem textItems_mapItems {f : Numeral → Numeral} (kept : ∀ x, text (f x).toJson = text x.toJson) :
    ∀ l : List Json, textItems (mapItems f l) = textItems l
  | [] => rfl
  | v :: l => by
    rw [mapItems, textItems, textItems, text_mapNumbers kept v, textItems_mapItems kept l]

theorem textMembers_mapMembers {f : Numeral → Numeral}
    (kept : ∀ x, text (f x).toJson = text x.toJson) :
    ∀ l : List (String × Json), textMembers (mapMembers f l) = textMembers l
  | [] => rfl
  | (k, v) :: l => by
    rw [mapMembers, textMembers, textMembers, text_mapNumbers kept v, textMembers_mapMembers kept l]

end

mutual

theorem text_sortKeys : ∀ v : Json, v.Distinct → text v.sortKeys = text v
  | .null, _ | .bool _, _ | .int _, _ | .float _, _ | .str _, _ => rfl
  | .arr l, h => by rw [sortKeys, text, text, textItems_sortItems l h]
  | .obj l, h => by
    have perm : (textMembers (sortByKey (sortMembers l))).Perm (textMembers l) := by
      rw [← textMembers_sortMembers l h.2, textMembers_eq_map, textMembers_eq_map]
      exact (perm_sortByKey _).map _
    have nodup : ((textMembers l).map Prod.fst).Nodup := by
      simpa [textMembers_eq_map, Function.comp_def] using h.1
    rw [sortKeys, text, text, sortByUnits_eq nodup perm.symm]

theorem textItems_sortItems :
    ∀ l : List Json, DistinctItems l → textItems (sortItems l) = textItems l
  | [], _ => rfl
  | v :: l, h => by
    rw [sortItems, textItems, textItems, text_sortKeys v h.1, textItems_sortItems l h.2]

theorem textMembers_sortMembers :
    ∀ l : List (String × Json), DistinctMembers l → textMembers (sortMembers l) = textMembers l
  | [], _ => rfl
  | (k, v) :: l, h => by
    rw [sortMembers, textMembers, textMembers, text_sortKeys v h.1, textMembers_sortMembers l h.2]

end

/-- One JSON value has one text. -/
theorem text_congr {v w : Json} (same : SameValue v w) (left : v.Distinct) (right : w.Distinct) :
    text v = text w := by
  have number : ∀ x : Numeral, text (Numeral.integral x).toJson = text x.toJson := by
    rintro (n | x)
    · rfl
    · rcases Numeral.integral_inr x with ⟨n, whole, value⟩ | same
      · rw [whole]
        exact numberText_congr (Float64.isDouble_of_number value) value
      · rw [same]
  have sorted {u : Json} (distinct : u.Distinct) : text u.normalize.sortKeys = text u := by
    rw [text_sortKeys u.normalize (distinct_mapNumbers u distinct)]
    exact text_mapNumbers number u
  rw [← sorted left, ← sorted right]
  exact congrArg text same

/-- What JavaScript keeps of a JSON value: all its numbers are doubles. -/
structure Value where
  json : Json
  doubles : json.toDoubles = json

/-- `JSON.parse`, on the value that the text is of. -/
def Value.parse (v : Json) : Value := ⟨v.toDoubles, toDoubles_toDoubles v⟩

/-- The stable text of a value as a string. -/
def stringify (v : Value) : String := String.ofList (text v.json)

/-! ### Objects -/

/-- The names on `Object.prototype`. -/
def objectPrototype : List String :=
  ["__proto__", "constructor", "hasOwnProperty", "isPrototypeOf", "propertyIsEnumerable",
    "toLocaleString", "toString", "valueOf", "__defineGetter__", "__defineSetter__",
    "__lookupGetter__", "__lookupSetter__"]

/-- A key that is an array index. -/
def index? (key : String) : Option ℕ :=
  (Float64.readDigits key.toList).filter fun n => n < 2 ^ 32 - 1 ∧ Float64.digits n = key.toList

/-- The members of an object as they are enumerated: array indices ascending, then
the others in the order in which they were added. -/
def entries {α : Type*} (members : List (String × α)) : List (String × α) :=
  (members.filter fun p => (index? p.1).isSome).insertionSort
      (fun p q => (index? p.1).getD 0 ≤ (index? q.1).getD 0) ++
    members.filter fun p => !(index? p.1).isSome

theorem perm_entries {α : Type*} (members : List (String × α)) : (entries members).Perm members :=
  ((List.perm_insertionSort _ _).append_right _).trans (List.filter_append_perm _ members)

theorem entries_map {α β : Type*} (f : α → β) (members : List (String × α)) :
    entries (members.map fun p => (p.1, f p.2)) = (entries members).map fun p => (p.1, f p.2) := by
  let below : String × α → String × α → Prop := fun p q => (index? p.1).getD 0 ≤ (index? q.1).getD 0
  let below' : String × β → String × β → Prop := fun p q => (index? p.1).getD 0 ≤
    (index? q.1).getD 0
  rw [entries, entries, List.map_append, List.filter_map, List.filter_map]
  exact congrArg (· ++ _)
    (List.map_insertionSort below below' (fun p => (p.1, f p.2)) _ fun _ _ _ _ => Iff.rfl).symm

end Ecma

end Foundation
