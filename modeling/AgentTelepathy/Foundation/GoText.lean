import AgentTelepathy.Foundation.GoValue
import AgentTelepathy.Foundation.NumberText
import AgentTelepathy.Foundation.Rows

/-!
# Go documents read by others

The canonical text that Go writes for a document and what another reader makes of the
document itself. The document has the exact digits of integers, the canonical text those
of the nearest `float64`. Python reads the number that is in the document, and writes it
as Go does exactly if both write it alike and it is not a negative zero, which Python
takes for an integer without sign.
-/

namespace Foundation

namespace GoJson

open Float64 JsonText

/-! ### Numbers in a document -/

/-- The text of a number in a document. -/
def literal (d : Decimal) : List Char :=
  signed d.neg
    (if d.digits = 0 ∨ d.scale = 0 then Float64.digits d.digits
      else Ecma.layout (Float64.digits d.digits) (d.scale + (Float64.digits d.digits).length))

/-- The text of a number once it was read from the document. -/
def numberOf (d : Decimal) : List Char :=
  numberText ((parseFloat d).getD ⟨false, 0, -1074, Binary64.normal_zero⟩)

/-- The number is a zero with a minus sign. -/
def NegativeZero (d : Decimal) : Prop := d.neg = true ∧ d.digits = 0

instance (d : Decimal) : Decidable (NegativeZero d) := inferInstanceAs (Decidable (_ ∧ _))

/-- What Python reads from the text of a number in a document. -/
theorem ofText_literal (d : Decimal) :
    Numeral.ofText (literal d) = .inl (Numeral.signedInt d.neg (d.digits * 10 ^ d.scale.toNat)) ∧
        (d.digits = 0 ∨ 0 ≤ d.scale) ∨
      Numeral.ofText (literal d) = .inr d.toFloat ∧ d.digits ≠ 0 := by
  obtain ⟨neg, n, scale⟩ := d
  rcases eq_or_ne n 0 with rfl | nonzero
  · left
    rw [literal, if_pos (.inl rfl), Numeral.ofText_digits, Nat.zero_mul]
    exact ⟨rfl, .inl rfl⟩
  · rcases eq_or_ne scale 0 with rfl | moved
    · left
      rw [literal, if_pos (.inr rfl), Numeral.ofText_digits, Int.toNat_zero, pow_zero, mul_one]
      exact ⟨rfl, .inr le_rfl⟩
    · rw [literal, if_neg (by simp [nonzero, moved]),
        Numeral.ofText_ecma (Nat.pos_of_ne_zero nonzero)]
      dsimp only
      rw [add_sub_cancel_right]
      split_ifs with plain
      · exact .inl ⟨rfl, .inr (by omega)⟩
      · exact .inr ⟨rfl, nonzero⟩

theorem numberOf_finite {d : Decimal} {b : Binary64} (rounds : d.toFloat = .finite b) :
    numberOf d = numberText b := by
  rw [numberOf, parseFloat_of_toFloat rounds, Option.getD_some]

theorem numberOf_zero {d : Decimal} (nothing : ∀ b, d.toFloat ≠ .finite b) :
    numberOf d = ['0'] := by
  have unread : parseFloat d = none := by
    rw [parseFloat]
    cases here : d.toFloat with
    | finite b => exact absurd here (nothing b)
    | infinite neg => rfl
    | nan => rfl
  rw [numberOf, unread]
  rfl

/-- A float is in the document as it is signed. -/
theorem literal_shortest (b : Binary64) : literal (.shortest b) = numberText b := by
  rw [Decimal.shortest, numberText]
  split_ifs with zero
  · have text : Float64.digits 0 = ['0'] := rfl
    exact congrArg (signed b.neg) ((if_pos (Or.inl rfl)).trans text)
  · obtain ⟨n, positive, only⟩ := Numeral.exists_digits zero
    have short := Numeral.length_decimal_le zero
    have long := List.length_pos_iff.mpr (digits_ne_nil n)
    rw [literal, only, digitsValue_digits]
    rw [only] at short
    dsimp only
    rw [sub_add_cancel]
    split_ifs with plain
    · -- The point is behind the last digit.
      have here : (decimal b).2 = (digits n).length :=
        sub_eq_zero.mp (plain.resolve_left positive.ne')
      rw [Ecma.layout, here, if_pos (by omega), if_neg (by omega), if_pos (by simp)]
      simp
    · rfl

/-- Python writes a float that it reads as Go does exactly if both lay it out alike. -/
theorem numberOf_eq_repr_iff (d : Decimal) :
    numberOf d = Float64.repr d.toFloat ↔ ∃ b, d.toFloat = .finite b ∧ b.Shared := by
  cases here : d.toFloat with
  | finite b =>
    simp only [numberOf_finite here, Float64.finite.injEq, exists_eq_left']
    by_cases zero : b.mant = 0
    · refine iff_of_false (fun same => ?_) fun shared => shared.1 zero
      rw [numberText, if_pos zero] at same
      exact repr_ne_signed_digits _ b.neg 0 same.symm
    · rw [numberText, if_neg zero, eq_comm]
      exact Binary64.repr_eq_layout_iff zero
  | infinite neg =>
    rw [numberOf_zero (by simp [here])]
    exact iff_of_false (by cases neg <;> decide) (by simp)
  | nan =>
    rw [numberOf_zero (by simp [here])]
    exact iff_of_false (by decide) (by simp)

/-- Go writes an integer with its own digits exactly if those are the shortest. -/
theorem numberOf_eq_intText_iff {d : Decimal} {n : ℤ} (rounds : d.toFloat = Float64.ofInt n)
    (nonzero : n ≠ 0) : numberOf d = intText n ↔ Numeral.Exact n := by
  rw [eq_comm]
  cases here : Float64.ofInt n with
  | finite b =>
    obtain ⟨-, mant⟩ := Numeral.ofInt_finite nonzero here
    have text : numberText b = Numeral.ecmaText (.inl n) := by
      rw [Numeral.ecmaText, here, Ecma.numberText, numberText, if_neg mant, if_neg mant]
    rw [numberOf_finite (rounds.trans here), text]
    exact Numeral.text_eq_iff (.inl n)
  | infinite neg | nan =>
    refine iff_of_false (fun same => nonzero ?_) ?_
    · rw [numberOf_zero (by simp [rounds, here])] at same
      exact intText_injective same
    · rintro (zero | ⟨b, finite, -⟩)
      · exact nonzero zero
      · rw [here] at finite
        cases finite

/-- Python writes what it reads as Go does. -/
theorem numberOf_eq_iff (d : Decimal) :
    numberOf d = Dialect.pythonNumber (Numeral.ofText (literal d)) ↔
      (Numeral.ofText (literal d)).Shared ∧ ¬ NegativeZero d := by
  obtain ⟨whole, unit⟩ | ⟨float, nonzero⟩ := ofText_literal d
  · rw [whole]
    change numberOf d = intText _ ↔ Numeral.Exact _ ∧ _
    by_cases zero : d.digits = 0
    · have rounds : d.toFloat = .zero d.neg := by
        rw [Decimal.toFloat, ofDecimal, zero, Nat.zero_mul, ofRatio, if_pos rfl]
      have value : Numeral.signedInt d.neg (d.digits * 10 ^ d.scale.toNat) = 0 := by
        rw [zero, Nat.zero_mul]
        cases d.neg <;> rfl
      have text : numberOf d = signed d.neg ['0'] :=
        (numberOf_finite rounds).trans (by rw [numberText, if_pos rfl])
      rw [text, value, NegativeZero]
      cases d.neg with
      | true => exact iff_of_false (by decide) fun h => h.2 ⟨rfl, zero⟩
      | false => exact iff_of_true rfl ⟨.inl rfl, by simp⟩
    · have scaled := unit.resolve_left zero
      have positive : 0 < d.digits * 10 ^ d.scale.toNat :=
        Nat.mul_pos (Nat.pos_of_ne_zero zero) (Nat.pow_pos (by decide))
      have rounds : d.toFloat =
          Float64.ofInt (Numeral.signedInt d.neg (d.digits * 10 ^ d.scale.toNat)) := by
        rw [Decimal.toFloat, ofDecimal, show (-d.scale).toNat = 0 by omega, pow_zero,
          Numeral.ofInt_signedInt positive]
      have nonzero : Numeral.signedInt d.neg (d.digits * 10 ^ d.scale.toNat) ≠ 0 := by
        rw [← Int.natAbs_ne_zero, Numeral.natAbs_signedInt]
        exact positive.ne'
      rw [numberOf_eq_intText_iff rounds nonzero]
      exact (and_iff_left fun negative => zero negative.2).symm
  · rw [float]
    refine (numberOf_eq_repr_iff d).trans ?_
    have other : ¬ NegativeZero d := fun negative => nonzero negative.2
    rw [and_iff_left other]
    cases here : d.toFloat with
    | finite b => simp [Numeral.Shared]
    | infinite neg => simp [Numeral.Shared]
    | nan => simp [Numeral.Shared]

/-! ### Documents as others read them -/

/-- The value of a document, with the numbers that are in it. -/
def tree (raw : Document) : JsonTree Decimal := JsonTree.merged (raw.relabel id readString)

/-- The canonical text of Go for the value of a document. -/
def documents : Dialect Decimal := ⟨.utf8, escaping, numberOf⟩

theorem decode_eq (raw : Document) : decode raw =
    (tree raw).map fun d => (parseFloat d).getD ⟨false, 0, -1074, Binary64.normal_zero⟩ := by
  rw [tree, ← JsonTree.merged_map, JsonTree.map_eq_relabel, JsonTree.relabel_relabel]
  rfl

theorem text_decode (raw : Document) : dialect.text (decode raw) = documents.text (tree raw) := by
  rw [Dialect.text, Dialect.text, decode_eq, JsonTree.map_map]
  rfl

theorem tree_arr (l : List Document) : tree (.arr l) = .arr (l.map tree) := by
  have items : JsonTree.mergedItems (JsonTree.relabelItems id readString l) = l.map tree := by
    induction l with
    | nil => rfl
    | cons v l ih => rw [JsonTree.relabelItems, JsonTree.mergedItems, ih]; rfl
  exact congrArg JsonTree.arr items

/-- The members of a document's object come from its members. -/
theorem tree_obj (l : List (List UInt16 × Document)) :
    ∃ m, tree (.obj l) = .obj m ∧ ∀ p ∈ m, ∃ q ∈ l, p = (readString q.1, tree q.2) := by
  refine ⟨_, rfl, fun p member => ?_⟩
  have here := Dict.mem_of_mem_items_ofItems member
  rw [JsonTree.mergedMembers_eq_map, JsonTree.relabelMembers_eq_map, List.map_map] at here
  obtain ⟨q, hq, rfl⟩ := List.mem_map.mp here
  exact ⟨q, hq, rfl⟩

/-- A value as others read it; nothing where it cannot be written. -/
def wire (v : GoValue) : Option (JsonTree Decimal) := (marshalValue v).map tree

/-- A field of a struct as others read it, if it is not left out. -/
def cell (p : Field × GoValue) : Option (JsonTree Decimal) :=
  if p.1.omitEmpty && isEmptyValue p.2 then none else wire p.2

/-- The fields of a struct in rows. -/
def rows (fields : List (Field × GoValue)) : List (String × Option (JsonTree Decimal)) :=
  fields.map fun p => (p.1.name, cell p)

theorem present_rows {fields : List (Field × GoValue)} {l : List (List UInt16 × Document)}
    (written : marshalFields fields = some l) :
    JsonTree.present (rows fields) =
      JsonTree.mergedMembers (JsonTree.relabelMembers id readString l) := by
  induction fields generalizing l with
  | nil =>
    obtain rfl := Option.some.inj written
    rfl
  | cons p fields ih =>
    obtain ⟨field, v⟩ := p
    rw [marshalFields] at written
    split_ifs at written with left
    · rw [← ih written, rows, List.map_cons, cell, if_pos left]
      rfl
    · obtain ⟨doc, here, rest⟩ := Option.bind_eq_some_iff.mp written
      obtain ⟨m, others, rfl⟩ := Option.map_eq_some_iff.mp rest
      rw [rows, List.map_cons, cell, if_neg left, wire, here, JsonTree.relabelMembers,
        JsonTree.mergedMembers, ← ih others, readString_units]
      rfl

/-- If no field is missing, the struct is written. -/
theorem marshalFields_isSome {fields : List (Field × GoValue)}
    (all : ∀ p ∈ fields, (cell p).isSome = true) : (marshalFields fields).isSome = true := by
  induction fields with
  | nil => rfl
  | cons p fields ih =>
    obtain ⟨field, v⟩ := p
    obtain ⟨here, rest⟩ := List.forall_mem_cons.mp all
    rw [cell] at here
    split_ifs at here with left
    · cases here
    · obtain ⟨l, others⟩ := Option.isSome_iff_exists.mp (ih rest)
      rw [wire, Option.isSome_map] at here
      obtain ⟨doc, written⟩ := Option.isSome_iff_exists.mp here
      rw [marshalFields, if_neg left, written, Option.bind_some, others]
      rfl

/-- The document of a struct is the record of its fields. -/
theorem tree_struct {fields : List (Field × GoValue)} {raw : Document}
    (written : marshalValue (.struct fields) = some raw)
    (nodup : (fields.map fun p => p.1.name).Nodup) :
    tree raw = .obj (JsonTree.present (rows fields)) := by
  rw [marshalValue] at written
  obtain ⟨l, fields', rfl⟩ := Option.map_eq_some_iff.mp written
  have keys : ((JsonTree.present (rows fields)).map Prod.fst).Nodup := by
    refine (JsonTree.keys_present_sublist _).nodup ?_
    rwa [rows, List.map_map]
  rw [tree, JsonTree.relabel, JsonTree.merged, ← present_rows fields', Dict.items_ofItems keys]

end GoJson

end Foundation
