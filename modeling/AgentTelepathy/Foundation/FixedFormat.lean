import AgentTelepathy.Foundation.FixedWidth

/-!
# Text of fixed format

A fixed format is a sequence of literal characters and of digit fields of given
base and width. A list of numbers that fit the fields is written in the format
and read back from it, whatever follows.
-/

namespace Foundation

namespace FixedFormat

/-- One part of a format. -/
inductive Field
  /-- A character that stands for itself. -/
  | lit (c : Char)
  /-- A number in a given base, with a given number of digits. -/
  | digits (base width : ℕ)

/-- Write one number per digit field. -/
def write : List Field → List ℕ → List Char
  | [], _ => []
  | .lit c :: format, values => c :: write format values
  | .digits base width :: format, value :: values =>
    FixedWidth.write base width value ++ write format values
  | .digits _ _ :: _, [] => []

/-- Read the numbers of the digit fields, and what follows. -/
def read : List Field → List Char → Option (List ℕ × List Char)
  | [], cs => some ([], cs)
  | .lit _ :: _, [] => none
  | .lit c :: format, d :: cs => if c = d then read format cs else none
  | .digits base width :: format, cs =>
    if cs.length < width then none
    else
      (FixedWidth.read base (cs.take width)).bind fun value =>
        (read format (cs.drop width)).map fun (values, rest) => (value :: values, rest)

/-- Whether numbers fit the digit fields of a format. -/
def Fits : List Field → List ℕ → Prop
  | [], values => values = []
  | .lit _ :: format, values => Fits format values
  | .digits base width :: format, value :: values =>
    0 < base ∧ base ≤ 16 ∧ value < base ^ width ∧ Fits format values
  | .digits _ _ :: _, [] => False

/-- What is written in a fixed format is read back. -/
theorem read_write {format : List Field} {values : List ℕ} (fits : Fits format values)
    (rest : List Char) : read format (write format values ++ rest) = some (values, rest) := by
  induction format generalizing values with
  | nil =>
    obtain rfl : values = [] := fits
    rfl
  | cons field format ih =>
    cases field with
    | lit c => simpa [write, read] using ih fits
    | digits base width =>
      cases values with
      | nil => exact fits.elim
      | cons value values =>
        obtain ⟨positive, small, bound, others⟩ := fits
        have width_eq : (FixedWidth.write base width value).length = width :=
          FixedWidth.length_write width value
        have long : ¬ (FixedWidth.write base width value ++
            (write format values ++ rest)).length < width := by
          rw [List.length_append, width_eq]
          omega
        rw [write, List.append_assoc, read, if_neg long, List.take_left' width_eq,
          List.drop_left' width_eq, FixedWidth.read_write positive small bound, Option.bind_some,
          ih others]
        rfl

end FixedFormat

end Foundation
