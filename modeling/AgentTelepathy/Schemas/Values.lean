import AgentTelepathy.Foundation.FixedFormat
import AgentTelepathy.Foundation.Json

/-!
# Values in envelopes

Identifiers and timestamps have one canonical text each, which is what is sent
and what is read back. `PyValue` is what `model_dump()` returns: JSON data, and
for the metadata models also identifiers, which `json.dumps` refuses.
-/

namespace AgentTelepathy

open Foundation

/-! ### Identifiers -/

/-- A UUID, by the five groups of its text. -/
structure UUID where
  timeLow : Fin (2 ^ 32)
  timeMid : Fin (2 ^ 16)
  timeHi : Fin (2 ^ 16)
  clockSeq : Fin (2 ^ 16)
  node : Fin (2 ^ 48)
deriving DecidableEq

namespace UUID

instance neZero_timeLow : NeZero (2 ^ 32 : ℕ) := ⟨by decide⟩

instance neZero_clockSeq : NeZero (2 ^ 16 : ℕ) := ⟨by decide⟩

instance neZero_node : NeZero (2 ^ 48 : ℕ) := ⟨by decide⟩

/-- `UUID(int=0)`. -/
def nil : UUID := ⟨0, 0, 0, 0, 0⟩

/-- Five groups of hexadecimal digits. -/
def format : List FixedFormat.Field :=
  [.digits 16 8, .lit '-', .digits 16 4, .lit '-', .digits 16 4, .lit '-', .digits 16 4, .lit '-',
    .digits 16 12]

/-- `str(uuid)`. -/
def toText (u : UUID) : String :=
  String.ofList (FixedFormat.write format [u.timeLow, u.timeMid, u.timeHi, u.clockSeq, u.node])

/-- Read the hyphenated text of a UUID. -/
def ofText? (text : String) : Option UUID :=
  match FixedFormat.read format text.toList with
  | some ([timeLow, timeMid, timeHi, clockSeq, node], []) =>
    some ⟨Fin.ofNat _ timeLow, Fin.ofNat _ timeMid, Fin.ofNat _ timeHi, Fin.ofNat _ clockSeq,
      Fin.ofNat _ node⟩
  | _ => none

@[simp] theorem ofText?_toText (u : UUID) : ofText? u.toText = some u := by
  have fits : FixedFormat.Fits format [u.timeLow, u.timeMid, u.timeHi, u.clockSeq, u.node] :=
    ⟨by decide, by decide, u.timeLow.isLt, by decide, by decide, u.timeMid.isLt, by decide,
      by decide, u.timeHi.isLt, by decide, by decide, u.clockSeq.isLt, by decide, by decide,
      u.node.isLt, rfl⟩
  have read := FixedFormat.read_write fits []
  rw [List.append_nil] at read
  rw [ofText?, toText, String.toList_ofList, read]
  simp only [Fin.ofNat_val_eq_self]

end UUID

/-! ### Timestamps -/

/-- The number of days of a month. -/
def daysInMonth (year month : ℕ) : ℕ :=
  if month = 2 then if year % 4 = 0 ∧ (year % 100 ≠ 0 ∨ year % 400 = 0) then 29 else 28
  else if month ∈ [4, 6, 9, 11] then 30
  else 31

/-- A point in time, in UTC and to the microsecond. -/
structure DateTime where
  year : ℕ
  month : ℕ
  day : ℕ
  hour : ℕ
  minute : ℕ
  second : ℕ
  microsecond : ℕ
  valid : (1 ≤ year ∧ year ≤ 9999) ∧ (1 ≤ month ∧ month ≤ 12) ∧
    (1 ≤ day ∧ day ≤ daysInMonth year month) ∧ hour < 24 ∧ minute < 60 ∧ second < 60 ∧
    microsecond < 1000000
deriving DecidableEq

namespace DateTime

/-- Noon of the first of March 2026. -/
theorem valid_noon : (1 ≤ 2026 ∧ 2026 ≤ 9999) ∧ (1 ≤ 3 ∧ 3 ≤ 12) ∧
    (1 ≤ 1 ∧ 1 ≤ daysInMonth 2026 3) ∧ 12 < 24 ∧ 0 < 60 ∧ 0 < 60 ∧ 0 < 1000000 := by
  decide

theorem daysInMonth_le (year month : ℕ) : daysInMonth year month ≤ 31 := by
  unfold daysInMonth
  split_ifs <;> omega

/-- Date and time to the second. -/
def format : List FixedFormat.Field :=
  [.digits 10 4, .lit '-', .digits 10 2, .lit '-', .digits 10 2, .lit 'T', .digits 10 2, .lit ':',
    .digits 10 2, .lit ':', .digits 10 2]

/-- What follows in UTC when there are microseconds. -/
def microsecondFormat : List FixedFormat.Field := [.lit '.', .digits 10 6, .lit 'Z']

/-- The text of a timestamp in an emitted envelope. -/
def toText (t : DateTime) : String :=
  String.ofList
    (FixedFormat.write format [t.year, t.month, t.day, t.hour, t.minute, t.second] ++
      if t.microsecond = 0 then ['Z'] else FixedFormat.write microsecondFormat [t.microsecond])

/-- The timestamp of the given numbers, if they make one. -/
def ofNumbers? (year month day hour minute second microsecond : ℕ) : Option DateTime :=
  if valid : (1 ≤ year ∧ year ≤ 9999) ∧ (1 ≤ month ∧ month ≤ 12) ∧
      (1 ≤ day ∧ day ≤ daysInMonth year month) ∧ hour < 24 ∧ minute < 60 ∧ second < 60 ∧
      microsecond < 1000000 then
    some ⟨year, month, day, hour, minute, second, microsecond, valid⟩
  else none

/-- Read the microseconds and the UTC mark at the end of a timestamp. -/
def readEnd : List Char → Option ℕ
  | ['Z'] => some 0
  | cs =>
    match FixedFormat.read microsecondFormat cs with
    | some ([microsecond], []) => some microsecond
    | _ => none

/-- Read the text of a UTC timestamp. -/
def ofText? (text : String) : Option DateTime :=
  match FixedFormat.read format text.toList with
  | some ([year, month, day, hour, minute, second], rest) =>
    (readEnd rest).bind (ofNumbers? year month day hour minute second)
  | _ => none

theorem readEnd_write (t : DateTime) :
    readEnd (if t.microsecond = 0 then ['Z']
      else FixedFormat.write microsecondFormat [t.microsecond]) = some t.microsecond := by
  split_ifs with whole
  · rw [whole]
    rfl
  · have small := t.valid.2.2.2.2.2.2
    have fits : FixedFormat.Fits microsecondFormat [t.microsecond] :=
      ⟨by decide, by decide, by omega, rfl⟩
    have read := FixedFormat.read_write fits []
    rw [List.append_nil] at read
    -- The text starts with a point, so it is not the bare mark.
    show (match FixedFormat.read microsecondFormat
        (FixedFormat.write microsecondFormat [t.microsecond]) with
      | some ([microsecond], []) => some microsecond
      | _ => none) = _
    rw [read]

@[simp] theorem ofText?_toText (t : DateTime) : ofText? t.toText = some t := by
  obtain ⟨⟨-, year⟩, ⟨-, month⟩, ⟨-, day⟩, hour, minute, second, -⟩ := t.valid
  have days := daysInMonth_le t.year t.month
  have fits : FixedFormat.Fits format [t.year, t.month, t.day, t.hour, t.minute, t.second] :=
    ⟨by decide, by decide, by omega, by decide, by decide, by omega, by decide, by decide,
      by omega, by decide, by decide, by omega, by decide, by decide, by omega, by decide,
      by decide, by omega, rfl⟩
  rw [ofText?, toText, String.toList_ofList, FixedFormat.read_write fits]
  simp only [readEnd_write, Option.bind_some, ofNumbers?, dif_pos t.valid]

end DateTime

/-! ### Python values -/

/-- An error of `json.dumps`. -/
structure TypeError where
  message : String
deriving DecidableEq

/-- A value that `model_dump()` returns. -/
inductive PyValue
  | json (v : Json)
  | uuid (u : UUID)
  | dict (items : List (String × PyValue))

namespace PyValue

mutual

/-- What `json.dumps` encodes; an identifier is no JSON value. -/
def toJson : PyValue → Except TypeError Json
  | .json v => .ok v
  | .uuid _ => .error ⟨"Object of type UUID is not JSON serializable"⟩
  | .dict items => (toMembers items).map Json.obj

/-- The members of an encoded dictionary. -/
def toMembers : List (String × PyValue) → Except TypeError (List (String × Json))
  | [] => .ok []
  | (k, v) :: items => (toJson v).bind fun j => (toMembers items).map fun l => (k, j) :: l

end

end PyValue

end AgentTelepathy
