import Mathlib.Algebra.Order.Ring.Cast
import Mathlib.Algebra.Order.Ring.Rat
import AgentTelepathy.Foundation.Scalar

/-!
# Comparing Python objects

`==` and `>` on what `json.loads` returns. Numbers of all types compare by exact
value, strings by code points, and lists item by item, where items that are one
object count as equal without being compared: this is how a list with
not-a-number equals itself. Other comparisons with `>` raise.
-/

namespace Foundation

/-! ### Numbers -/

namespace Number

/-- `x < y`. -/
def lt : Number → Number → Bool
  | .rat p, .rat q => p < q
  | .rat _, .infinite neg => !neg
  | .infinite neg, .rat _ => neg
  | .infinite neg, .infinite neg' => neg && !neg'
  | .nan, _ | _, .nan => false

/-- `x == y`. -/
def eq (x y : Number) : Bool := x ≠ .nan && x = y

@[simp] theorem lt_self (x : Number) : x.lt x = false := by
  cases x with
  | rat q => simp [lt]
  | infinite neg => simp [lt]
  | nan => rfl

/-- What is not below a number is not below a greater one. -/
theorem not_lt_of_lt {x y z : Number} (above : x.lt y = true) (notAbove : x.lt z = false) :
    y.lt z = false := by
  cases x with
  | nan => cases above
  | infinite neg =>
    -- Minus infinity is below everything but itself and not-a-number.
    cases neg <;> cases y <;> cases z <;> simp_all [lt]
  | rat p =>
    cases y with
    | nan => cases above
    | infinite neg => cases neg <;> cases z <;> simp_all [lt]
    | rat q =>
      cases z with
      | nan => rfl
      | infinite neg => cases neg <;> simp_all [lt]
      | rat r =>
        simp only [lt, decide_eq_true_iff, decide_eq_false_iff_not, not_lt] at above notAbove ⊢
        exact notAbove.trans above.le

end Number

/-- A number as a Python object. -/
inductive PyNumber
  | bool (b : Bool)
  | int (n : ℤ)
  | float (f : Float64)
deriving DecidableEq

namespace PyNumber

/-- The number as a JSON value. -/
def toJson : PyNumber → Json
  | .bool b => .bool b
  | .int n => .int n
  | .float f => .float f

/-- A JSON value that is a number. -/
def ofJson? : Json → Option PyNumber
  | .bool b => some (.bool b)
  | .int n => some (.int n)
  | .float f => some (.float f)
  | _ => none

/-- The value of the object. -/
def value : PyNumber → Number
  | .bool b => .rat (if b then 1 else 0)
  | .int n => .rat n
  | .float f => f.number

/-- `x > y`. -/
def gt (x y : PyNumber) : Bool := y.value.lt x.value

/-- `x == y`. -/
def eq (x y : PyNumber) : Bool := x.value.eq y.value

/-- `max(x, y)`: the first, unless the second is greater. -/
def max (x y : PyNumber) : PyNumber := if y.gt x then y else x

/-- `x + 1`. -/
def addOne : PyNumber → PyNumber
  | .bool b => .int ((if b then 1 else 0) + 1)
  | .int n => .int (n + 1)
  | .float f =>
    match f.number with
    | .rat q => .float (Float64.ofRat (q + 1))
    | .infinite neg => .float (.infinite neg)
    | .nan => .float .nan

@[simp] theorem ofJson?_toJson (x : PyNumber) : ofJson? x.toJson = some x := by cases x <;> rfl

theorem ofJson?_eq_some_iff {v : Json} {x : PyNumber} : ofJson? v = some x ↔ v = x.toJson := by
  constructor
  · intro read
    cases v <;> cases read <;> rfl
  · rintro rfl
    exact ofJson?_toJson x

@[simp] theorem gt_self (x : PyNumber) : x.gt x = false := Number.lt_self x.value

/-- Integers compare as integers. -/
theorem gt_int (m n : ℤ) : (int m).gt (int n) = decide (m > n) := by
  simp [gt, value, Number.lt, Int.cast_lt]

theorem eq_int (m n : ℤ) : (int m).eq (int n) = decide (m = n) := by
  simp [eq, value, Number.eq]

theorem max_int (m n : ℤ) : (int m).max (int n) = int (Max.max m n) := by
  unfold max
  rw [gt_int]
  split_ifs with above
  · rw [max_eq_right (of_decide_eq_true above).le]
  · rw [max_eq_left (not_lt.mp fun below => above (decide_eq_true below))]

/-- A maximum is not below the second number. -/
theorem gt_max_right (x y : PyNumber) : y.gt (x.max y) = false := by
  unfold max
  split_ifs with above
  · exact gt_self y
  · exact Bool.eq_false_of_not_eq_true above

/-- A maximum is not below anything that the first number is not below. -/
theorem gt_max_of_gt {x y z : PyNumber} (notAbove : z.gt x = false) : z.gt (x.max y) = false := by
  unfold max
  split_ifs with above
  · exact Number.not_lt_of_lt above notAbove
  · exact notAbove

end PyNumber

namespace Json

/-! ### Objects -/

/-- Whether two values are one object: the only case that matters is not-a-number,
which the reader makes once. -/
def isNan : Json → Bool
  | .float .nan => true
  | _ => false

mutual

/-- `v == w`. -/
def eq : Json → Json → Bool
  | .null, .null => true
  | .str s, .str t => s = t
  | .arr l, .arr m => eqItems l m
  | .obj l, .obj m => l.length = m.length && eqMembers l m
  | v, w =>
    match PyNumber.ofJson? v, PyNumber.ofJson? w with
    | some x, some y => x.eq y
    | _, _ => false

/-- Lists are equal when their items are, one by one. -/
def eqItems : List Json → List Json → Bool
  | [], [] => true
  | v :: l, w :: m => (isNan v && isNan w || eq v w) && eqItems l m
  | _, _ => false

/-- The members of one dictionary are found in the other. -/
def eqMembers : List (String × Json) → List (String × Json) → Bool
  | [], _ => true
  | (k, v) :: l, m =>
    (match m.lookup k with
      | some w => isNan v && isNan w || eq v w
      | none => false) && eqMembers l m

end

/-- Whether list items count as equal: they are one object, or they are equal. -/
def alike (v w : Json) : Bool := isNan v && isNan w || eq v w

mutual

/-- `v > w`; nothing where it raises. -/
def gt : Json → Json → Option Bool
  | .str s, .str t => some (t < s)
  | .arr l, .arr m => gtItems l m
  | v, w =>
    match PyNumber.ofJson? v, PyNumber.ofJson? w with
    | some x, some y => some (x.gt y)
    | _, _ => none

/-- Lists compare by the first items that differ, and else by length. -/
def gtItems : List Json → List Json → Option Bool
  | v :: l, w :: m => if alike v w then gtItems l m else gt v w
  | l, m => some (m.length < l.length)

end

mutual

/-- No value is greater than itself. -/
theorem gt_self : ∀ v : Json, gt v v ≠ some true
  | .null => by simp [gt, PyNumber.ofJson?]
  | .bool b => by simp [gt, PyNumber.ofJson?]
  | .int n => by simp [gt, PyNumber.ofJson?]
  | .float f => by simp [gt, PyNumber.ofJson?]
  | .str s => by simp [gt]
  | .arr l => by
    rw [gt]
    exact gtItems_self l
  | .obj l => by simp [gt, PyNumber.ofJson?]

theorem gtItems_self : ∀ l : List Json, gtItems l l ≠ some true
  | [] => by simp [gtItems]
  | v :: l => by
    rw [gtItems]
    split_ifs
    · exact gtItems_self l
    · exact gt_self v

end

end Json

end Foundation
