import Mathlib.Algebra.Order.Field.Rat
import Mathlib.Algebra.Order.Group.Unbundled.Abs
import AgentTelepathy.Foundation.Json

/-!
# JSON values as Python objects

What Python code does with a value that `json.loads` returned, without knowing
its type: truth value, `dict.get`, comparison with zero, subtraction, and use as
a dictionary key. Numbers of all three types compare by their exact value, so
`1`, `1.0` and `True` are one key. Not-a-number is one object in everything that
`json.loads` reads: it finds itself in a dictionary, and still differs from itself.
-/

namespace Foundation

/-- The value of a number: a rational, an infinity, or not a number. -/
inductive Number
  | rat (q : ℚ)
  | infinite (neg : Bool)
  | nan
deriving DecidableEq

/-- `x <= 0`. -/
def Number.nonpositive : Number → Bool
  | .rat q => q ≤ 0
  | .infinite neg => neg
  | .nan => false

/-- `0 < x`. -/
def Number.positive : Number → Bool
  | .rat q => 0 < q
  | .infinite neg => !neg
  | .nan => false

/-- `math.ceil(x)`; nothing where it raises. -/
def Number.ceil : Number → Option ℤ
  | .rat q => some q.ceil
  | .infinite _ | .nan => none

/-- `int(x)`, which cuts off the fraction; nothing where it raises. -/
def Number.trunc : Number → Option ℤ
  | .rat q => some (q.num.tdiv q.den)
  | .infinite _ | .nan => none

/-- Only not-a-number is neither. -/
theorem Number.positive_or_nan {x : Number} (above : x.nonpositive = false) :
    x.positive = true ∨ x = .nan := by
  cases x with
  | rat q =>
    have notBelow : ¬ q ≤ 0 := by simpa [nonpositive] using above
    exact .inl (by simpa [positive] using notBelow)
  | infinite neg => exact .inl (by simpa [nonpositive, positive] using above)
  | nan => exact .inr rfl

namespace Float64

/-- The value of a float. -/
def number : Float64 → Number
  | .finite b =>
    .rat ((if b.neg then -1 else 1) * b.mant * 2 ^ b.exp.toNat / 2 ^ (-b.exp).toNat)
  | .infinite neg => .infinite neg
  | .nan => .nan

/-- The float nearest to a rational. -/
def ofRat (q : ℚ) : Float64 := ofRatio (decide (q < 0)) q.num.natAbs q.den

/-- `f - 1`. -/
def subOne (f : Float64) : Float64 :=
  match f.number with
  | .rat q => ofRat (q - 1)
  | .infinite neg => .infinite neg
  | .nan => .nan

end Float64

namespace Json

/-- `bool(v)`. -/
def truthy : Json → Bool
  | .null => false
  | .bool b => b
  | .int n => n ≠ 0
  | .float f => f.number ≠ .rat 0
  | .str s => s ≠ ""
  | .arr items => !items.isEmpty
  | .obj members => !members.isEmpty

/-- `v.get(key, default)`; nothing for a value without `get`. -/
def getD (v : Json) (key : String) (default : Json) : Option Json :=
  match v with
  | .obj members => some ((members.lookup key).getD default)
  | _ => none

/-- `v[key] = w` for a dictionary. -/
def setMember (v : Json) (key : String) (w : Json) : Json :=
  match v with
  | .obj members =>
    if (members.lookup key).isSome then
      .obj (members.map fun p => if p.1 = key then (key, w) else p)
    else .obj (members ++ [(key, w)])
  | v => v

/-- The value of a number; nothing for an object that is not one. -/
def number? : Json → Option Number
  | .bool b => some (.rat (if b then 1 else 0))
  | .int n => some (.rat n)
  | .float f => some f.number
  | _ => none

/-- `v - 1`; nothing for an object that is not a number. -/
def subOne? : Json → Option Json
  | .bool b => some (.int ((if b then 1 else 0) - 1))
  | .int n => some (.int (n - 1))
  | .float f => some (.float f.subOne)
  | _ => none

/-- `int(text)` for a text in ASCII: an integer with blanks around it and single
underscores between its digits. -/
def intLiteral (text : List Char) : Option ℤ :=
  let blank (c : Char) : Bool := c.isWhitespace || c = '\x0b' || c = '\x0c'
  let body := ((text.dropWhile blank).reverse.dropWhile blank).reverse
  let magnitude (ds : List Char) : Option ℕ :=
    if (ds.splitOn '_').all (· ≠ []) then Float64.readDigits (ds.filter (· ≠ '_')) else none
  match body with
  | '-' :: ds => (magnitude ds).map fun n => -(n : ℤ)
  | '+' :: ds => (magnitude ds).map Int.ofNat
  | ds => (magnitude ds).map Int.ofNat

/-- `int(v)`; nothing where it raises. -/
def toInt? : Json → Option ℤ
  | .str s => intLiteral s.toList
  | v => v.number?.bind Number.trunc

example : toInt? (.str " -1_000\n") = some (-1000) ∧ toInt? (.str "1__0") = none ∧
    toInt? (.float (Float64.ofRatio true 7 2)) = some (-3) := by decide +kernel

theorem getD_eq {v d : Json} {key : String} {w : Json} (found : v.getD key d = some w) :
    w = (v.get? key).getD d ∧ ∃ members, v = .obj members := by
  cases v with
  | obj members =>
    cases found
    exact ⟨rfl, members, rfl⟩
  | _ => cases found

theorem getD_of_get? {v w d : Json} {key : String} (found : v.get? key = some w) :
    v.getD key d = some w := by
  cases v with
  | obj members =>
    have member : members.lookup key = some w := found
    rw [getD, member, Option.getD_some]
  | _ => cases found

private theorem lookup_cons_eq (p : String × Json) (members : List (String × Json)) (key : String) :
    (p :: members).lookup key = if key = p.1 then some p.2 else members.lookup key := by
  obtain ⟨k, v⟩ := p
  by_cases same : key = k
  · subst same
    simp
  · have differs : (key == k) = false := beq_false_of_ne same
    simp [List.lookup_cons, differs, same]

private theorem lookup_map_replace (members : List (String × Json)) (key other : String)
    (w : Json) : (members.map fun p => if p.1 = key then (key, w) else p).lookup other =
      if other = key then (members.lookup key).map fun _ => w else members.lookup other := by
  induction members with
  | nil => simp
  | cons p members ih =>
    rw [List.map_cons, lookup_cons_eq, lookup_cons_eq, lookup_cons_eq, ih]
    by_cases replaced : p.1 = key
    · rw [if_pos replaced, replaced]
      split_ifs <;> simp_all
    · rw [if_neg replaced, if_neg (Ne.symm replaced)]
      split_ifs with here same <;> simp_all

/-- Assigning a member changes that member only. -/
theorem get?_setMember (members : List (String × Json)) (key other : String) (w : Json) :
    (setMember (.obj members) key w).get? other =
      if other = key then some w else (Json.obj members).get? other := by
  by_cases present : (members.lookup key).isSome
  · obtain ⟨v, found⟩ := Option.isSome_iff_exists.mp present
    rw [setMember, if_pos present, get?, get?, lookup_map_replace, found, Option.map_some]
  · have absent : members.lookup key = none :=
      Option.isNone_iff_eq_none.mp
        (Option.isSome_eq_false_iff.mp (Bool.eq_false_of_not_eq_true present))
    rw [setMember, if_neg present, get?, get?, List.lookup_append, lookup_cons_eq]
    by_cases same : other = key
    · rw [if_pos same, same, absent]
      simp
    · simp [same]

end Json

/-- A dictionary key. -/
inductive Key
  | null
  | text (s : String)
  | number (x : Number)
deriving DecidableEq

/-- `j != k`. -/
def Key.differs (j k : Key) : Bool := j ≠ k || j = .number .nan

theorem Key.differs_iff {j k : Key} : j.differs k = true ↔ j ≠ k ∨ j = .number .nan := by
  rw [differs, Bool.or_eq_true, decide_eq_true_iff, decide_eq_true_iff]

/-- A value as a dictionary key; lists and dictionaries are unhashable. -/
def Json.key? : Json → Option Key
  | .null => some .null
  | .str s => some (.text s)
  | v => v.number?.map Key.number

example : (Json.float .nan).key? = some (.number .nan) ∧
    (Key.number .nan).differs (.number .nan) := by
  decide

end Foundation
