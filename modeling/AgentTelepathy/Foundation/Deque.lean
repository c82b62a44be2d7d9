import Mathlib.Data.List.Basic
import Mathlib.Tactic.SplitIfs

/-!
# Bounded deques

A deque of bounded size as a list. A push at one end of a full deque drops what is at the other
end; a deque is emptied from the front, one element at a time or at once. As long as nothing is
pushed at the front, what was pushed is what has left, in this order, and then what is still there.
-/

namespace Foundation

namespace Deque

variable {α : Type*}

/-- What can be done to a deque. -/
inductive Op (α : Type*)
  | pushBack (a : α)
  | pushFront (a : α)
  | popFront
  | drain
  | look

/-- What an operation returns. -/
inductive Reply (α : Type*)
  | pushed
  | popped (a : Option α)
  | drained (l : List α)
  | seen (nonempty : Bool)

/-- The deque after an operation. -/
def next (capacity : ℕ) (l : List α) : Op α → List α
  | .pushBack a => (if l.length < capacity then l else l.tail) ++ [a]
  | .pushFront a => a :: (if l.length < capacity then l else l.dropLast)
  | .popFront => l.tail
  | .drain => []
  | .look => l

/-- What an operation on a deque returns. -/
def reply (l : List α) : Op α → Reply α
  | .pushBack _ | .pushFront _ => .pushed
  | .popFront => .popped l.head?
  | .drain => .drained l
  | .look => .seen (l.length > 0)

/-- How an element leaves a deque. -/
inductive Departure (α : Type*)
  | taken (a : α)
  | evicted (a : α)

/-- The element that leaves. -/
def Departure.element : Departure α → α
  | .taken a | .evicted a => a

/-- The element, if it is taken out. -/
def Departure.taken? : Departure α → Option α
  | .taken a => some a
  | .evicted _ => none

/-- What leaves a deque at its front in an operation. -/
def departs (capacity : ℕ) (l : List α) : Op α → List (Departure α)
  | .pushBack _ => if l.length < capacity then [] else (l.take 1).map .evicted
  | .popFront => (l.take 1).map .taken
  | .drain => l.map .taken
  | .pushFront _ | .look => []

/-- What an operation pushes at the back. -/
def Op.appends : Op α → List α
  | .pushBack a => [a]
  | .pushFront _ | .popFront | .drain | .look => []

/-- What a reply takes out. -/
def Reply.taken : Reply α → List α
  | .popped a => a.toList
  | .drained l => l
  | .pushed | .seen _ => []

variable {capacity : ℕ} {l : List α} {op : Op α} {ops : List (Op α)}

theorem length_next_le (room : 0 < capacity) (bounded : l.length ≤ capacity) (op : Op α) :
    (next capacity l op).length ≤ capacity := by
  cases op with
  | pushBack a =>
    rw [next, List.length_append, List.length_singleton]
    split_ifs with below
    · exact below
    · rw [List.length_tail]
      omega
  | pushFront a =>
    rw [next, List.length_cons]
    split_ifs with below
    · exact below
    · rw [List.length_dropLast]
      omega
  | popFront =>
    rw [next, List.length_tail]
    omega
  | drain => exact Nat.zero_le capacity
  | look => exact bounded

/-- What was there and what is pushed at the back leaves at the front or is still there. -/
theorem append_appends (capacity : ℕ) (noFront : ∀ a, op ≠ .pushFront a) :
    l ++ op.appends = (departs capacity l op).map Departure.element ++ next capacity l op := by
  have front : l.take 1 ++ l.tail = l := by rw [← List.drop_one, List.take_append_drop]
  cases op with
  | pushBack a =>
    rw [departs, next, Op.appends]
    split_ifs with below
    · rfl
    · rw [List.map_map, ← List.append_assoc]
      conv_lhs => rw [← front]
      exact congrArg (· ++ l.tail ++ [a]) (List.map_id _).symm
  | pushFront a => exact absurd rfl (noFront a)
  | popFront =>
    rw [departs, next, Op.appends, List.append_nil, List.map_map]
    conv_lhs => rw [← front]
    exact congrArg (· ++ l.tail) (List.map_id _).symm
  | drain =>
    rw [departs, next, Op.appends, List.map_map]
    exact congrArg (· ++ []) (List.map_id l).symm
  | look => exact List.append_nil l

/-- What is taken out is what is returned. -/
theorem filterMap_departs (capacity : ℕ) (l : List α) (op : Op α) :
    (departs capacity l op).filterMap Departure.taken? = (reply l op).taken := by
  cases op with
  | pushBack a =>
    rw [departs]
    split_ifs
    · rfl
    · rw [List.filterMap_map]
      exact List.filterMap_eq_nil_iff.mpr fun _ _ => rfl
  | pushFront a => rfl
  | popFront => cases l <;> rfl
  | drain =>
    rw [departs, List.filterMap_map]
    exact List.filterMap_some
  | look => rfl

/-! ### Histories -/

/-- The deque after some operations. -/
def after (capacity : ℕ) (l : List α) (ops : List (Op α)) : List α := ops.foldl (next capacity) l

/-- What some operations return. -/
def replies (capacity : ℕ) (l : List α) : List (Op α) → List (Reply α)
  | [] => []
  | op :: ops => reply l op :: replies capacity (next capacity l op) ops

/-- What leaves a deque in some operations, in order. -/
def departures (capacity : ℕ) (l : List α) : List (Op α) → List (Departure α)
  | [] => []
  | op :: ops => departs capacity l op ++ departures capacity (next capacity l op) ops

/-- As long as nothing is pushed at the front, what was pushed at the back has left in order or is
still there. -/
theorem append_flatMap_appends (capacity : ℕ) (l : List α) (noFront : ∀ a, .pushFront a ∉ ops) :
    l ++ ops.flatMap Op.appends =
      (departures capacity l ops).map Departure.element ++ after capacity l ops := by
  induction ops generalizing l with
  | nil => exact List.append_nil l
  | cons op ops ih =>
    have here : ∀ a, op ≠ .pushFront a := fun a front => noFront a (front ▸ List.mem_cons_self ..)
    have later : ∀ a, .pushFront a ∉ ops := fun a member =>
      noFront a (List.mem_cons_of_mem _ member)
    calc l ++ (op :: ops).flatMap Op.appends
        = (l ++ op.appends) ++ ops.flatMap Op.appends := by
          rw [List.flatMap_cons, List.append_assoc]
      _ = (departs capacity l op).map Departure.element ++
            (next capacity l op ++ ops.flatMap Op.appends) := by
          rw [append_appends capacity here, List.append_assoc]
      _ = (departures capacity l (op :: ops)).map Departure.element ++
            after capacity l (op :: ops) := by
          rw [ih _ later, departures, List.map_append, List.append_assoc]
          rfl

theorem filterMap_departures (capacity : ℕ) (l : List α) (ops : List (Op α)) :
    (departures capacity l ops).filterMap Departure.taken? =
      (replies capacity l ops).flatMap Reply.taken := by
  induction ops generalizing l with
  | nil => rfl
  | cons op ops ih =>
    rw [departures, replies, List.filterMap_append, filterMap_departs, ih, List.flatMap_cons]

/-- What is taken out was pushed at the back, in this order. -/
theorem taken_sublist (noFront : ∀ a, .pushFront a ∉ ops) :
    ((replies capacity [] ops).flatMap Reply.taken).Sublist (ops.flatMap Op.appends) := by
  have all := append_flatMap_appends capacity [] noFront
  rw [List.nil_append] at all
  rw [all, ← filterMap_departures]
  refine List.Sublist.trans ?_ (List.sublist_append_left _ _)
  induction departures capacity ([] : List α) ops with
  | nil => exact List.Sublist.slnil
  | cons departure rest ih =>
    cases departure with
    | taken a => exact ih.cons_cons a
    | evicted a => exact ih.cons a

end Deque

end Foundation
