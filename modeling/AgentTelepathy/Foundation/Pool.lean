import Mathlib.Algebra.BigOperators.Group.List.Basic
import Mathlib.Algebra.Order.Group.Nat
import Mathlib.Algebra.Ring.Nat

/-!
# Sums over a pool of tasks

A pool is a list of tasks, each with a count. Adding a task adds its count, and when a
task moves on, its count is replaced.
-/

namespace Foundation

namespace Pool

variable {α : Type*} {f : α → ℕ} {pool : List α}

/-- The sum of the counts of all tasks. -/
def total (f : α → ℕ) (pool : List α) : ℕ := (pool.map f).sum

@[simp] theorem total_nil : total f [] = 0 := rfl

@[simp] theorem total_cons (a : α) (pool : List α) : total f (a :: pool) = f a + total f pool := by
  simp [total]

@[simp] theorem total_append (pool more : List α) :
    total f (pool ++ more) = total f pool + total f more := by
  simp [total]

/-- A task that moves on replaces its count. -/
theorem total_set {i : ℕ} {a : α} (here : pool[i]? = some a) (b : α) :
    total f (pool.set i b) + f a = total f pool + f b := by
  induction pool generalizing i with
  | nil => cases here
  | cons c pool ih =>
    cases i with
    | zero =>
      obtain rfl := Option.some.inj here
      simp only [List.set_cons_zero, total_cons]
      omega
    | succ i =>
      have rest := ih here
      simp only [List.set_cons_succ, total_cons]
      omega

theorem le_total {i : ℕ} {a : α} (here : pool[i]? = some a) : f a ≤ total f pool := by
  induction pool generalizing i with
  | nil => cases here
  | cons c pool ih =>
    rw [total_cons]
    cases i with
    | zero =>
      obtain rfl := Option.some.inj here
      exact Nat.le_add_right _ _
    | succ i => exact (ih here).trans (Nat.le_add_left _ _)

/-- With counts of at most `k`. -/
theorem total_le_mul {k : ℕ} (bound : ∀ a, f a ≤ k) (pool : List α) :
    total f pool ≤ k * pool.length := by
  induction pool with
  | nil => exact Nat.zero_le _
  | cons a pool ih =>
    have first := bound a
    rw [total_cons, List.length_cons, Nat.mul_succ]
    omega

theorem total_eq_zero_iff : total f pool = 0 ↔ ∀ a ∈ pool, f a = 0 := by
  induction pool with
  | nil => simp
  | cons c pool ih => simp [ih]

/-- A task with a count is one of those of a pool with a sum. -/
theorem exists_of_total_pos (positive : 0 < total f pool) : ∃ a ∈ pool, 0 < f a := by
  by_contra none
  refine positive.ne' (total_eq_zero_iff.mpr fun a member => ?_)
  by_contra count
  exact none ⟨a, member, Nat.pos_of_ne_zero count⟩

end Pool

end Foundation
