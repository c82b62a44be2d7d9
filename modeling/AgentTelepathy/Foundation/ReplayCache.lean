import Mathlib.Algebra.Order.Group.Defs
import AgentTelepathy.Foundation.Dict

/-!
# Replay caches

A cache maps identifiers to the time at which they were recorded, oldest first.
Expiry drops entries from the front until one is younger than the width of the
window, so on an ordered cache it drops exactly the entries outside the window.
Recording at a clock that does not go back keeps the cache ordered.
-/

namespace Foundation

namespace ReplayCache

variable {κ α : Type*} [DecidableEq κ] [AddCommGroup α] [LinearOrder α]
  {d : Dict κ α} {k : κ} {clock now time width : α}

/-- Drop the entries recorded `width` ago or earlier, from the front. -/
def expire (width now : α) (d : Dict κ α) : Dict κ α :=
  d.dropWhile fun entry => entry.2 ≤ now - width

/-- The times of the entries ascend, up to a clock. -/
structure Ordered (clock : α) (d : Dict κ α) : Prop where
  sorted : d.items.Pairwise fun older newer => older.2 ≤ newer.2
  past : ∀ entry ∈ d.items, entry.2 ≤ clock

omit [DecidableEq κ] [AddCommGroup α] in
theorem Ordered.empty (clock : α) : Ordered clock (Dict.empty : Dict κ α) where
  sorted := List.Pairwise.nil
  past := fun entry member => by cases member

omit [DecidableEq κ] [AddCommGroup α] in
theorem Ordered.mono (ordered : Ordered clock d) (later : clock ≤ now) : Ordered now d where
  sorted := ordered.sorted
  past := fun entry member => (ordered.past entry member).trans later

omit [DecidableEq κ] in
theorem Ordered.expire (ordered : Ordered clock d) (width now : α) :
    Ordered clock (expire width now d) where
  sorted := ordered.sorted.sublist (List.dropWhile_sublist _)
  past := fun entry member => ordered.past entry ((List.dropWhile_sublist _).subset member)

omit [AddCommGroup α] in
/-- A new identifier is recorded as the youngest entry. -/
theorem Ordered.record (ordered : Ordered clock d) (absent : d.get? k = none)
    (later : clock ≤ now) : Ordered now (d.set k now) := by
  have items := Dict.items_set_of_notMem (v := now) (Dict.get?_eq_none_iff.mp absent)
  constructor
  · rw [items, List.pairwise_append]
    refine ⟨ordered.sorted, List.pairwise_singleton _ _, ?_⟩
    intro older member newer last
    rw [List.mem_singleton] at last
    subst last
    exact (ordered.past older member).trans later
  · intro entry member
    rw [items] at member
    rcases List.mem_append.mp member with old | new
    · exact (ordered.past entry old).trans later
    · rw [List.mem_singleton] at new
      subst new
      exact le_rfl

/-- On a list that is closed to the front under a condition, dropping from the
front drops every item that meets it. -/
theorem dropWhile_eq_filter {β : Type*} {p : β → Bool} {l : List β}
    (closed : l.Pairwise fun a b => p b = true → p a = true) :
    l.dropWhile p = l.filter fun a => !p a := by
  induction l with
  | nil => rfl
  | cons a l ih =>
    rw [List.pairwise_cons] at closed
    cases meets : p a with
    | true => simp [meets, ih closed.2]
    | false =>
      -- Nothing behind an item that stays is dropped.
      have stay : ∀ b ∈ l, p b = false := by
        intro b member
        by_contra dropped
        have earlier := closed.1 b member (by simpa using dropped)
        rw [meets] at earlier
        cases earlier
      have kept : l.filter (fun b => !p b) = l := by
        rw [List.filter_eq_self]
        intro b member
        rw [stay b member]
        rfl
      simp [meets, kept]

variable [IsOrderedAddMonoid α]

/-- What an expired cache holds is what was recorded within the window. -/
theorem get?_expire_eq_some_iff (ordered : Ordered clock d) :
    (expire width now d).get? k = some time ↔ d.get? k = some time ∧ now < time + width := by
  have closed : d.items.Pairwise fun a b =>
      decide (b.2 ≤ now - width) = true → decide (a.2 ≤ now - width) = true := by
    refine ordered.sorted.imp ?_
    intro a b older
    rw [decide_eq_true_iff, decide_eq_true_iff]
    exact older.trans
  have items : (expire width now d).items =
      d.items.filter fun entry => !decide (entry.2 ≤ now - width) := dropWhile_eq_filter closed
  rw [Dict.get?_eq_some_iff, Dict.get?_eq_some_iff, items, List.mem_filter]
  refine and_congr_right fun _ => ?_
  rw [Bool.not_eq_true', decide_eq_false_iff_not, not_le, sub_lt_iff_lt_add]

end ReplayCache

end Foundation
