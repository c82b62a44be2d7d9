import Mathlib.Data.List.Basic

/-!
# Loops that an item can end

A loop takes items one after another, with a state. For each item it reaches it notes what
became of it, and an item may end the loop, so that the items after it are never reached.
What is asked of some items is then granted to all of them exactly if each can be granted
it and none comes after an item that ends the loop.
-/

namespace Foundation

namespace Loop

universe u v w

variable {σ : Type u} {α : Type v} {ω : Type w}

/-- What one turn comes to: the next state, what became of the item, and whether the loop
ends. -/
structure Turn (σ : Type u) (ω : Type w) where
  state : σ
  note : ω
  ends : Bool

/-- The state after a loop, and what became of the items it reached. -/
def run (turn : σ → α → Turn σ ω) : σ → List α → σ × List ω
  | s, [] => (s, [])
  | s, a :: as =>
    if (turn s a).ends then ((turn s a).state, [(turn s a).note])
    else
      let rest := run turn (turn s a).state as
      (rest.1, (turn s a).note :: rest.2)

variable {turn : σ → α → Turn σ ω} {inv : σ → Prop} {ends : α → Prop} {s : σ} {as : List α}
  {a b : α} {i j : ℕ}

theorem run_cons_of_ends (last : (turn s a).ends = true) :
    run turn s (a :: as) = ((turn s a).state, [(turn s a).note]) := if_pos last

theorem notes_cons (goesOn : (turn s a).ends = false) :
    (run turn s (a :: as)).2 = (turn s a).note :: (run turn (turn s a).state as).2 := by
  rw [run, if_neg (by rw [goesOn]; exact Bool.false_ne_true)]

/-- The state after a loop keeps what every turn keeps. -/
theorem run_invariant (preserved : ∀ s a, inv s → inv (turn s a).state) (start : inv s) :
    inv (run turn s as).1 := by
  induction as generalizing s with
  | nil => exact start
  | cons a as ih =>
    cases last : (turn s a).ends with
    | true =>
      rw [run_cons_of_ends last]
      exact preserved s a start
    | false =>
      rw [run, if_neg (by rw [last]; exact Bool.false_ne_true)]
      exact ih (preserved s a start)

/-- Items after one that ends the loop are not reached. -/
theorem getElem?_notes_eq_none (preserved : ∀ s a, inv s → inv (turn s a).state)
    (decided : ∀ s a, inv s → ((turn s a).ends = true ↔ ends a)) (start : inv s)
    (found : as[j]? = some b) (bad : ends b) (later : j < i) : (run turn s as).2[i]? = none := by
  induction as generalizing s i j with
  | nil => cases found
  | cons a as ih =>
    cases last : (turn s a).ends with
    | true =>
      rw [run_cons_of_ends last]
      exact List.getElem?_eq_none (Nat.one_le_of_lt later)
    | false =>
      rw [notes_cons last]
      -- The item that ends the loop is not the first one, and neither is the later one.
      cases j with
      | zero =>
        obtain rfl := Option.some.inj found
        rw [(decided s a start).mpr bad] at last
        cases last
      | succ j =>
        cases i with
        | zero => cases later
        | succ i =>
          rw [List.getElem?_cons_succ]
          exact ih (preserved s a start) found (Nat.lt_of_succ_lt_succ later)

/-- Items before all that end the loop, and the first of these, are reached. -/
theorem getElem?_notes (preserved : ∀ s a, inv s → inv (turn s a).state)
    (decided : ∀ s a, inv s → ((turn s a).ends = true ↔ ends a)) (start : inv s)
    (found : as[i]? = some a) (reached : ∀ j b, j < i → as[j]? = some b → ¬ ends b) :
    ∃ r, inv r ∧ (run turn s as).2[i]? = some (turn r a).note := by
  induction as generalizing s i with
  | nil => cases found
  | cons b as ih =>
    cases i with
    | zero =>
      obtain rfl := Option.some.inj found
      refine ⟨s, start, ?_⟩
      cases last : (turn s b).ends with
      | true =>
        rw [run_cons_of_ends last]
        rfl
      | false =>
        rw [notes_cons last]
        rfl
    | succ i =>
      -- The first item is an earlier one, so the loop goes on.
      have goesOn : (turn s b).ends = false := by
        rw [← Bool.not_eq_true, decided s b start]
        exact reached 0 b (Nat.zero_lt_succ i) rfl
      rw [notes_cons goesOn]
      exact ih (preserved s b start) found fun j c less =>
        reached (j + 1) c (Nat.succ_lt_succ less)

/-- What is asked of some items is granted to all of them exactly if each can be granted it
and none comes after an item that ends the loop. -/
theorem granted_iff {asked able : α → Prop} {granted : α → ω → Prop}
    (preserved : ∀ s a, inv s → inv (turn s a).state)
    (decided : ∀ s a, inv s → ((turn s a).ends = true ↔ ends a))
    (grants : ∀ s a, inv s → asked a → (granted a (turn s a).note ↔ able a)) (start : inv s) :
    (∀ (i : ℕ) a, as[i]? = some a → asked a →
        ∃ note, (run turn s as).2[i]? = some note ∧ granted a note) ↔
      ∀ (i : ℕ) a, as[i]? = some a → asked a →
        able a ∧ ∀ j b, j < i → as[j]? = some b → ¬ ends b := by
  apply forall₄_congr
  intro i a found ask
  constructor
  · rintro ⟨note, noted, grant⟩
    -- What has a note was reached.
    have reached : ∀ j b, j < i → as[j]? = some b → ¬ ends b := by
      intro j b less earlier bad
      rw [getElem?_notes_eq_none preserved decided start earlier bad less] at noted
      cases noted
    obtain ⟨r, kept, note'⟩ := getElem?_notes preserved decided start found reached
    obtain rfl := Option.some.inj (noted.symm.trans note')
    exact ⟨(grants r a kept ask).mp grant, reached⟩
  · rintro ⟨can, reached⟩
    obtain ⟨r, kept, noted⟩ := getElem?_notes preserved decided start found reached
    exact ⟨(turn r a).note, noted, (grants r a kept ask).mpr can⟩

end Loop

end Foundation
