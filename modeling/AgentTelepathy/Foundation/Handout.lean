import Mathlib.Data.List.Nodup

/-!
# Handing out a list

A list is handed out from the front, one item at a time, and other things happen
between two items. What was given and what is left always make up the list; so if
its items have different keys, no key is given twice, and when nothing is left,
every key has been given once.
-/

namespace Foundation

/-- What was given of a list, and what is left. -/
structure Handout (α : Type*) where
  given : List α
  left : List α

namespace Handout

variable {α κ : Type*} [DecidableEq κ] {h h' : Handout α} {key : α → κ} {a : α}

/-- The list that is handed out. -/
def whole (h : Handout α) : List α := h.given ++ h.left

/-- The next item is given, or something else happens. -/
inductive Step : Handout α → Handout α → Prop
  | pass (h : Handout α) : Step h h
  | give (given : List α) (a : α) (left : List α) : Step ⟨given, a :: left⟩ ⟨given ++ [a], left⟩

/-- What is handed out stays the same. -/
theorem Step.whole_eq (step : Step h h') : h'.whole = h.whole := by
  cases step with
  | pass => rfl
  | give given a left => exact List.append_assoc given [a] left

/-- No key is given twice. -/
theorem length_filter_given_le (distinct : (h.whole.map key).Nodup) (k : κ) :
    (h.given.filter fun b => key b = k).length ≤ 1 := by
  have given : (h.given.map key).Nodup :=
    (List.Sublist.map key (List.sublist_append_left h.given h.left)).nodup distinct
  have once := List.nodup_iff_count_le_one.mp given k
  rw [List.count, List.countP_map, List.countP_eq_length_filter] at once
  exact once

/-- When nothing is left, every item has been given once. -/
theorem filter_given_eq (distinct : (h.whole.map key).Nodup) (finished : h.left = [])
    (member : a ∈ h.whole) : (h.given.filter fun b => key b = key a) = [a] := by
  rw [whole, finished, List.append_nil] at member
  have kept : a ∈ h.given.filter fun b => key b = key a :=
    List.mem_filter.mpr ⟨member, decide_eq_true rfl⟩
  obtain ⟨b, single⟩ := List.length_eq_one_iff.mp
    (Nat.le_antisymm (length_filter_given_le distinct (key a)) (List.length_pos_of_mem kept))
  rw [single] at kept ⊢
  rw [List.mem_singleton.mp kept]

end Handout

end Foundation
