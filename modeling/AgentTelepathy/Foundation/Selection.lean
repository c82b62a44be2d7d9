import Mathlib.Data.List.Sort
import Mathlib.Order.MinMax

/-!
# Selecting the greatest elements of a list

A sort by a key is only told which of two keys is lower. Where that orders the keys of a
list, it sorts them, greatest first; where it does not, a sort may leave the elements in
any order. Keeping the first `k` elements of the sorted list selects `k` elements, or all
if there are fewer, and elements of greatest key if the keys are in order.
-/

namespace Foundation

namespace Selection

variable {α β : Type*} [LT β] {key : α → β} {l found : List α} {k : ℕ}

/-- The comparison is an order of the keys of a list: of two keys not both are lower, and what is
not lower stays so along a chain. -/
structure Ordered (key : α → β) (l : List α) : Prop where
  asymm : ∀ a ∈ l, ∀ b ∈ l, key a < key b → ¬ key b < key a
  chain : ∀ a ∈ l, ∀ b ∈ l, ∀ c ∈ l, ¬ key a < key b → ¬ key b < key c → ¬ key a < key c

/-- Keys that are compared like ranks are in order. -/
theorem Ordered.of_rank {γ : Type*} [LinearOrder γ] {rank : α → γ}
    (ranks : ∀ a ∈ l, ∀ b ∈ l, key a < key b ↔ rank a < rank b) : Ordered key l where
  asymm a first b second lower := by
    rw [ranks b second a first, not_lt]
    exact ((ranks a first b second).mp lower).le
  chain a first b second c third := by
    rw [ranks a first b second, ranks b second c third, ranks a first c third, not_lt, not_lt,
      not_lt]
    exact fun lower lower' => lower'.trans lower

theorem Ordered.of_linearOrder {β : Type*} [LinearOrder β] (key : α → β) (l : List α) :
    Ordered key l := .of_rank fun _ _ _ _ => Iff.rfl

/-! ### Sorts -/

/-- A sort by a key, greatest first. -/
structure Descending (key : α → β) where
  sort : List α → List α
  perm : ∀ l, (sort l).Perm l
  pairwise : ∀ l, Ordered key l → (sort l).Pairwise fun a b => ¬ key a < key b

/-- Sorting by merging. -/
def byMerging [DecidableLT β] (key : α → β) : Descending key where
  sort l := l.mergeSort fun a b => ¬ key a < key b
  perm l := List.mergeSort_perm _ _
  pairwise l ordered := by
    -- On the members the comparison is total and transitive.
    let lower (a b : {a // a ∈ l}) : Bool := ¬ key a < key b
    have sorted : (l.attach.mergeSort lower).Pairwise fun a b => lower a b = true := by
      apply List.pairwise_mergeSort
      · intro a b c ab bc
        exact decide_eq_true (ordered.chain a a.2 b b.2 c c.2 (of_decide_eq_true ab)
          (of_decide_eq_true bc))
      · intro a b
        rw [Bool.or_eq_true, decide_eq_true_iff, decide_eq_true_iff]
        by_cases before : key a < key b
        · exact .inr (ordered.asymm a a.2 b b.2 before)
        · exact .inl before
    have same : (l.attach.mergeSort lower).map Subtype.val =
        l.mergeSort fun a b => ¬ key a < key b := by
      have moved := List.map_mergeSort (r := lower) (s := fun a b => ¬ key a < key b)
        (f := Subtype.val) (l := l.attach) fun a _ b _ => rfl
      rwa [List.attach_map_subtype_val] at moved
    rw [← same, List.pairwise_map]
    exact sorted.imp of_decide_eq_true

/-! ### The first elements -/

/-- `k` elements, or all. -/
structure Selected (k : ℕ) (l found : List α) : Prop where
  length_eq : found.length = min k l.length
  subperm : found.Subperm l

theorem Selected.mem (selected : Selected k l found) {a : α} (member : a ∈ found) : a ∈ l :=
  selected.subperm.subset member

/-- Elements that differ in some respect are selected once each. -/
theorem Selected.nodup_map {γ : Type*} {name : α → γ} (selected : Selected k l found)
    (nodup : (l.map name).Nodup) : (found.map name).Nodup := by
  obtain ⟨kept, perm, sublist⟩ := selected.subperm
  exact (perm.map name).nodup_iff.mp (nodup.sublist (sublist.map name))

/-- `k` elements of greatest key, greatest first. -/
structure Greatest (key : α → β) (k : ℕ) (l found : List α) : Prop extends
    Selected k l found where
  sorted : found.Pairwise fun a b => ¬ key a < key b
  complete : ∀ a ∈ l, a ∉ found → ∀ b ∈ found, ¬ key b < key a

namespace Descending

variable (descending : Descending key)

theorem selected_take (k : ℕ) (l : List α) : Selected k l ((descending.sort l).take k) := by
  have perm := descending.perm l
  refine ⟨?_, (List.take_sublist k _).subperm.trans perm.subperm⟩
  rw [List.length_take, perm.length_eq]

/-- Sorting and cutting off selects elements of greatest key. -/
theorem greatest_take (ordered : Ordered key l) (k : ℕ) :
    Greatest key k l ((descending.sort l).take k) := by
  have sorted := descending.pairwise l ordered
  refine ⟨descending.selected_take k l, sorted.sublist (List.take_sublist k _), ?_⟩
  intro a member omitted b selected
  -- What is not among the first is among the rest, and the rest comes later.
  rw [← List.take_append_drop k (descending.sort l)] at sorted
  have there : a ∈ (descending.sort l).take k ++ (descending.sort l).drop k := by
    rw [List.take_append_drop]
    exact (descending.perm l).mem_iff.mpr member
  have later : a ∈ (descending.sort l).drop k := (List.mem_append.mp there).resolve_left omitted
  exact (List.pairwise_append.mp sorted).2.2 b selected a later

end Descending

end Selection

end Foundation
