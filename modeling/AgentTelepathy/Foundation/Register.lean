import Mathlib.Data.Set.Insert
import Mathlib.Order.Lattice

/-!
# Registers that keep a greatest element

Elements are compared by a rank in a linear order. A register keeps what it
holds unless it is offered something of strictly greater rank. It then holds a
greatest element of everything offered, whatever the order, grouping or
repetition of the offers, and the rank of what it holds depends only on the set
of elements seen.
-/

namespace Foundation

namespace Register

variable {α β : Type*} [LinearOrder β] {rank : α → β} {seen more : Set α} {held other : Option α}
  {new : α}

/-- What a register holds after an offer. -/
def offer (rank : α → β) : Option α → α → α
  | none, new => new
  | some old, new => if rank old < rank new then new else old

/-- A register holds a greatest element of those seen, and is empty if there are none. -/
def Holds (rank : α → β) (seen : Set α) : Option α → Prop
  | none => seen = ∅
  | some held => held ∈ seen ∧ ∀ a ∈ seen, rank a ≤ rank held

theorem holds_none : Holds rank ∅ none := rfl

theorem holds_singleton (new : α) : Holds rank {new} (some new) :=
  ⟨rfl, fun a same => by rw [Set.mem_singleton_iff.mp same]⟩

theorem offer_eq_or (rank : α → β) (held : Option α) (new : α) :
    offer rank held new = new ∨ held = some (offer rank held new) := by
  cases held with
  | none => exact .inl rfl
  | some old =>
    by_cases greater : rank old < rank new
    · exact .inl (if_pos greater)
    · exact .inr (congrArg some (if_neg greater).symm)

theorem rank_le_offer_self (held : Option α) (new : α) : rank new ≤ rank (offer rank held new) := by
  cases held with
  | none => exact le_rfl
  | some old =>
    rw [offer]
    split_ifs with greater
    · exact le_rfl
    · exact not_lt.mp greater

theorem rank_le_offer_of_held {old : α} (h : held = some old) :
    rank old ≤ rank (offer rank held new) := by
  subst h
  rw [offer]
  split_ifs with greater
  · exact greater.le
  · exact le_rfl

/-- Offering a greatest element of some set has the effect of seeing the whole set. -/
theorem Holds.offer_greatest (before : Holds rank seen held)
    (greatest : Holds rank more (some new)) :
    Holds rank (seen ∪ more) (some (offer rank held new)) := by
  constructor
  · rcases offer_eq_or rank held new with same | same
    · rw [same]
      exact .inr greatest.1
    · rw [same] at before
      exact .inl before.1
  · rintro a (member | member)
    · cases held with
      | none => exact absurd member (before ▸ Set.notMem_empty a)
      | some old => exact (before.2 a member).trans (rank_le_offer_of_held rfl)
    · exact (greatest.2 a member).trans (rank_le_offer_self held new)

/-- Two registers that have seen the same elements hold elements of one rank. -/
theorem Holds.map_rank_eq (first : Holds rank seen held) (second : Holds rank seen other) :
    held.map rank = other.map rank := by
  cases held with
  | none =>
    cases other with
    | none => rfl
    | some b => exact absurd second.1 (first ▸ Set.notMem_empty b)
  | some a =>
    cases other with
    | none => exact absurd first.1 (second ▸ Set.notMem_empty a)
    | some b =>
      have same : rank a = rank b := le_antisymm (second.2 a first.1) (first.2 b second.1)
      exact congrArg some same

section Table

variable {σ κ γ τ : Type*} [DecidableEq κ] (get : σ → κ → Option α) (write : σ → κ × γ → Option σ)
  (put : Option α → γ → α) (tallied : σ → τ → Prop) (tick : τ → γ → τ) {items : List (κ × γ)}

/-- Writing to distinct keys one by one changes each of them once. -/
theorem exists_foldlM (nodup : (items.map Prod.fst).Nodup)
    (writes : ∀ p ∈ items, ∀ s n, tallied s n → ∃ t, write s p = some t ∧ tallied t (tick n p.2) ∧
      ∀ k, get t k = if k = p.1 then some (put (get s k) p.2) else get s k)
    {s : σ} {n : τ} (before : tallied s n) :
    ∃ t, items.foldlM write s = some t ∧ tallied t (items.foldl (fun n p => tick n p.2) n) ∧
      ∀ k, get t k = (items.lookup k).elim (get s k) fun new => some (put (get s k) new) := by
  induction items generalizing s n with
  | nil => exact ⟨s, rfl, before, fun k => rfl⟩
  | cons p items ih =>
    obtain ⟨fresh, nodup⟩ := List.nodup_cons.mp nodup
    obtain ⟨m, written, tally, first⟩ := writes p List.mem_cons_self s n before
    obtain ⟨t, rest, after, others⟩ :=
      ih nodup (fun q member => writes q (List.mem_cons_of_mem p member)) tally
    refine ⟨t, by rw [List.foldlM_cons, written]; exact rest, after, fun k => ?_⟩
    rw [others, first, List.lookup_cons]
    by_cases same : k = p.1
    -- Keys are distinct, so no later item offers to this one.
    · have absent : items.lookup k = none := by
        rw [List.lookup_eq_none_iff]
        rintro q member
        have other : k ≠ q.1 := by
          rintro rfl
          exact fresh (same ▸ List.mem_map_of_mem member)
        simpa using other
      rw [absent, if_pos same, beq_iff_eq.mpr same]
      rfl
    · rw [if_neg same, beq_eq_false_iff_ne.mpr same]

end Table

end Register

end Foundation
