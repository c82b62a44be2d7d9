import Mathlib.Data.List.Perm.Basic

/-!
# Calls in flight

Many calls are in flight at once, in the order in which they began. A step begins one more at the
end, or replaces one of them by what it goes on as. A relation between any two calls is kept
where the new call, or the one that went on, is related to all others.
-/

namespace Foundation

namespace Calls

variable {τ : Type*} {calls : List τ} {call : τ}

theorem getElem?_snoc {j : ℕ} {other : τ} (there : (calls ++ [call])[j]? = some other) :
    calls[j]? = some other ∨ j = calls.length ∧ other = call := by
  by_cases inside : j < calls.length
  · rw [List.getElem?_append_left inside] at there
    exact .inl there
  · have only : j - calls.length = 0 := by
      by_contra beyond
      rw [List.getElem?_append_right (Nat.le_of_not_lt inside), List.getElem?_eq_none] at there
      · cases there
      · exact Nat.pos_of_ne_zero beyond
    obtain rfl : j = calls.length := by omega
    rw [List.getElem?_concat_length] at there
    exact .inr ⟨rfl, (Option.some.inj there).symm⟩

theorem getElem?_set_of_held {i j : ℕ} {other call' : τ}
    (there : (calls.set i call')[j]? = some other) :
    j = i ∧ other = call' ∨ j ≠ i ∧ calls[j]? = some other := by
  rw [List.getElem?_set] at there
  split_ifs at there with same inside
  · exact .inl ⟨same.symm, (Option.some.inj there).symm⟩
  · exact .inr ⟨Ne.symm same, there⟩

/-- How many calls meet a condition, when one goes on. -/
theorem countP_set_add {i : ℕ} (held : calls[i]? = some call) (p : τ → Bool) (call' : τ) :
    (calls.set i call').countP p + (if p call then 1 else 0) =
      calls.countP p + if p call' then 1 else 0 := by
  obtain ⟨inside, rfl⟩ := List.getElem?_eq_some_iff.mp held
  have counted := List.boole_getElem_le_countP (p := p) inside
  rw [List.countP_set inside]
  omega

/-- How many calls meet a condition, when one is over. -/
theorem countP_eraseIdx_add {i : ℕ} (held : calls[i]? = some call) (p : τ → Bool) :
    (calls.eraseIdx i).countP p + (if p call then 1 else 0) = calls.countP p := by
  obtain ⟨inside, rfl⟩ := List.getElem?_eq_some_iff.mp held
  rw [← (List.getElem_cons_eraseIdx_perm inside).countP_eq p, List.countP_cons]

/-- Some call has a property that the one which goes on does not lose. -/
theorem exists_mem_set_iff {i : ℕ} {call' : τ} {p : τ → Prop} (held : calls[i]? = some call)
    (kept : p call → p call') :
    (∃ other ∈ calls.set i call', p other) ↔ p call' ∨ ∃ other ∈ calls, p other := by
  have inside : i < calls.length := (List.getElem?_eq_some_iff.mp held).1
  constructor
  · rintro ⟨other, member, holds⟩
    rcases List.mem_or_eq_of_mem_set member with old | rfl
    · exact .inr ⟨other, old, holds⟩
    · exact .inl holds
  · rintro (holds | ⟨other, member, holds⟩)
    · exact ⟨call', List.mem_set inside call', holds⟩
    · obtain ⟨j, there⟩ := List.getElem?_of_mem member
      by_cases same : i = j
      · subst same
        obtain rfl := Option.some.inj (held.symm.trans there)
        exact ⟨call', List.mem_set inside call', kept holds⟩
      · refine ⟨other, List.mem_of_getElem? (i := j) ?_, holds⟩
        rwa [List.getElem?_set_ne same]

theorem exists_mem_snoc_iff {p : τ → Prop} :
    (∃ other ∈ calls ++ [call], p other) ↔ p call ∨ ∃ other ∈ calls, p other := by
  simp only [List.mem_append, List.mem_singleton, or_and_right, exists_or, exists_eq_left, or_comm]

/-- Any two calls are related. -/
def Pairs (r : τ → τ → Prop) (calls : List τ) : Prop :=
  ∀ (i j : ℕ) (a b : τ), i ≠ j → calls[i]? = some a → calls[j]? = some b → r a b

theorem Pairs.nil (r : τ → τ → Prop) : Pairs r [] := fun _ _ _ _ _ there => by cases there

theorem Pairs.set {r : τ → τ → Prop} {i : ℕ} {call' : τ} (symmetric : ∀ {a b}, r a b → r b a)
    (pairs : Pairs r calls)
    (new : ∀ (j : ℕ) b, j ≠ i → calls[j]? = some b → r call' b) : Pairs r (calls.set i call') := by
  intro j k a b ne first second
  rcases getElem?_set_of_held first with ⟨rfl, rfl⟩ | ⟨ne', first'⟩ <;>
    rcases getElem?_set_of_held second with ⟨rfl, rfl⟩ | ⟨ne'', second'⟩
  · exact absurd rfl ne
  · exact new k b ne'' second'
  · exact symmetric (new j a ne' first')
  · exact pairs j k a b ne first' second'

theorem Pairs.snoc {r : τ → τ → Prop} (symmetric : ∀ {a b}, r a b → r b a) (pairs : Pairs r calls)
    (new : ∀ b ∈ calls, r call b) : Pairs r (calls ++ [call]) := by
  intro j k a b ne first second
  rcases getElem?_snoc first with first' | ⟨rfl, rfl⟩ <;>
    rcases getElem?_snoc second with second' | ⟨rfl, rfl⟩
  · exact pairs j k a b ne first' second'
  · exact symmetric (new a (List.mem_of_getElem? first'))
  · exact new b (List.mem_of_getElem? second')
  · exact absurd rfl ne

end Calls

end Foundation
