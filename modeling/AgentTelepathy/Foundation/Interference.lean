import AgentTelepathy.Foundation.Transition
import Mathlib.Data.List.Basic

/-!
# Noninterference by unwinding

Some labels are a party's own, and an equivalence says which states the party
cannot tell apart. If foreign steps lead to states that the party cannot tell
apart from where they started, and own steps lead from such states to such
states, then runs with the same own labels end in states that it cannot tell
apart, whatever foreign steps they are interleaved with.
-/

namespace Foundation

namespace Transition

universe u v

variable {σ : Type u} {α : Type v} {step : σ → α → σ → Prop} {init s t : σ} {as bs : List α}

/-- The unwinding conditions for the runs from a state. -/
structure Unwinds (step : σ → α → σ → Prop) (init : σ) (own : α → Bool) (same : σ → σ → Prop) :
    Prop where
  equivalence : Equivalence same
  foreign : ∀ {as s a t}, Run step init as s → step s a t → own a = false → same t s
  respects : ∀ {as bs s s' a t t'}, Run step init as s → Run step init bs s' → same s s' →
    step s a t → step s' a t' → own a = true → same t t'

variable {own : α → Bool} {same : σ → σ → Prop}

private theorem filter_snoc_of_foreign {a : α} (foreign : own a = false) (as : List α) :
    (as ++ [a]).filter own = as.filter own := by
  rw [List.filter_append, List.filter_cons_of_neg (Bool.not_eq_true _ ▸ foreign), List.filter_nil,
    List.append_nil]

private theorem filter_snoc_of_own {a : α} (isOwn : own a = true) (as : List α) :
    (as ++ [a]).filter own = as.filter own ++ [a] := by
  rw [List.filter_append, List.filter_cons_of_pos isOwn, List.filter_nil]

/-- The run with one more own label ends alike for every run with the same own labels. -/
private theorem Unwinds.last (unwinds : Unwinds step init own same) {a : α} {t' : σ}
    (before : ∀ {bs s'}, Run step init bs s' → as.filter own = bs.filter own → same s s')
    (reaches : Run step init as s) (last : step s a t) (isOwn : own a = true)
    (run : Run step init bs t') (labels : as.filter own ++ [a] = bs.filter own) : same t t' := by
  induction run with
  | nil => cases List.append_ne_nil_of_right_ne_nil _ (List.cons_ne_nil a []) labels
  | @snoc bs s' t' b earlier final ih =>
    cases isOwn' : own b with
    | false =>
      rw [filter_snoc_of_foreign isOwn'] at labels
      exact unwinds.equivalence.trans (ih labels)
        (unwinds.equivalence.symm (unwinds.foreign earlier final isOwn'))
    | true =>
      rw [filter_snoc_of_own isOwn'] at labels
      obtain ⟨earlierLabels, rfl⟩ := List.append_singleton_inj.mp labels
      exact unwinds.respects reaches earlier (before earlier earlierLabels) last final isOwn

/-- Runs with the same own labels end in states that the party cannot tell apart. -/
theorem Unwinds.agree (unwinds : Unwinds step init own same) {t' : σ} (run : Run step init as t)
    (run' : Run step init bs t') (labels : as.filter own = bs.filter own) : same t t' := by
  induction run generalizing bs t' with
  | nil =>
    -- All steps of the other run are foreign.
    induction run' with
    | nil => exact unwinds.equivalence.refl init
    | @snoc bs s' t' b earlier final ih =>
      cases isOwn : own b with
      | false =>
        rw [filter_snoc_of_foreign isOwn] at labels
        exact unwinds.equivalence.trans (ih labels)
          (unwinds.equivalence.symm (unwinds.foreign earlier final isOwn))
      | true =>
        rw [filter_snoc_of_own isOwn] at labels
        cases List.append_ne_nil_of_right_ne_nil _ (List.cons_ne_nil b _) labels.symm
  | @snoc as s t a before last ih =>
    cases isOwn : own a with
    | false =>
      rw [filter_snoc_of_foreign isOwn] at labels
      exact unwinds.equivalence.trans (unwinds.foreign before last isOwn) (ih run' labels)
    | true =>
      rw [filter_snoc_of_own isOwn] at labels
      exact unwinds.last ih before last isOwn run' labels

end Transition

end Foundation
