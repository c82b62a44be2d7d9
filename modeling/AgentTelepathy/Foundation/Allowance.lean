import Mathlib.Algebra.Order.Field.Basic
import Mathlib.Tactic.Linarith
import Mathlib.Tactic.Ring
import AgentTelepathy.Foundation.Transition

/-!
# Allowances

An account is refilled at a constant rate up to a cap, and what is spent leaves its balance.
Whatever is spent when, in no interval of time is more spent than the cap and what is refilled
meanwhile: the first call in the interval finds at most the cap, and from then on only refills
add to the balance.
-/

namespace Foundation

open Transition

/-- A balance, and the time at which it was last brought up to date. -/
structure Account (K : Type*) where
  balance : K
  last : K

namespace Account

variable {K : Type*} [Field K] [LinearOrder K] {rate cap s t : K} {a b : Account K} {call : K × K}
  {calls : List (K × K)}

/-- At the time of a call an account is brought up to date, and some amount is spent. -/
structure Spends (rate cap : K) (a : Account K) (call : K × K) (b : Account K) : Prop where
  later : a.last ≤ call.1
  amount : 0 ≤ call.2
  last : b.last = call.1
  solvent : 0 ≤ b.balance
  covered : b.balance + call.2 ≤ min cap (a.balance + (call.1 - a.last) * rate)

/-- What the calls in an interval of time spend. -/
def spentIn (s t : K) (calls : List (K × K)) : K :=
  ((calls.filter fun call => s ≤ call.1 ∧ call.1 ≤ t).map Prod.snd).sum

theorem spentIn_snoc_of_inside (inside : s ≤ call.1 ∧ call.1 ≤ t) :
    spentIn s t (calls ++ [call]) = spentIn s t calls + call.2 := by
  simp [spentIn, inside]

theorem spentIn_snoc_of_outside (outside : ¬(s ≤ call.1 ∧ call.1 ≤ t)) :
    spentIn s t (calls ++ [call]) = spentIn s t calls := by
  rw [spentIn, List.filter_append, List.filter_cons_of_neg (by simpa using outside),
    List.filter_nil, List.append_nil, spentIn]

/-- The balance stays between nothing and the cap. -/
def Sound (cap : K) (a : Account K) : Prop := 0 ≤ a.balance ∧ a.balance ≤ cap

/-- What was spent in an interval, beside the balance at the last call. -/
structure Kept (rate cap s t : K) (spent : K) (a : Account K) : Prop where
  before : a.last < s → spent = 0
  during : s ≤ a.last → a.last ≤ t → spent + a.balance ≤ cap + (a.last - s) * rate

variable [IsStrictOrderedRing K]

theorem Spends.sound (step : Spends rate cap a call b) : b.Sound cap := by
  have covered := step.covered.trans (min_le_left _ _)
  exact ⟨step.solvent, by linarith [step.amount]⟩

theorem sound_of_run (run : Run (Spends rate cap) a calls b) (sound : a.Sound cap) :
    b.Sound cap := run.invariant (fun _ _ _ _ step => step.sound) sound

theorem Kept.init (positive : 0 ≤ rate) (sound : a.Sound cap) : Kept rate cap s t 0 a := by
  refine ⟨fun _ => rfl, fun from' _ => ?_⟩
  have elapsed : 0 ≤ (a.last - s) * rate := mul_nonneg (sub_nonneg.mpr from') positive
  linarith [sound.2]

theorem Kept.step (positive : 0 ≤ rate) (kept : Kept rate cap s t (spentIn s t calls) a)
    (step : Spends rate cap a call b) :
    Kept rate cap s t (spentIn s t (calls ++ [call])) b := by
  have full := step.covered.trans (min_le_left _ _)
  have refilled := step.covered.trans (min_le_right _ _)
  constructor
  · intro early
    rw [step.last] at early
    rw [spentIn_snoc_of_outside fun inside => absurd inside.1 (not_le.mpr early)]
    exact kept.before (step.later.trans_lt early)
  · intro from' to'
    rw [step.last] at from' to' ⊢
    rw [spentIn_snoc_of_inside ⟨from', to'⟩]
    by_cases first : a.last < s
    · -- The first call in the interval finds at most the cap.
      have elapsed : 0 ≤ (call.1 - s) * rate := mul_nonneg (sub_nonneg.mpr from') positive
      rw [kept.before first]
      linarith
    · have earlier := kept.during (not_lt.mp first) (step.later.trans to')
      have elapsed : (a.last - s) * rate + (call.1 - a.last) * rate = (call.1 - s) * rate := by
        ring
      linarith

theorem kept_of_run (positive : 0 ≤ rate) (run : Run (Spends rate cap) a calls b)
    (sound : a.Sound cap) : Kept rate cap s t (spentIn s t calls) b := by
  induction run with
  | nil => exact .init positive sound
  | snoc _ last ih => exact ih.step positive last

/-- In no interval is more spent than the cap and what is refilled in it. -/
theorem spentIn_le (positive : 0 ≤ rate) (ordered : s ≤ t) (run : Run (Spends rate cap) a calls b)
    (sound : a.Sound cap) : spentIn s t calls ≤ cap + (t - s) * rate := by
  induction run with
  | nil =>
    have span : 0 ≤ (t - s) * rate := mul_nonneg (sub_nonneg.mpr ordered) positive
    change (0 : K) ≤ _
    linarith [sound.1, sound.2]
  | @snoc calls _ b call before last ih =>
    by_cases inside : s ≤ call.1 ∧ call.1 ≤ t
    · -- What is left after a call in the interval is not negative.
      have kept := kept_of_run (s := s) (t := t) positive (before.snoc last) sound
      have spent := kept.during (last.last ▸ inside.1) (last.last ▸ inside.2)
      have span : (b.last - s) * rate ≤ (t - s) * rate :=
        mul_le_mul_of_nonneg_right (by linarith [last.last, inside.2]) positive
      linarith [last.solvent]
    · rw [spentIn_snoc_of_outside inside]
      exact ih

end Account

end Foundation
