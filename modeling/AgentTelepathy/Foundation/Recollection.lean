import Mathlib.Algebra.Order.Group.Defs
import AgentTelepathy.Foundation.Dict

/-!
# Caches that forget

A cache records keys, each with a stamp, and forgets keys whose stamp is older than a window:
all of them in a sweep, or a single one. What the cache holds is what its history recorded and
did not forget since. So a key that was recorded and is not held any more has a stamp that
lies back by more than the window, however rare the sweeps are.
-/

namespace Foundation

namespace Recollection

variable {κ α : Type*}

/-- What can happen to a cache. A sweep, or the removal of one key, has the instant for which it
judges the age of a stamp. -/
inductive Act (κ α : Type*)
  | record (k : κ) (stamp : α)
  | sweep (now : α)
  | forget (k : κ) (now : α)

def Act.now : Act κ α → α
  | .record _ stamp => stamp
  | .sweep now => now
  | .forget _ now => now

section Histories

variable [AddCommGroup α] [LinearOrder α] {width : α} {acts : List (Act κ α)} {a : Act κ α}
  {k j : κ} {stamp now clock : α}

/-- An act forgets a key with the given stamp. -/
def Act.Forgets (width : α) (k : κ) (stamp : α) : Act κ α → Prop
  | .record _ _ => False
  | .sweep now => stamp + width < now
  | .forget j now => j = k ∧ stamp + width < now

/-- The key was recorded with the stamp, and not forgotten since. -/
def Recorded (width : α) (acts : List (Act κ α)) (k : κ) (stamp : α) : Prop :=
  ∃ before after, acts = before ++ .record k stamp :: after ∧
    ∀ act ∈ after, ¬ act.Forgets width k stamp

theorem not_recorded_nil (k : κ) (stamp : α) : ¬ Recorded width [] k stamp := by
  rintro ⟨before, after, split, -⟩
  exact List.append_ne_nil_of_right_ne_nil before (List.cons_ne_nil _ _) split.symm

/-- An act adds the key that it records, and takes what it forgets. -/
theorem recorded_snoc_iff : Recorded width (acts ++ [a]) k stamp ↔
    a = .record k stamp ∨ Recorded width acts k stamp ∧ ¬ a.Forgets width k stamp := by
  constructor
  · rintro ⟨before, after, split, kept⟩
    rcases List.eq_nil_or_concat after with rfl | ⟨after', b, rfl⟩
    · exact .inl (List.append_singleton_inj.mp split).2
    · rw [List.concat_eq_append] at split kept
      obtain ⟨split', rfl⟩ : acts = before ++ .record k stamp :: after' ∧ a = b := by
        apply List.append_singleton_inj.mp
        rw [split, List.append_assoc, List.cons_append]
      refine .inr ⟨⟨before, after', split', fun act member => ?_⟩, ?_⟩
      · exact kept act (List.mem_append_left _ member)
      · exact kept a (List.mem_append_right _ (List.mem_singleton.mpr rfl))
  · rintro (rfl | ⟨⟨before, after, rfl, kept⟩, keeps⟩)
    · exact ⟨acts, [], rfl, fun act member => absurd member List.not_mem_nil⟩
    · refine ⟨before, after ++ [a], by simp, fun act member => ?_⟩
      rcases List.mem_append.mp member with earlier | last
      · exact kept act earlier
      · obtain rfl := List.mem_singleton.mp last
        exact keeps

/-- A key that was recorded is still recorded, or an act has forgotten it. -/
theorem recorded_or_forgotten (member : .record k stamp ∈ acts) :
    Recorded width acts k stamp ∨ ∃ act ∈ acts, act.Forgets width k stamp := by
  obtain ⟨before, after, rfl⟩ := List.append_of_mem member
  by_cases kept : ∀ act ∈ after, ¬ act.Forgets width k stamp
  · exact .inl ⟨before, after, rfl, kept⟩
  · push Not at kept
    obtain ⟨act, later, forgets⟩ := kept
    exact .inr ⟨act, List.mem_append_right _ (List.mem_cons_of_mem _ later), forgets⟩

theorem Act.Forgets.lt_now (forgets : a.Forgets width k stamp) : stamp + width < a.now := by
  cases a with
  | record => exact forgets.elim
  | sweep => exact forgets
  | forget => exact forgets.2

/-- Where the instants ascend, no act before a record can forget it. -/
theorem recorded_iff_of_ascending [IsOrderedAddMonoid α] (positive : 0 ≤ width)
    (ascending : acts.Pairwise fun a b => a.now ≤ b.now) : Recorded width acts k stamp ↔
      .record k stamp ∈ acts ∧ ∀ act ∈ acts, ¬ act.Forgets width k stamp := by
  constructor
  · rintro ⟨before, after, rfl, kept⟩
    refine ⟨List.mem_append_right _ List.mem_cons_self, fun act member forgets => ?_⟩
    rcases List.mem_append.mp member with earlier | later
    · have order : act.now ≤ stamp :=
        (List.pairwise_append.mp ascending).2.2 act earlier _ List.mem_cons_self
      exact absurd (forgets.lt_now.trans_le order) (not_lt.mpr (le_add_of_nonneg_right positive))
    · rcases List.mem_cons.mp later with rfl | behind
      · exact forgets
      · exact kept act behind forgets
  · rintro ⟨member, kept⟩
    obtain ⟨before, after, rfl⟩ := List.append_of_mem member
    exact ⟨before, after, rfl, fun act later =>
      kept act (List.mem_append_right _ (List.mem_cons_of_mem _ later))⟩

end Histories

/-! ### The cache of a history -/

section Cache

variable [DecidableEq κ] [AddCommGroup α] [LinearOrder α] {width : α} {acts : List (Act κ α)}
  {d : Dict κ α} {k : κ} {stamp now clock later : α}

/-- Forget every key whose stamp is outside the window. -/
def sweep (width now : α) (d : Dict κ α) : Dict κ α := d.filter fun entry => now ≤ entry.2 + width

/-- Forget one key, if its stamp is outside the window. -/
def forget (width : α) (k : κ) (now : α) (d : Dict κ α) : Dict κ α :=
  if (d.get? k).any (fun stamp => stamp + width < now) then d.erase k else d

/-- A cache, with the history that led to it until the clock showed a time. -/
structure Follows (width clock : α) (acts : List (Act κ α)) (d : Dict κ α) : Prop where
  holds : ∀ k stamp, d.get? k = some stamp ↔ Recorded width acts k stamp
  past : ∀ act ∈ acts, act.now ≤ clock

namespace Follows

theorem empty (width clock : α) : Follows width clock [] (Dict.empty : Dict κ α) where
  holds k stamp := iff_of_false (by simp) (not_recorded_nil k stamp)
  past := fun act member => absurd member List.not_mem_nil

theorem mono (follows : Follows width clock acts d) (goesOn : clock ≤ later) :
    Follows width later acts d :=
  { follows with past := fun act member => (follows.past act member).trans goesOn }

theorem contains_iff (follows : Follows width clock acts d) :
    d.contains k = true ↔ ∃ stamp, Recorded width acts k stamp := by
  simp only [Dict.contains, Option.isSome_iff_exists, follows.holds]

/-- A record of a key that is not held any more lies back by more than the window. -/
theorem stale (follows : Follows width clock acts d) (absent : d.get? k = none)
    (member : .record k stamp ∈ acts) : stamp + width < clock := by
  have either : Recorded width acts k stamp ∨ ∃ act ∈ acts, act.Forgets width k stamp :=
    recorded_or_forgotten member
  rcases either with recorded | ⟨act, member', forgets⟩
  · rw [← follows.holds, absent] at recorded
    cases recorded
  · exact forgets.lt_now.trans_le (follows.past act member')

/-- An act of the present comes last. -/
theorem ascending_snoc {a : Act κ α} (follows : Follows width clock acts d)
    (ascending : acts.Pairwise fun a b => a.now ≤ b.now) (present : clock ≤ a.now) :
    (acts ++ [a]).Pairwise fun a b => a.now ≤ b.now := by
  rw [List.pairwise_append]
  refine ⟨ascending, List.pairwise_singleton _ _, fun act before last member => ?_⟩
  obtain rfl := List.mem_singleton.mp member
  exact (follows.past act before).trans present

omit [DecidableEq κ] [AddCommGroup α] in
private theorem past_snoc {a : Act κ α} (past : ∀ act ∈ acts, act.now ≤ clock)
    (last : a.now ≤ clock) : ∀ act ∈ acts ++ [a], act.now ≤ clock := by
  intro act member
  rcases List.mem_append.mp member with earlier | here
  · exact past act earlier
  · obtain rfl := List.mem_singleton.mp here
    exact last

/-- A key that is not held is recorded. -/
theorem record (follows : Follows width clock acts d) (absent : d.get? k = none)
    (past : stamp ≤ clock) : Follows width clock (acts ++ [.record k stamp]) (d.set k stamp) := by
  have unheld (other : α) : ¬ Recorded width acts k other := by
    rw [← follows.holds k other, absent]
    nofun
  refine ⟨fun j other => ?_, past_snoc follows.past past⟩
  rw [recorded_snoc_iff, Dict.get?_set]
  by_cases same : j = k
  · subst same
    rw [if_pos rfl, Option.some.injEq]
    constructor
    · rintro rfl
      exact .inl rfl
    · rintro (equal | ⟨recorded, -⟩)
      · injection equal
      · exact absurd recorded (unheld other)
  · rw [if_neg same, follows.holds]
    constructor
    · exact fun recorded => .inr ⟨recorded, id⟩
    · rintro (equal | ⟨recorded, -⟩)
      · injection equal with key
        exact absurd key.symm same
      · exact recorded

theorem sweep (follows : Follows width clock acts d) (past : now ≤ clock) :
    Follows width clock (acts ++ [.sweep now]) (sweep width now d) := by
  refine ⟨fun j other => ?_, past_snoc follows.past past⟩
  rw [recorded_snoc_iff, Recollection.sweep, Dict.get?_filter_eq_some_iff, decide_eq_true_iff,
    follows.holds, Act.Forgets, not_lt, or_iff_right]
  nofun

theorem get?_forget (d : Dict κ α) (j : κ) (other : α) :
    (forget width k now d).get? j = some other ↔
      d.get? j = some other ∧ ¬ (k = j ∧ other + width < now) := by
  unfold forget
  by_cases same : k = j
  · subst same
    cases held : d.get? k with
    | none => simp [held]
    | some stamp =>
      by_cases old : stamp + width < now
      · simp only [Option.any_some, old, decide_true, if_true, Dict.get?_erase_self]
        refine iff_of_false (by simp) ?_
        rintro ⟨equal, young⟩
        obtain rfl := Option.some.inj equal
        exact young ⟨trivial, old⟩
      · simp only [Option.any_some, old, decide_false, Bool.false_eq_true, if_false, held,
          Option.some.injEq, true_and]
        refine (and_iff_left_of_imp ?_).symm
        rintro rfl
        exact old
  · split_ifs
    · simp [Dict.get?_erase_of_ne (Ne.symm same), same]
    · simp [same]

theorem forget (follows : Follows width clock acts d) (k : κ) (past : now ≤ clock) :
    Follows width clock (acts ++ [.forget k now]) (forget width k now d) := by
  refine ⟨fun j other => ?_, past_snoc follows.past past⟩
  rw [recorded_snoc_iff, get?_forget, follows.holds, Act.Forgets, or_iff_right]
  nofun

end Follows

end Cache

end Recollection

end Foundation
