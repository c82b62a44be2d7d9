import Mathlib.Algebra.Order.Group.Multiset
import Mathlib.Tactic.Abel
import AgentTelepathy.Foundation.Transition

/-!
# Outboxes

An outbox accepts items and completes them. An accepted item is fresh until it
is completed or put into a bounded store; a stored item is taken out of the
store and then completed or put back at the front. A full store makes room at
the other end.

Two laws hold along runs. While at most as many items are outstanding as the
store holds, nothing is lost: every accepted item is completed, stored, fresh or
taken, exactly once. And while items are handled one at a time, oldest first,
they are completed in the order in which they were accepted.
-/

namespace Foundation

open Transition

/-- The items an outbox has accepted and completed, and where the others are. -/
structure Outbox (α : Type*) where
  accepted : List α
  completed : List α
  stored : List α
  fresh : Multiset α
  taken : Multiset α

namespace Outbox

variable {α : Type*} {capacity : ℕ} {s t : Outbox α} {a : α} {rest : Multiset α}

/-- Put an item at the back of a bounded store; a full store drops its front. -/
def pushBack (capacity : ℕ) (stored : List α) (a : α) : List α :=
  if stored.length < capacity then stored ++ [a] else (stored ++ [a]).tail

/-- Put an item at the front of a bounded store; a full store drops its back. -/
def pushFront (capacity : ℕ) (stored : List α) (a : α) : List α :=
  if stored.length < capacity then a :: stored else (a :: stored).dropLast

/-- A store that holds anything is not empty after an item was put into it. -/
theorem pushBack_ne_nil {capacity : ℕ} (room : capacity ≠ 0) (stored : List α) (a : α) :
    pushBack capacity stored a ≠ [] := by
  unfold pushBack
  split_ifs with below
  · exact List.append_ne_nil_of_right_ne_nil stored (List.cons_ne_nil a [])
  · intro empty
    have length := congrArg List.length empty
    rw [List.length_tail, List.length_append, List.length_singleton, List.length_nil] at length
    omega

theorem pushFront_ne_nil {capacity : ℕ} (room : capacity ≠ 0) (stored : List α) (a : α) :
    pushFront capacity stored a ≠ [] := by
  unfold pushFront
  split_ifs with below
  · exact List.cons_ne_nil a stored
  · intro empty
    have length := congrArg List.length empty
    rw [List.length_dropLast, List.length_cons, List.length_nil] at length
    omega

theorem pushBack_sublist (capacity : ℕ) (stored : List α) (a : α) :
    (pushBack capacity stored a).Sublist (stored ++ [a]) := by
  unfold pushBack
  split_ifs
  · exact List.Sublist.refl _
  · exact List.tail_sublist _

theorem pushFront_sublist (capacity : ℕ) (stored : List α) (a : α) :
    (pushFront capacity stored a).Sublist (a :: stored) := by
  unfold pushFront
  split_ifs
  · exact List.Sublist.refl _
  · exact List.dropLast_sublist _

/-- What can happen to one item. -/
inductive Move (α : Type*)
  | accept (a : α)
  | completeFresh (a : α)
  | store (a : α)
  | take (a : α)
  | completeTaken (a : α)
  | putBack (a : α)

/-- The moves of an outbox whose store has the given capacity. -/
inductive Step (capacity : ℕ) : Outbox α → Move α → Outbox α → Prop
  | accept (s : Outbox α) (a : α) :
      Step capacity s (.accept a)
        { s with accepted := s.accepted ++ [a], fresh := a ::ₘ s.fresh }
  | completeFresh {s : Outbox α} {a : α} {rest : Multiset α} (held : s.fresh = a ::ₘ rest) :
      Step capacity s (.completeFresh a)
        { s with completed := s.completed ++ [a], fresh := rest }
  | store {s : Outbox α} {a : α} {rest : Multiset α} (held : s.fresh = a ::ₘ rest) :
      Step capacity s (.store a)
        { s with stored := pushBack capacity s.stored a, fresh := rest }
  | take {s : Outbox α} {a : α} {later : List α} (front : s.stored = a :: later) :
      Step capacity s (.take a) { s with stored := later, taken := a ::ₘ s.taken }
  | completeTaken {s : Outbox α} {a : α} {rest : Multiset α} (held : s.taken = a ::ₘ rest) :
      Step capacity s (.completeTaken a)
        { s with completed := s.completed ++ [a], taken := rest }
  | putBack {s : Outbox α} {a : α} {rest : Multiset α} (held : s.taken = a ::ₘ rest) :
      Step capacity s (.putBack a)
        { s with stored := pushFront capacity s.stored a, taken := rest }

/-! ### Holders

Fresh and taken items are usually held by running tasks. When one task moves
on, the items of the others stay. -/

theorem exists_sum_set {β M : Type*} [AddCommMonoid M] (holds : β → M) {tasks : List β} {i : ℕ}
    {task : β} (running : tasks[i]? = some task) :
    ∃ others, (tasks.map holds).sum = others + holds task ∧
      ∀ task', ((tasks.set i task').map holds).sum = others + holds task' := by
  induction tasks generalizing i with
  | nil => simp at running
  | cons first tasks ih =>
    cases i with
    | zero =>
      obtain rfl : first = task := by simpa using running
      refine ⟨(tasks.map holds).sum, ?_, fun task' => ?_⟩
      · rw [List.map_cons, List.sum_cons, add_comm]
      · rw [List.set_cons_zero, List.map_cons, List.sum_cons, add_comm]
    | succ i =>
      obtain ⟨others, before, after⟩ := ih (by simpa using running)
      refine ⟨holds first + others, ?_, fun task' => ?_⟩
      · rw [List.map_cons, List.sum_cons, before, add_assoc]
      · rw [List.set_cons_succ, List.map_cons, List.sum_cons, after, add_assoc]

/-- A task that held nothing adds what it holds then. -/
theorem sum_set_of_zero {β M : Type*} [AddCommMonoid M] (holds : β → M) {tasks : List β} {i : ℕ}
    {task : β} (running : tasks[i]? = some task) (nothing : holds task = 0) (task' : β) :
    ((tasks.set i task').map holds).sum = (tasks.map holds).sum + holds task' := by
  obtain ⟨others, before, after⟩ := exists_sum_set holds running
  rw [before, after task', nothing, add_zero]

/-- What is held is held by a task. -/
theorem mem_sum_map_iff {β : Type*} (holds : β → Multiset α) {tasks : List β} :
    a ∈ (tasks.map holds).sum ↔ ∃ task ∈ tasks, a ∈ holds task := by
  induction tasks with
  | nil => simp
  | cons task tasks ih => rw [List.map_cons, List.sum_cons, Multiset.mem_add, ih]; simp

/-! ### Nothing is lost -/

/-- Every accepted item is in exactly one place. -/
def Balanced (s : Outbox α) : Prop :=
  (s.accepted : Multiset α) = s.completed + s.stored + s.fresh + s.taken

/-- At most as many items are outstanding as the store holds. -/
def Bounded (capacity : ℕ) (s : Outbox α) : Prop :=
  s.accepted.length ≤ s.completed.length + capacity

theorem Balanced.length_eq (balanced : Balanced s) :
    s.accepted.length =
      s.completed.length + s.stored.length + s.fresh.card + s.taken.card := by
  have cards := congrArg Multiset.card balanced
  simpa only [Multiset.card_add, Multiset.coe_card] using cards

theorem Balanced.room_of_fresh (balanced : Balanced s) (bounded : Bounded capacity s)
    (held : s.fresh = a ::ₘ rest) : s.stored.length < capacity := by
  have cards := balanced.length_eq
  rw [held, Multiset.card_cons] at cards
  unfold Bounded at bounded
  omega

theorem Balanced.room_of_taken (balanced : Balanced s) (bounded : Bounded capacity s)
    (held : s.taken = a ::ₘ rest) : s.stored.length < capacity := by
  have cards := balanced.length_eq
  rw [held, Multiset.card_cons] at cards
  unfold Bounded at bounded
  omega

/-- A move of a bounded outbox loses and duplicates nothing. -/
theorem Balanced.step {move : Move α} (balanced : Balanced s) (bounded : Bounded capacity s)
    (step : Step capacity s move t) : Balanced t := by
  have before : (s.accepted : Multiset α) = s.completed + s.stored + s.fresh + s.taken := balanced
  cases step with
  | accept a =>
    simp only [Balanced, ← Multiset.coe_add, Multiset.coe_singleton, before,
      ← Multiset.singleton_add]
    abel
  | completeFresh held =>
    simp only [Balanced, ← Multiset.coe_add, Multiset.coe_singleton, before, held,
      ← Multiset.singleton_add]
    abel
  | store held =>
    -- The deque still has a place for an item that was held, so nothing is cut off.
    have room := balanced.room_of_fresh bounded held
    simp only [Balanced, pushBack, if_pos room, ← Multiset.coe_add, Multiset.coe_singleton, before,
      held, ← Multiset.singleton_add]
    abel
  | take front =>
    simp only [Balanced, before, front, ← Multiset.cons_coe, ← Multiset.singleton_add]
    abel
  | completeTaken held =>
    simp only [Balanced, ← Multiset.coe_add, Multiset.coe_singleton, before, held,
      ← Multiset.singleton_add]
    abel
  | putBack held =>
    -- The place that the item was taken from is still free.
    have room := balanced.room_of_taken bounded held
    simp only [Balanced, pushFront, if_pos room, ← Multiset.cons_coe, before, held,
      ← Multiset.singleton_add]
    abel

/-- Along a run of a bounded outbox nothing is lost or duplicated. -/
theorem Balanced.run {moves : List (Move α)} (balanced : Balanced s)
    (run : Run (Guarded (Step capacity) fun s _ => Bounded capacity s) s moves t) : Balanced t :=
  run.invariant (fun _ _ _ balanced step => balanced.step step.2 step.1) balanced

/-- An item is accepted only while fewer are outstanding than the store holds. -/
def Roomy (capacity : ℕ) (s : Outbox α) : Move α → Prop
  | .accept _ => s.accepted.length < s.completed.length + capacity
  | _ => True

theorem Bounded.step {move : Move α} (bounded : Bounded capacity s) (roomy : Roomy capacity s move)
    (step : Step capacity s move t) : Bounded capacity t := by
  unfold Bounded at bounded ⊢
  cases step with
  | accept a =>
    rw [List.length_append, List.length_singleton]
    exact roomy
  | completeFresh | completeTaken =>
    refine le_trans bounded ?_
    rw [List.length_append]
    omega
  | store | take | putBack => exact bounded

/-- As long as items are accepted only while they fit, nothing is lost or duplicated. -/
theorem Balanced.run_roomy {moves : List (Move α)} (balanced : Balanced s)
    (bounded : Bounded capacity s)
    (run : Run (Guarded (Step capacity) (Roomy capacity)) s moves t) :
    Balanced t ∧ Bounded capacity t := by
  induction run with
  | nil => exact ⟨balanced, bounded⟩
  | snoc _ step ih => exact ⟨ih.1.step ih.2 step.1, ih.2.step step.2 step.1⟩

/-! ### Nothing is made up -/

/-- Every item that is somewhere was accepted, as often as it is there. -/
def Honest (s : Outbox α) : Prop :=
  (s.completed + s.stored + s.fresh + s.taken : Multiset α) ≤ s.accepted

theorem coe_pushBack_le (capacity : ℕ) (stored : List α) (a : α) :
    (pushBack capacity stored a : Multiset α) ≤ a ::ₘ stored := by
  have fewer := Multiset.coe_le.mpr (pushBack_sublist capacity stored a).subperm
  rwa [← Multiset.coe_add, Multiset.coe_singleton, add_comm, Multiset.singleton_add] at fewer

theorem coe_pushFront_le (capacity : ℕ) (stored : List α) (a : α) :
    (pushFront capacity stored a : Multiset α) ≤ a ::ₘ stored := by
  have fewer := Multiset.coe_le.mpr (pushFront_sublist capacity stored a).subperm
  rwa [← Multiset.cons_coe] at fewer

/-- No move makes up an item, whatever a full store drops. -/
theorem Honest.step {move : Move α} (honest : Honest s) (step : Step capacity s move t) :
    Honest t := by
  have before : (s.completed + s.stored + s.fresh + s.taken : Multiset α) ≤ s.accepted := honest
  cases step with
  | accept a =>
    have more := add_le_add_right before {a}
    refine le_trans (le_of_eq ?_) (le_trans more (le_of_eq ?_))
    · simp only [← Multiset.singleton_add]
      abel
    · rw [← Multiset.coe_add, Multiset.coe_singleton, add_comm]
  | completeFresh held =>
    refine le_trans (le_of_eq ?_) before
    rw [held, ← Multiset.coe_add, Multiset.coe_singleton, ← Multiset.singleton_add]
    abel
  | @store a rest held =>
    have fewer := coe_pushBack_le capacity s.stored a
    refine le_trans ?_ before
    rw [held, ← Multiset.singleton_add]
    rw [← Multiset.singleton_add] at fewer
    calc (s.completed + pushBack capacity s.stored a + rest + s.taken : Multiset α)
        ≤ s.completed + ({a} + s.stored) + rest + s.taken := by gcongr
      _ = s.completed + s.stored + ({a} + rest) + s.taken := by abel
  | take front =>
    refine le_trans (le_of_eq ?_) before
    simp only [front, ← Multiset.cons_coe, ← Multiset.singleton_add]
    abel
  | completeTaken held =>
    refine le_trans (le_of_eq ?_) before
    rw [held, ← Multiset.coe_add, Multiset.coe_singleton, ← Multiset.singleton_add]
    abel
  | @putBack a rest held =>
    have fewer := coe_pushFront_le capacity s.stored a
    refine le_trans ?_ before
    rw [held, ← Multiset.singleton_add]
    rw [← Multiset.singleton_add] at fewer
    calc (s.completed + pushFront capacity s.stored a + s.fresh + rest : Multiset α)
        ≤ s.completed + ({a} + s.stored) + s.fresh + rest := by gcongr
      _ = s.completed + s.stored + s.fresh + ({a} + rest) := by abel

theorem Honest.run {moves : List (Move α)} (honest : Honest s)
    (run : Run (Step capacity) s moves t) : Honest t :=
  run.invariant (fun _ _ _ honest step => honest.step step) honest

/-! ### Oldest first -/

/-- One item is handled at a time: a new one is accepted when no other is fresh,
a fresh one is completed when nothing waits, and one is taken at a time. -/
def Orderly (s : Outbox α) : Move α → Prop
  | .accept _ => s.fresh = 0
  | .completeFresh _ => s.stored = [] ∧ s.taken = 0
  | .take _ => s.taken = 0
  | _ => True

/-- The items, completed ones first, then the one taken, the stored and the
fresh one, stand in the order in which they were accepted. -/
def InOrder (s : Outbox α) : Prop :=
  ∃ taken fresh : Option α, s.taken = (taken.toList : Multiset α) ∧
    s.fresh = (fresh.toList : Multiset α) ∧
    (s.completed ++ taken.toList ++ s.stored ++ fresh.toList).Sublist s.accepted

private theorem toList_eq_of_cons {held : Option α} (h : (held.toList : Multiset α) = a ::ₘ rest) :
    held = some a ∧ rest = 0 := by
  cases held with
  | none => exact absurd h (Multiset.zero_ne_cons)
  | some b =>
    obtain ⟨rfl, rfl⟩ := (Multiset.singleton_eq_cons_iff _).mp h
    exact ⟨rfl, rfl⟩

private theorem toList_eq_zero {held : Option α} (h : (held.toList : Multiset α) = 0) :
    held = none := by
  cases held with
  | none => rfl
  | some b => exact absurd h (Multiset.singleton_ne_zero b)

/-- An orderly move keeps the items in order. -/
theorem InOrder.step {move : Move α} (ordered : InOrder s) (orderly : Orderly s move)
    (step : Step capacity s move t) : InOrder t := by
  obtain ⟨taken, fresh, takenEq, freshEq, sublist⟩ := ordered
  cases step with
  | accept a =>
    obtain rfl := toList_eq_zero (freshEq.symm.trans orderly)
    refine ⟨taken, some a, takenEq, congrArg (a ::ₘ ·) freshEq, ?_⟩
    simpa using sublist.append_right [a]
  | completeFresh held =>
    obtain ⟨rfl, rfl⟩ := toList_eq_of_cons (freshEq.symm.trans held)
    obtain rfl := toList_eq_zero (takenEq.symm.trans orderly.2)
    refine ⟨none, none, takenEq, rfl, ?_⟩
    simpa [orderly.1] using sublist
  | @store item _ held =>
    obtain ⟨rfl, rfl⟩ := toList_eq_of_cons (freshEq.symm.trans held)
    refine ⟨taken, none, takenEq, rfl, ?_⟩
    -- A full deque drops an item, which keeps the order of the others.
    have shorter := (pushBack_sublist capacity s.stored item).append_left (s.completed ++
      taken.toList)
    simpa using shorter.trans (by simpa using sublist)
  | take front =>
    obtain rfl := toList_eq_zero (takenEq.symm.trans orderly)
    refine ⟨some _, fresh, congrArg (_ ::ₘ ·) takenEq, freshEq, ?_⟩
    simpa [front] using sublist
  | completeTaken held =>
    obtain ⟨rfl, rfl⟩ := toList_eq_of_cons (takenEq.symm.trans held)
    refine ⟨none, fresh, rfl, freshEq, ?_⟩
    simpa using sublist
  | @putBack item _ held =>
    obtain ⟨rfl, rfl⟩ := toList_eq_of_cons (takenEq.symm.trans held)
    refine ⟨none, fresh, rfl, freshEq, ?_⟩
    have shorter := ((pushFront_sublist capacity s.stored item).append_left
      s.completed).append_right fresh.toList
    simpa using shorter.trans (by simpa using sublist)

/-- Along an orderly run items are completed in the order of their acceptance. -/
theorem InOrder.run {moves : List (Move α)} (ordered : InOrder s)
    (run : Run (Guarded (Step capacity) Orderly) s moves t) : t.completed.Sublist t.accepted := by
  have atEnd : InOrder t :=
    run.invariant (fun _ _ _ ordered step => ordered.step step.2 step.1) ordered
  obtain ⟨taken, fresh, -, -, sublist⟩ := atEnd
  refine List.Sublist.trans ?_ sublist
  rw [List.append_assoc, List.append_assoc]
  exact List.sublist_append_left _ _

end Outbox

end Foundation
