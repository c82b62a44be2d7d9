import Mathlib.Data.Nat.Notation
import Mathlib.Tactic.SplitIfs
import AgentTelepathy.Foundation.Transition

/-!
# Write-through caches

Calls write to a memory and through it to a disk, each call a list of writes.
A write takes the lock, changes the memory, and if that asks for an update of the
disk, executes the update and commits before it releases the lock; every one of
these is an await, and calls interleave at awaits. Only committed updates survive.

Whatever relation between disk and memory one write preserves, holds between the
committed disk and the memory whenever no call is in progress.
-/

namespace Foundation

open Transition

/-- What a write does to the memory at once, with the update it asks for; and
what an update does to the disk. A write that must not happen has no result. -/
structure WriteThrough (W M U D : Type*) where
  write : M → W → Option (M × Option U)
  update : D → U → D

namespace WriteThrough

variable {W M U D : Type*}

/-- A call, by the await at which it is suspended, with the writes that come later. -/
inductive Call (W U : Type*)
  | acquiring (w : W) (later : List W)
  | executing (u : U) (later : List W)
  | committing (later : List W)
  | done

/-- Whether a call holds the lock. -/
def Call.holds : Call W U → Bool
  | .executing _ _ | .committing _ => true
  | _ => false

/-- The call of some writes, up to its first await. -/
def Call.start : List W → Call W U
  | [] => .done
  | w :: later => .acquiring w later

/-- A cache: its memory, the disk with and without what is not committed, the
call that holds the lock, and all calls. -/
structure State (W M U D : Type*) where
  memory : M
  working : D
  committed : D
  lock : Option ℕ
  calls : List (Call W U)

/-- What can happen between two awaits. -/
inductive Event (W : Type*)
  | call (writes : List W)
  | resume (i : ℕ)

variable (c : WriteThrough W M U D)

/-- A cache without calls. -/
def init (memory : M) (disk : D) : State W M U D := ⟨memory, disk, disk, none, []⟩

/-- Run the `i`-th call from its await to the next one, if it is possible. -/
def resume (s : State W M U D) (i : ℕ) : Call W U → Option (State W M U D)
  | .acquiring w later =>
    match s.lock, c.write s.memory w with
    | none, some (memory, some u) =>
      some { s with memory, lock := some i, calls := s.calls.set i (.executing u later) }
    | none, some (memory, none) => some { s with memory, calls := s.calls.set i (.start later) }
    | _, _ => none
  | .executing u later =>
    some { s with working := c.update s.working u, calls := s.calls.set i (.committing later) }
  | .committing later =>
    -- The commit makes every executed update last, and then the lock is released.
    some { s with committed := s.working, lock := none, calls := s.calls.set i (.start later) }
  | .done => none

/-- One event, if it is possible. -/
def next (s : State W M U D) : Event W → Option (State W M U D)
  | .call writes => some { s with calls := s.calls ++ [.start writes] }
  | .resume i => s.calls[i]?.bind (c.resume s i)

/-- No call is in progress. -/
def Quiescent (s : State W M U D) : Prop := ∀ call ∈ s.calls, call = .done

/-! ### The memory -/

variable {c} {s t : State W M U D} {event : Event W} {events : List (Event W)} {i : ℕ}

/-- The inversion of a resumed call: each await moves to the next one. -/
theorem resume_cases {call : Call W U} (resumed : c.resume s i call = some t) :
    (∃ w later memory, call = .acquiring w later ∧ s.lock = none ∧
      ((∃ u, c.write s.memory w = some (memory, some u) ∧
        t = { s with memory, lock := some i, calls := s.calls.set i (.executing u later) }) ∨
      c.write s.memory w = some (memory, none) ∧
        t = { s with memory, calls := s.calls.set i (.start later) })) ∨
    (∃ u later, call = .executing u later ∧
      t = { s with working := c.update s.working u, calls := s.calls.set i (.committing later) }) ∨
    ∃ later, call = .committing later ∧
      t = { s with
        committed := s.working
        lock := none
        calls := s.calls.set i (.start later) } := by
  cases call with
  | acquiring w later =>
    rw [resume] at resumed
    split at resumed
    · next memory u free written =>
      exact .inl ⟨w, later, memory, rfl, free, .inl ⟨u, written, (Option.some.inj resumed).symm⟩⟩
    · next memory free written =>
      exact .inl ⟨w, later, memory, rfl, free, .inr ⟨written, (Option.some.inj resumed).symm⟩⟩
    · cases resumed
  | executing u later => exact .inr (.inl ⟨u, later, rfl, (Option.some.inj resumed).symm⟩)
  | committing later => exact .inr (.inr ⟨later, rfl, (Option.some.inj resumed).symm⟩)
  | done => cases resumed

/-- What every write keeps is kept. -/
theorem memory_of_run {inv : M → Prop}
    (kept : ∀ m w m' u, inv m → c.write m w = some (m', u) → inv m')
    (run : Run (OfPartial c.next) s events t) (initially : inv s.memory) : inv t.memory := by
  have preserved : ∀ (s : State W M U D) (event : Event W) (t : State W M U D),
      inv s.memory → c.next s event = some t → inv t.memory := by
    intro s event t before step
    cases event with
    | call writes =>
      cases step
      exact before
    | resume i =>
      obtain ⟨call, -, resumed⟩ := Option.bind_eq_some_iff.mp step
      obtain ⟨w, later, memory, -, -, ⟨u, written, rfl⟩ | ⟨written, rfl⟩⟩ |
        ⟨u, later, -, rfl⟩ | ⟨later, -, rfl⟩ := resume_cases resumed
      · exact kept _ _ _ _ before written
      · exact kept _ _ _ _ before written
      · exact before
      · exact before
  have reached := run.invariant preserved initially
  exact reached

/-! ### The disk -/

/-- The disk that a call leaves once it has executed its update. -/
def settled (c : WriteThrough W M U D) (working : D) : Call W U → D
  | .executing u _ => c.update working u
  | _ => working

/-- The lock is held by the only call that persists, if there is one; the disk it
leaves is related to the memory. -/
structure Mirrored (c : WriteThrough W M U D) (mirrors : D → M → Prop) (s : State W M U D) :
    Prop where
  holder : ∀ i call, s.calls[i]? = some call → call.holds = true → s.lock = some i
  free : s.lock = none → s.committed = s.working ∧ mirrors s.working s.memory
  held : ∀ i, s.lock = some i → ∃ call, s.calls[i]? = some call ∧ call.holds = true ∧
    mirrors (settled c s.working call) s.memory

@[simp] theorem Call.holds_start (writes : List W) :
    (Call.start writes : Call W U).holds = false := by cases writes <;> rfl

/-- Calls after one has moved. -/
theorem getElem?_moved {calls : List (Call W U)} {call call' found : Call W U} {j : ℕ}
    (here : calls[i]? = some call) (there : (calls.set i call')[j]? = some found) :
    j = i ∧ found = call' ∨ j ≠ i ∧ calls[j]? = some found := by
  by_cases same : j = i
  · subst same
    rw [List.getElem?_set_self (List.getElem?_eq_some_iff.mp here).1] at there
    exact .inl ⟨rfl, (Option.some.inj there).symm⟩
  · rw [List.getElem?_set_ne (Ne.symm same)] at there
    exact .inr ⟨same, there⟩

/-- After a call has moved and does not hold the lock, only another one can. -/
theorem held_elsewhere {calls : List (Call W U)} {call call' found : Call W U} {j : ℕ}
    (here : calls[i]? = some call) (released : call'.holds = false)
    (there : (calls.set i call')[j]? = some found) (holds : found.holds = true) :
    j ≠ i ∧ calls[j]? = some found := by
  rcases getElem?_moved here there with ⟨-, rfl⟩ | elsewhere
  · rw [released] at holds
    cases holds
  · exact elsewhere

section Mirror

variable {mirrors : D → M → Prop}
  (silent : ∀ d m w m', mirrors d m → c.write m w = some (m', none) → mirrors d m')
  (through : ∀ d m w m' u, mirrors d m → c.write m w = some (m', some u) →
    mirrors (c.update d u) m')
include silent through

theorem Mirrored.next (before : Mirrored c mirrors s) (step : c.next s event = some t) :
    Mirrored c mirrors t := by
  cases event with
  | call writes =>
    cases step
    refine ⟨?_, before.free, ?_⟩
    · intro j call found holds
      rw [List.getElem?_append] at found
      split_ifs at found
      · exact before.holder j call found holds
      · rw [List.mem_singleton.mp (List.mem_of_getElem? found), Call.holds_start] at holds
        cases holds
    · intro j held
      obtain ⟨call, found, rest⟩ := before.held j held
      refine ⟨call, ?_, rest⟩
      rw [List.getElem?_append_left (List.getElem?_eq_some_iff.mp found).1, found]
  | resume i =>
    obtain ⟨call, here, resumed⟩ := Option.bind_eq_some_iff.mp step
    have moved (call' : Call W U) : (s.calls.set i call')[i]? = some call' :=
      List.getElem?_set_self (List.getElem?_eq_some_iff.mp here).1
    obtain ⟨w, later, memory, rfl, free, ⟨u, written, rfl⟩ | ⟨written, rfl⟩⟩ |
      ⟨u, later, rfl, rfl⟩ | ⟨later, rfl, rfl⟩ := resume_cases resumed
    · -- The lock is taken.
      obtain ⟨-, mirrored⟩ := before.free free
      refine ⟨?_, nofun, ?_⟩
      · intro j call found holds
        rcases getElem?_moved here found with ⟨rfl, -⟩ | ⟨-, old⟩
        · rfl
        · rw [before.holder j call old holds] at free
          cases free
      · rintro j held
        obtain rfl := Option.some.inj held
        exact ⟨_, moved _, rfl, through _ _ _ _ _ mirrored written⟩
    · -- Nothing is to be written, and the next write of the call waits for the lock.
      obtain ⟨same, mirrored⟩ := before.free free
      refine ⟨?_, fun _ => ⟨same, silent _ _ _ _ mirrored written⟩, ?_⟩
      · intro j call found holds
        exact before.holder j call (held_elsewhere here (Call.holds_start later) found holds).2
          holds
      · intro j held
        rw [free] at held
        cases held
    · -- The update catches up with the memory, and the lock stays with the call.
      have lock := before.holder i _ here rfl
      obtain ⟨call, found, -, mirrored⟩ := before.held i lock
      obtain rfl := Option.some.inj (here.symm.trans found)
      refine ⟨?_, ?_, ?_⟩
      · intro j call found holds
        rcases getElem?_moved here found with ⟨rfl, -⟩ | ⟨-, old⟩
        · exact lock
        · exact before.holder j call old holds
      · intro none'
        rw [lock] at none'
        cases none'
      · intro j held
        obtain rfl := Option.some.inj (lock.symm.trans held)
        exact ⟨_, moved _, rfl, mirrored⟩
    · -- The lock is released, and the update is there to stay.
      have lock := before.holder i _ here rfl
      obtain ⟨call, found, -, mirrored⟩ := before.held i lock
      obtain rfl := Option.some.inj (here.symm.trans found)
      refine ⟨?_, fun _ => ⟨rfl, mirrored⟩, nofun⟩
      intro j call found holds
      obtain ⟨other, old⟩ := held_elsewhere here (Call.holds_start later) found holds
      exact absurd (Option.some.inj ((before.holder j call old holds).symm.trans lock)) other

/-- Whenever no call is in progress, the committed disk mirrors the memory. -/
theorem mirrors_of_run {memory : M} {disk : D} (initially : mirrors disk memory)
    (run : Run (OfPartial c.next) (init memory disk) events t) (quiescent : Quiescent t) :
    mirrors t.committed t.memory := by
  have start : Mirrored c mirrors (init memory disk) :=
    ⟨fun _ _ found => absurd (List.mem_of_getElem? found) List.not_mem_nil,
      fun _ => ⟨rfl, initially⟩, nofun⟩
  have mirrored : Mirrored c mirrors t :=
    run.invariant (fun _ _ _ before step => before.next silent through step) start
  cases lock : t.lock with
  | none =>
    obtain ⟨same, holds⟩ := mirrored.free lock
    rwa [same]
  | some i =>
    obtain ⟨call, found, holds, -⟩ := mirrored.held i lock
    rw [quiescent call (List.mem_of_getElem? found)] at holds
    cases holds

end Mirror

end WriteThrough

end Foundation
