import Mathlib.Order.Lattice
import Mathlib.Order.BoundedOrder.Basic
import Mathlib.Data.List.Basic
import Mathlib.Tactic.SplitIfs
import Mathlib.Order.MinMax

/-!
# Caches that read their store late

A cell is cached in memory, by a value in a linear order, and stored. A write that
exceeds the memory replaces it, and once the store is connected it replaces what is
stored as well, unseen. After some writes the stored value, if there is one, is read into
the memory, unseen too. With both replacements blind the two values can go back, and the
greatest of all values can be lost.

It is not lost, and nothing goes back, exactly if the first write that goes through
before the reading is not below what is stored; or, without such a write, the memory is
not above what is stored, or nothing is stored and nothing was in memory that a later
write does not exceed.
-/

namespace Foundation

/-- What memory and store hold; the least value stands for nothing. -/
structure Cell (α : Type*) where
  memory : α
  store : α

namespace Cell

variable {α : Type*} [LinearOrder α]

/-- A write to the memory alone. -/
def put (c : Cell α) (a : α) : Cell α := { c with memory := max c.memory a }

/-- A write through to the store. -/
def putThrough (c : Cell α) (a : α) : Cell α := if c.memory < a then ⟨a, a⟩ else c

/-- The stored value is read into the memory. -/
def read [OrderBot α] (c : Cell α) : Cell α := if c.store = ⊥ then c else ⟨c.store, c.store⟩

/-- Neither value goes back. -/
def Forward (c d : Cell α) : Prop := c.memory ≤ d.memory ∧ c.store ≤ d.store

variable {c : Cell α} {x a : α} {l : List α}

/-! ### Greatest values -/

theorem foldl_max_max (x y : α) (l : List α) : l.foldl max (max x y) = max x (l.foldl max y) := by
  induction l generalizing y with
  | nil => rfl
  | cons a l ih => rw [List.foldl_cons, List.foldl_cons, max_assoc, ih]

theorem le_foldl_max (x : α) (l : List α) : x ≤ l.foldl max x := by
  rw [← max_self x, foldl_max_max, max_self]
  exact le_max_left _ _

theorem foldl_max_le_iff : l.foldl max x ≤ a ↔ x ≤ a ∧ ∀ b ∈ l, b ≤ a := by
  induction l generalizing x with
  | nil => simp
  | cons b l ih => rw [List.foldl_cons, ih, max_le_iff, List.forall_mem_cons, and_assoc]

/-- Values that do not exceed the first one do not count. -/
theorem foldl_max_eq (below : ∀ b ∈ l, b ≤ x) : l.foldl max x = x :=
  le_antisymm (foldl_max_le_iff.mpr ⟨le_rfl, below⟩) (le_foldl_max x l)

/-! ### Writes -/

theorem foldl_put (c : Cell α) (l : List α) :
    l.foldl put c = ⟨l.foldl max c.memory, c.store⟩ := by
  induction l generalizing c with
  | nil => rfl
  | cons a l ih => rw [List.foldl_cons, ih, put, List.foldl_cons]

/-- Memory and store that agree stay so. -/
theorem foldl_putThrough_same (x : α) (l : List α) :
    l.foldl putThrough ⟨x, x⟩ = ⟨l.foldl max x, l.foldl max x⟩ := by
  induction l generalizing x with
  | nil => rfl
  | cons a l ih =>
    have step : putThrough ⟨x, x⟩ a = ⟨max x a, max x a⟩ := by
      rw [putThrough]
      split_ifs with greater
      · rw [max_eq_right greater.le]
      · rw [max_eq_left (not_lt.mp greater)]
    rw [List.foldl_cons, step, ih, List.foldl_cons]

/-- Writes that do not exceed the memory have no effect; after the first that does,
memory and store agree. -/
theorem foldl_putThrough (c : Cell α) (l : List α) :
    l.foldl putThrough c = (l.find? (c.memory < ·)).elim c
      fun _ => ⟨l.foldl max c.memory, l.foldl max c.memory⟩ := by
  induction l with
  | nil => rfl
  | cons a l ih =>
    rw [List.foldl_cons, List.find?_cons, putThrough]
    by_cases greater : c.memory < a
    · rw [if_pos greater, decide_eq_true greater, foldl_putThrough_same, List.foldl_cons,
        max_eq_right greater.le]
      rfl
    · rw [if_neg greater, decide_eq_false greater, ih, List.foldl_cons,
        max_eq_left (not_lt.mp greater)]

/-- A write through goes back exactly if it takes effect below what is stored. -/
theorem forward_putThrough_iff :
    c.Forward (c.putThrough a) ↔ (c.memory < a → c.store ≤ a) := by
  rw [putThrough]
  split_ifs with greater
  · exact ⟨fun forward _ => forward.2, fun above => ⟨greater.le, above greater⟩⟩
  · exact iff_of_true ⟨le_rfl, le_rfl⟩ fun h => absurd h greater

/-! ### A cell from its connection on -/

section Connection

variable {early between after : List α}

/-- What the memory holds when the store is connected. -/
def held (c : Cell α) (early : List α) : α := early.foldl max c.memory

/-- The greatest of all values. -/
def total (c : Cell α) (early between after : List α) : α :=
  (early ++ between ++ after).foldl max (max c.store c.memory)

theorem total_eq (c : Cell α) (early between after : List α) :
    total c early between after =
      max c.store (after.foldl max (between.foldl max (held c early))) := by
  rw [total, List.foldl_append, List.foldl_append, foldl_max_max, foldl_max_max, foldl_max_max]
  rfl

/-- The cell before the reading. -/
theorem joined_eq (c : Cell α) (early between : List α) :
    between.foldl putThrough (early.foldl put c) =
      (between.find? (held c early < ·)).elim ⟨held c early, c.store⟩
        fun _ => ⟨between.foldl max (held c early), between.foldl max (held c early)⟩ := by
  rw [foldl_put, foldl_putThrough]
  rfl

theorem le_held_of_find?_eq_none (none' : between.find? (held c early < ·) = none) :
    ∀ a ∈ between, a ≤ held c early := by
  intro a member
  simpa using List.find?_eq_none.mp none' a member

end Connection

variable [OrderBot α] {early between after : List α} {done : Bool}

theorem read_of_empty (empty : c.store = ⊥) : c.read = c := if_pos empty

theorem read_of_stored (stored : c.store ≠ ⊥) : c.read = ⟨c.store, c.store⟩ := if_neg stored

theorem read_same (x : α) : (Cell.mk x x).read = ⟨x, x⟩ := by
  unfold read
  split_ifs <;> rfl

/-- A cell after the writes before the connection, those between it and the reading, the
reading if it is done, and the writes after it. -/
def history (c : Cell α) (early between : List α) (done : Bool) (after : List α) : Cell α :=
  let joined := between.foldl putThrough (early.foldl put c)
  after.foldl putThrough (if done then joined.read else joined)

/-- The first write that goes through before the reading is not below what is stored; and
if there is none, then what is read is not below the memory. -/
def Orderly (c : Cell α) (early between : List α) (done : Bool) : Prop :=
  match between.find? (held c early < ·) with
  | some a => c.store ≤ a
  | none => done = true → c.store = ⊥ ∨ held c early ≤ c.store

instance (c : Cell α) (early between : List α) (done : Bool) :
    Decidable (Orderly c early between done) :=
  match first : between.find? (held c early < ·) with
  | some a => decidable_of_iff (c.store ≤ a) (by rw [Orderly, first])
  | none => decidable_of_iff (done = true → c.store = ⊥ ∨ held c early ≤ c.store)
      (by rw [Orderly, first])

/-- If nothing was stored and nothing went through before the reading, then nothing was
in memory, or a write after the reading exceeds it. -/
def Covered (c : Cell α) (early between after : List α) : Prop :=
  between.find? (held c early < ·) = none → c.store = ⊥ →
    held c early = ⊥ ∨ ∃ a ∈ after, held c early < a

/-! ### What goes forward -/

/-- A write before the connection goes forward. -/
theorem forward_early (c : Cell α) (early : List α) (a : α) :
    Forward (history c early [] false []) (history c (early ++ [a]) [] false []) := by
  change Forward (early.foldl put c) ((early ++ [a]).foldl put c)
  rw [foldl_put, foldl_put, List.foldl_append]
  exact ⟨le_foldl_max _ _, le_rfl⟩

/-- A write before the reading goes forward exactly if the cell remains orderly. -/
theorem forward_between_iff (orderly : Orderly c early between false) (a : α) :
    Forward (history c early between false []) (history c early (between ++ [a]) false []) ↔
      Orderly c early (between ++ [a]) false := by
  have step : history c early (between ++ [a]) false [] =
      (history c early between false []).putThrough a := by
    simp [history]
  rw [step, forward_putThrough_iff]
  change ((between.foldl putThrough (early.foldl put c)).memory < a →
    (between.foldl putThrough (early.foldl put c)).store ≤ a) ↔ _
  rw [joined_eq]
  unfold Orderly at orderly ⊢
  rw [List.find?_append]
  cases first : between.find? (held c early < ·) with
  | some b =>
    rw [first] at orderly
    exact iff_of_true (fun greater => greater.le) orderly
  | none =>
    by_cases greater : held c early < a
    · simp [greater]
    · simp [greater]

/-- The reading goes forward exactly if the cell remains orderly. -/
theorem forward_read_iff (orderly : Orderly c early between false) :
    Forward (history c early between false []) (history c early between true []) ↔
      Orderly c early between true := by
  change Forward (between.foldl putThrough (early.foldl put c))
    (between.foldl putThrough (early.foldl put c)).read ↔ _
  rw [joined_eq]
  unfold Orderly at orderly ⊢
  cases first : between.find? (held c early < ·) with
  | some b =>
    rw [first] at orderly
    rw [Option.elim_some, read_same]
    exact iff_of_true ⟨le_rfl, le_rfl⟩ orderly
  | none =>
    rw [Option.elim_none]
    by_cases empty : c.store = ⊥
    · rw [read_of_empty (c := ⟨held c early, c.store⟩) empty]
      exact iff_of_true ⟨le_rfl, le_rfl⟩ fun _ => .inl empty
    · rw [read_of_stored (c := ⟨held c early, c.store⟩) empty]
      exact ⟨fun forward _ => .inr forward.1, fun h => ⟨(h rfl).resolve_left empty, le_rfl⟩⟩

/-- Once the stored value is read, it does not exceed the memory. -/
theorem store_le_memory (c : Cell α) (early between after : List α) :
    (history c early between true after).store ≤ (history c early between true after).memory := by
  have keeps : ∀ d : Cell α, d.store ≤ d.memory →
      (after.foldl putThrough d).store ≤ (after.foldl putThrough d).memory := by
    intro d below
    rw [foldl_putThrough]
    cases after.find? (d.memory < ·) with
    | none => exact below
    | some a => exact le_rfl
  refine keeps _ ?_
  rw [if_pos rfl]
  generalize between.foldl putThrough (early.foldl put c) = joined
  by_cases empty : joined.store = ⊥
  · rw [read_of_empty empty, empty]
    exact bot_le
  · rw [read_of_stored empty]

/-- A write after the reading goes forward. -/
theorem forward_after (c : Cell α) (early between after : List α) (a : α) :
    Forward (history c early between true after)
      (history c early between true (after ++ [a])) := by
  have step : history c early between true (after ++ [a]) =
      (history c early between true after).putThrough a := by
    rw [history, List.foldl_append]
    rfl
  rw [step, forward_putThrough_iff]
  exact fun greater => (store_le_memory c early between after).trans greater.le

/-- What is orderly was so before. -/
theorem Orderly.of_append {a : α} (orderly : Orderly c early (between ++ [a]) done) :
    Orderly c early between false := by
  unfold Orderly at orderly ⊢
  rw [List.find?_append] at orderly
  cases first : between.find? (held c early < ·) with
  | some b => simpa [first] using orderly
  | none => exact fun impossible => by cases impossible

theorem Orderly.unread (orderly : Orderly c early between true) :
    Orderly c early between false := by
  unfold Orderly at orderly ⊢
  cases first : between.find? (held c early < ·) with
  | some b => simpa [first] using orderly
  | none => exact fun impossible => by cases impossible

theorem orderly_nil (c : Cell α) (early : List α) : Orderly c early [] false :=
  fun impossible => by cases impossible

/-! ### The greatest value -/

/-- In the end memory and store hold the greatest value, the store if it is covered. -/
theorem history_eq_total_iff (orderly : Orderly c early between true) :
    history c early between true after = ⟨total c early between after,
      total c early between after⟩ ↔ Covered c early between after := by
  rw [history, joined_eq, if_pos rfl, total_eq]
  unfold Orderly at orderly
  unfold Covered
  cases first : between.find? (held c early < ·) with
  | some b =>
    -- The write that went through agrees with the store, and it is not below it.
    rw [first] at orderly
    have above : c.store ≤ after.foldl max (between.foldl max (held c early)) := by
      have member := List.mem_of_find?_eq_some first
      have bound := (foldl_max_le_iff.mp (le_refl (between.foldl max (held c early)))).2 b member
      exact (orderly.trans bound).trans (le_foldl_max _ _)
    rw [max_eq_right above, Option.elim_some, read_same, foldl_putThrough_same]
    exact iff_of_true rfl nofun
  | none =>
    rw [first] at orderly
    rw [foldl_max_eq (le_held_of_find?_eq_none first), Option.elim_none]
    by_cases empty : c.store = ⊥
    · -- Nothing was stored, so only a later write stores anything.
      rw [read_of_empty (c := ⟨held c early, c.store⟩) empty, foldl_putThrough, empty,
        max_eq_right bot_le]
      cases later : after.find? (held c early < ·) with
      | some a =>
        refine iff_of_true rfl fun _ _ => .inr ⟨a, List.mem_of_find?_eq_some later, ?_⟩
        simpa using List.find?_some later
      | none =>
        have below := le_held_of_find?_eq_none later
        rw [foldl_max_eq below, Option.elim_none, Cell.mk.injEq]
        constructor
        · exact fun same _ _ => .inl same.2.symm
        · intro covered
          refine ⟨rfl, ?_⟩
          rcases covered rfl rfl with nothing | ⟨a, member, greater⟩
          · exact nothing.symm
          · exact absurd greater (not_lt.mpr (below a member))
    · -- What was read is not below the memory.
      have above := (orderly rfl).resolve_left empty
      rw [read_of_stored (c := ⟨held c early, c.store⟩) empty, foldl_putThrough_same,
        ← foldl_max_max, max_eq_left above]
      exact iff_of_true rfl fun _ h => absurd h empty

end Cell

end Foundation
