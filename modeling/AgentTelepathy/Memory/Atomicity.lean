import AgentTelepathy.Memory.Durable

/-!
# Writes that raise

`set` changes the clock and the entry of its key and only then writes the row, which can
raise: an integer outside of 64 bits cannot be bound, and SQLite can refuse a statement or
a commit. Nothing is taken back. So a call that raises has always changed the memory, and
a timestamp past the 64 bits, from whomever it came, makes all local writes raise from
then on.
-/

namespace AgentTelepathy

open Foundation

/-- What SQLite does with a row. -/
inductive Sqlite
  | commits
  | executeRaises
  | commitRaises
deriving DecidableEq

/-- A map with an open connection: the rows as the connection sees them, and those that
are committed. -/
structure ConnectedMap where
  memory : LWWMap
  working : Rows
  committed : Rows

namespace ConnectedMap

/-- `_persist_unlocked`, and whether it returns. -/
def persist (s : ConnectedMap) (key : String) (record : Record) (sqlite : Sqlite) :
    ConnectedMap × Bool :=
  match Row.ofRecord? record, sqlite with
  -- The timestamp has no 64 bits and cannot be bound.
  | none, _ => (s, false)
  | some _, .executeRaises => (s, false)
  | some row, .commitRaises => ({ s with working := s.working.set key row }, false)
  | some row, .commits =>
    let rows := s.working.set key row
    ({ s with working := rows, committed := rows }, true)

/-- The record that a call of `set` makes. -/
def record (s : ConnectedMap) (a : Assignment) : Record :=
  (s.memory.stamp a.value a.timestamp a.writerId).2

/-- `set(key, value, timestamp, writer_id)`, and whether it returns. -/
def set (s : ConnectedMap) (a : Assignment) (sqlite : Sqlite) : ConnectedMap × Bool :=
  let (memory, record) := s.memory.stamp a.value a.timestamp a.writerId
  let (memory, updated) := memory.store a.key record
  let s := { s with memory }
  if updated then s.persist a.key record sqlite else (s, true)

/-- A map that wrote to its memory alone and then read the rows of a database, and what
it becomes by calls of `set`, whether they return or raise. -/
inductive Reachable : ConnectedMap → Prop
  | connect (nodeId : String) (before : List Assignment) {rows : Rows} {memory : LWWMap}
      {order : List (String × Row)} (yields : order.Perm rows.items)
      (hydrated : order.foldlM LWWMap.hydrateRow
        (before.foldl (fun m a => m.set a.key a.value a.timestamp a.writerId)
          (LWWMap.init nodeId)) = some memory) :
      Reachable ⟨memory, rows, rows⟩
  | set {s : ConnectedMap} (a : Assignment) (sqlite : Sqlite) (reachable : Reachable s) :
      Reachable (s.set a sqlite).1

/-- Every local write that SQLite commits returns. -/
def Writable (s : ConnectedMap) : Prop :=
  ∀ a : Assignment, a.timestamp = none → (s.set a .commits).2 = true

/-- If the call raises, then the entry, the clock and the row are as before, and local
writes still return. -/
def Atomic (s : ConnectedMap) (a : Assignment) (sqlite : Sqlite) : Prop :=
  (s.set a sqlite).2 = false →
    (s.set a sqlite).1.memory.state.get? a.key = s.memory.state.get? a.key ∧
    (s.set a sqlite).1.memory.logicalClock = s.memory.logicalClock ∧
    (s.set a sqlite).1.committed.get? a.key = s.committed.get? a.key ∧
    (s.set a sqlite).1.Writable

/-- The entry of the key stands against the record of the call. -/
def Stands (s : ConnectedMap) (a : Assignment) : Prop :=
  ∃ e, s.memory.state.get? a.key = some e ∧ (s.record a).supersedes e = false

/-- The timestamp of the record has 64 bits, and SQLite commits its row. -/
def Taken (s : ConnectedMap) (a : Assignment) (sqlite : Sqlite) : Prop :=
  -2 ^ 63 ≤ (s.record a).timestamp ∧ (s.record a).timestamp < 2 ^ 63 ∧ sqlite = .commits

variable {s : ConnectedMap} {a : Assignment} {sqlite : Sqlite}

/-! ### One call -/

theorem persist_returns_iff {key : String} {r : Record} : (s.persist key r sqlite).2 = true ↔
    -2 ^ 63 ≤ r.timestamp ∧ r.timestamp < 2 ^ 63 ∧ sqlite = .commits := by
  unfold persist Row.ofRecord?
  by_cases fits : -2 ^ 63 ≤ r.timestamp ∧ r.timestamp < 2 ^ 63
  · rw [dif_pos fits]
    cases sqlite with
    | commits => exact iff_of_true rfl ⟨fits.1, fits.2, rfl⟩
    | executeRaises | commitRaises => simp
  · rw [dif_neg fits]
    exact iff_of_false Bool.false_ne_true fun h => fits ⟨h.1, h.2.1⟩

@[simp] theorem persist_memory (key : String) (r : Record) :
    (s.persist key r sqlite).1.memory = s.memory := by
  unfold persist
  split <;> rfl

/-- Only a row that is committed lasts. -/
theorem persist_committed {key : String} {r : Record}
    (raises : (s.persist key r sqlite).2 = false) :
    (s.persist key r sqlite).1.committed = s.committed := by
  unfold persist at raises ⊢
  split at raises
  · rfl
  · rfl
  · rfl
  · cases raises

/-- What a call does: the entry stands, or the record takes its place and the row is
written. -/
theorem set_cases (s : ConnectedMap) (a : Assignment) (sqlite : Sqlite) :
    s.Stands a ∧ (s.set a sqlite).2 = true ∨
      ¬ s.Stands a ∧ ∃ t : ConnectedMap, s.set a sqlite = t.persist a.key (s.record a) sqlite ∧
        t.memory.state = s.memory.state.set a.key (s.record a) ∧ t.committed = s.committed := by
  have state := s.memory.stamp_state a.value a.timestamp a.writerId
  unfold set Stands record
  generalize s.memory.stamp a.value a.timestamp a.writerId = stamped at state ⊢
  obtain ⟨m, r⟩ := stamped
  dsimp only at state ⊢
  rw [← state]
  rcases m.store_eq a.key r with ⟨stands, stored⟩ | ⟨falls, stored⟩
  · rw [stored]
    exact .inl ⟨stands, rfl⟩
  · rw [stored]
    exact .inr ⟨falls, _, rfl, rfl, rfl⟩

theorem memory_set (s : ConnectedMap) (a : Assignment) (sqlite : Sqlite) :
    (s.set a sqlite).1.memory = s.memory.set a.key a.value a.timestamp a.writerId := by
  unfold set LWWMap.set
  dsimp only
  split_ifs
  · exact persist_memory _ _
  · rfl

theorem set_returns_iff : (s.set a sqlite).2 = true ↔ s.Stands a ∨ s.Taken a sqlite := by
  rcases s.set_cases a sqlite with ⟨stands, returns⟩ | ⟨falls, t, same, -, -⟩
  · exact iff_of_true returns (.inl stands)
  · rw [same, persist_returns_iff, or_iff_right falls]
    rfl

/-- A record that takes the place of an entry is another one. -/
theorem get?_ne_of_not_stands (falls : ¬ s.Stands a) :
    s.memory.state.get? a.key ≠ some (s.record a) := by
  intro present
  refine falls ⟨_, present, ?_⟩
  rw [← Bool.not_eq_true, Record.supersedes_iff]
  exact lt_irrefl _

/-- What a call that raises leaves behind: the memory as if it had returned, and the rows
as they were. -/
theorem set_raises (raises : (s.set a sqlite).2 = false) :
    (s.set a sqlite).1.memory = s.memory.set a.key a.value a.timestamp a.writerId ∧
      (s.set a sqlite).1.memory.state.get? a.key = some (s.record a) ∧
      s.memory.state.get? a.key ≠ some (s.record a) ∧
      (s.set a sqlite).1.committed = s.committed := by
  rcases s.set_cases a sqlite with ⟨-, returns⟩ | ⟨falls, t, same, state, committed⟩
  · rw [returns] at raises
    cases raises
  · refine ⟨s.memory_set a sqlite, ?_, get?_ne_of_not_stands falls, ?_⟩
    · rw [same, persist_memory, state, Dict.get?_set_self]
    · rw [same] at raises ⊢
      rw [persist_committed raises, committed]

/-! ### The clock past the 64 bits -/

/-- The clock has not gone back behind its start, and no entry is ahead of it. -/
structure Bounded (m : LWWMap) : Prop where
  start : 0 ≤ m.logicalClock
  entry : ∀ key r, m.state.get? key = some r → r.timestamp ≤ m.logicalClock

theorem bounded_init (nodeId : String) : Bounded (LWWMap.init nodeId) := ⟨le_rfl, nofun⟩

theorem Bounded.set {m : LWWMap} (bounded : Bounded m) (key : String) (value : Json)
    (timestamp : Option ℤ) (writerId : Option String) :
    Bounded (m.set key value timestamp writerId) := by
  have clock := m.logicalClock_set key value timestamp writerId
  refine ⟨clock ▸ bounded.start.trans (le_max_left _ _), fun other r present => ?_⟩
  rw [clock]
  rw [m.get?_set] at present
  split_ifs at present
  · obtain rfl := Option.some.inj present
    rcases Register.offer_eq_or Record.rank (m.state.get? key)
      (m.stamp value timestamp writerId).2 with new | held
    · rw [new]
      exact le_max_right _ _
    · exact (bounded.entry key _ held).trans (le_max_left _ _)
  · exact (bounded.entry other r present).trans (le_max_left _ _)

theorem Bounded.hydrateRow {m m' : LWWMap} (bounded : Bounded m) {entry : String × Row}
    (hydrated : m.hydrateRow entry = some m') : Bounded m' := by
  obtain ⟨value, -, rfl⟩ := Option.map_eq_some_iff.mp hydrated
  refine ⟨bounded.start.trans (le_max_left _ _), fun other r present => ?_⟩
  rw [Dict.get?_set] at present
  split_ifs at present
  · obtain rfl := Option.some.inj present
    exact le_max_right _ _
  · exact (bounded.entry other r present).trans (le_max_left _ _)

theorem Bounded.hydrate {m m' : LWWMap} (bounded : Bounded m) {order : List (String × Row)}
    (hydrated : order.foldlM LWWMap.hydrateRow m = some m') : Bounded m' := by
  induction order generalizing m with
  | nil =>
    obtain rfl := Option.some.inj hydrated
    exact bounded
  | cons entry order ih =>
    rw [List.foldlM_cons] at hydrated
    obtain ⟨next, here, rest⟩ := Option.bind_eq_some_iff.mp hydrated
    exact ih (bounded.hydrateRow here) rest

/-- What holds of every reachable map. -/
theorem Reachable.bounded (reachable : Reachable s) : Bounded s.memory := by
  induction reachable with
  | connect nodeId before yields hydrated =>
    refine Bounded.hydrate ?_ hydrated
    clear hydrated
    induction before using List.reverseRecOn with
    | nil => exact bounded_init nodeId
    | append_singleton before a ih =>
      rw [List.foldl_append]
      exact ih.set _ _ _ _
  | set a sqlite reachable ih =>
    rw [memory_set]
    exact ih.set _ _ _ _

/-- A local write returns if and only if its timestamp has 64 bits and SQLite commits it:
no entry stands against it. -/
theorem Reachable.local_returns_iff (reachable : Reachable s) (own : a.timestamp = none) :
    (s.set a sqlite).2 = true ↔ s.memory.logicalClock < 2 ^ 63 - 1 ∧ sqlite = .commits := by
  have bounded := reachable.bounded
  have next : (s.record a).timestamp = s.memory.logicalClock + 1 := by
    rw [record, own]
    rfl
  have falls : ¬ s.Stands a := by
    rintro ⟨e, present, stands⟩
    have behind := bounded.entry a.key e present
    rw [Record.supersedes, if_pos (by omega)] at stands
    cases stands
  have start := bounded.start
  rw [set_returns_iff, or_iff_right falls, Taken, next, ← and_assoc]
  refine and_congr_left fun _ => ?_
  omega

theorem Reachable.writable_iff (reachable : Reachable s) :
    s.Writable ↔ s.memory.logicalClock < 2 ^ 63 - 1 := by
  constructor
  · intro writable
    exact ((reachable.local_returns_iff rfl).mp
      (writable ⟨"", .null, trivial, none, none⟩ rfl)).1
  · exact fun room a own => (reachable.local_returns_iff own).mpr ⟨room, rfl⟩

/-- A map after more calls. -/
def run (s : ConnectedMap) (calls : List (Assignment × Sqlite)) : ConnectedMap :=
  calls.foldl (fun s call => (s.set call.1 call.2).1) s

/-- Once the clock is at the end of the 64 bits, all local writes raise, whatever is
written in between. -/
theorem Reachable.local_raises (reachable : Reachable s) (past : 2 ^ 63 - 1 ≤ s.memory.logicalClock)
    (calls : List (Assignment × Sqlite)) (own : a.timestamp = none) :
    ((s.run calls).set a sqlite).2 = false := by
  induction calls generalizing s with
  | nil =>
    rw [← Bool.not_eq_true]
    exact fun returns => absurd ((reachable.local_returns_iff own).mp returns).1 (not_lt.mpr past)
  | cons call calls ih =>
    refine ih (reachable.set call.1 call.2) ?_
    rw [memory_set, LWWMap.logicalClock_set]
    exact past.trans (le_max_left _ _)

/-! ### Atomic calls -/

/-- A call is atomic if and only if it returns: the entry stands, or the timestamp has 64
bits and SQLite commits the row. Local writes return afterwards as long as neither the
clock nor the timestamp has reached the end of the 64 bits. -/
theorem Reachable.atomic_iff (reachable : Reachable s) (a : Assignment) (sqlite : Sqlite) :
    (s.Atomic a sqlite ↔ s.Stands a ∨ s.Taken a sqlite) ∧
      ((s.set a sqlite).1.Writable ↔
        max s.memory.logicalClock (s.record a).timestamp < 2 ^ 63 - 1) := by
  constructor
  · rw [← set_returns_iff]
    constructor
    · intro atomic
      by_contra raises
      rw [Bool.not_eq_true] at raises
      obtain ⟨-, after, before, -⟩ := set_raises raises
      exact before ((atomic raises).1.symm.trans after)
    · intro returns raises
      rw [returns] at raises
      cases raises
  · rw [(reachable.set a sqlite).writable_iff, memory_set, LWWMap.logicalClock_set]
    rfl

/-- A new map with an empty database. -/
def fresh : ConnectedMap := ⟨LWWMap.init "a", Dict.empty, Dict.empty⟩

theorem reachable_fresh : Reachable fresh := .connect "a" [] (.refl _) rfl

/-- A write with a timestamp. -/
def dated (timestamp : ℤ) : Assignment := ⟨"x", .int 1, trivial, some timestamp, none⟩

theorem Reachable.atomic_iff_fresh :
    fresh.Atomic (dated (2 ^ 63 - 2)) .commits ∧
      (fresh.set (dated (2 ^ 63 - 2)) .commits).1.Writable := by
  obtain ⟨atomic, writable⟩ := reachable_fresh.atomic_iff (dated (2 ^ 63 - 2)) .commits
  exact ⟨atomic.mpr (.inr ⟨by decide, by decide, rfl⟩), writable.mpr (by decide)⟩

/-- The write raises, its entry and the clock remain, and no local write returns any more. -/
theorem not_atomic_dated :
    Reachable fresh ∧ (fresh.set (dated (2 ^ 63)) .commits).2 = false ∧
      ¬ fresh.Atomic (dated (2 ^ 63)) .commits ∧
      ∀ a : Assignment, a.timestamp = none →
        ((fresh.set (dated (2 ^ 63)) .commits).1.set a .commits).2 = false := by
  have raises : (fresh.set (dated (2 ^ 63)) .commits).2 = false := by decide
  refine ⟨reachable_fresh, raises, fun atomic => ?_, fun a own => ?_⟩
  · have moved : (fresh.set (dated (2 ^ 63)) .commits).1.memory.logicalClock ≠
        fresh.memory.logicalClock := by decide
    exact moved (atomic raises).2.1
  · exact (reachable_fresh.set (dated (2 ^ 63)) .commits).local_raises (by decide) [] own

end ConnectedMap

end AgentTelepathy
