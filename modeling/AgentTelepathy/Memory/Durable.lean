import Mathlib.Order.Bounds.Basic
import AgentTelepathy.Foundation.JsonRoundTrip
import AgentTelepathy.Foundation.WriteThrough
import AgentTelepathy.Memory.Crdt

/-!
# The durable mirror of a map

A map with a database writes every record it stores through to the table
`lww_map`, under its lock. The values are kept as JSON text and the clock is not
kept at all: a map that connects to the database reads the rows, in whatever order
the cursor yields them, and recomputes the clock. The clock is always the greatest
of zero and the stored timestamps, for a record that loses is not newer than the
one it loses to; so the clock read back is the clock that was.

The text of an integer is taken without the interpreter's limit on its digits.
-/

namespace AgentTelepathy

open Foundation Foundation.Transition

/-- What `set` is called with, by the application or by `merge`. -/
structure Assignment where
  key : String
  value : Json
  distinct : value.Distinct
  timestamp : Option ℤ
  writerId : Option String

/-- A row of `lww_map` under its key. A timestamp has 64 bits. -/
structure Row where
  value : String
  timestamp : ℤ
  writerId : String
  fits : -2 ^ 63 ≤ timestamp ∧ timestamp < 2 ^ 63

/-- The rows by primary key. -/
abbrev Rows := Dict String Row

namespace Row

/-- The row of a record; nothing if the database refuses it. -/
def ofRecord? (r : Record) : Option Row :=
  if fits : -2 ^ 63 ≤ r.timestamp ∧ r.timestamp < 2 ^ 63 then
    some ⟨Record.dumps r.value, r.timestamp, r.writerId, fits⟩
  else none

/-- The columns of a row. -/
def columns (row : Row) : String × ℤ × String := (row.value, row.timestamp, row.writerId)

end Row

/-- The columns that a record has in the database. -/
def Record.columns (r : Record) : String × ℤ × String := (dumps r.value, r.timestamp, r.writerId)

theorem Row.columns_of_ofRecord? {r : Record} {row : Row} (made : Row.ofRecord? r = some row) :
    row.columns = r.columns := by
  rw [ofRecord?] at made
  split_ifs at made
  obtain rfl := Option.some.inj made
  rfl

namespace LWWMap

/-- `set` under the lock, up to `execute` with the row that replaces the one of its
key, if a record was stored. -/
def assign (m : LWWMap) (a : Assignment) : Option (LWWMap × Option (String × Row)) :=
  let (m, record) := m.stamp a.value a.timestamp a.writerId
  let (m, updated) := m.store a.key record
  -- The clock and the entry change at once, before the row is written.
  if updated then (Row.ofRecord? record).map fun row => (m, some (a.key, row)) else some (m, none)

/-- The map with its database: a `merge` is the call of `set` for each record. -/
def durable : WriteThrough Assignment LWWMap (String × Row) Rows where
  write := assign
  update rows entry := rows.set entry.1 entry.2

/-- One round of the loop of `_hydrate_from_db`. -/
def hydrateRow (m : LWWMap) (entry : String × Row) : Option LWWMap :=
  (JsonText.loads entry.2.value).map fun value =>
    { m with
      state := m.state.set entry.1 ⟨value, entry.2.timestamp, entry.2.writerId⟩
      logicalClock := max m.logicalClock entry.2.timestamp }

/-- A new map after `connect()`, with the rows as the cursor yields them. -/
def connect (nodeId : String) (rows : List (String × Row)) : Option LWWMap :=
  rows.foldlM hydrateRow (init nodeId)

/-- The stored timestamps. -/
def timestamps (m : LWWMap) : Set ℤ := {t | ∃ key r, m.state.get? key = some r ∧ r.timestamp = t}

/-- The clock is the greatest of zero and the stored timestamps. -/
def Clocked (m : LWWMap) : Prop := IsGreatest (insert 0 m.timestamps) m.logicalClock

variable {m m' : LWWMap} {a : Assignment}

theorem clocked_init (nodeId : String) : (init nodeId).Clocked := by
  refine ⟨Set.mem_insert 0 _, ?_⟩
  rintro t (rfl | ⟨key, r, found, -⟩)
  · exact le_rfl
  · cases found

/-- Storing a record that is not older than the one in its place. -/
theorem Clocked.store (clocked : m.Clocked) {key : String} {r : Record} {clock : ℤ}
    (newer : ∀ e, m.state.get? key = some e → e.timestamp ≤ r.timestamp)
    (moved : clock = max m.logicalClock r.timestamp) :
    Clocked { m with state := m.state.set key r, logicalClock := clock } := by
  obtain ⟨reached, bound⟩ := clocked
  subst moved
  constructor
  -- The clock is the timestamp of the new record, or stays where it was.
  · rcases le_or_gt m.logicalClock r.timestamp with up | down
    · rw [max_eq_right up]
      exact .inr ⟨key, r, Dict.get?_set_self _ _ _, rfl⟩
    · rw [max_eq_left down.le]
      rcases reached with zero | ⟨other, e, found, same⟩
      · exact .inl zero
      · -- The greatest timestamp is not the one that was replaced.
        have elsewhere : other ≠ key := by
          rintro rfl
          exact absurd (newer e found) (by omega)
        exact .inr ⟨other, e, by rw [Dict.get?_set_of_ne elsewhere, found], same⟩
  · rintro t (rfl | ⟨other, e, found, rfl⟩)
    · exact (bound (.inl rfl)).trans (le_max_left _ _)
    · rw [Dict.get?_set] at found
      split_ifs at found
      · obtain rfl := Option.some.inj found
        exact le_max_right _ _
      · exact (bound (.inr ⟨other, e, found, rfl⟩)).trans (le_max_left _ _)

/-- What `assign` does: it stores the record and asks for its row, or the record
loses and only the clock could move. -/
theorem assign_cases {update : Option (String × Row)} (assigned : m.assign a = some (m', update)) :
    ∃ r, r = (m.stamp a.value a.timestamp a.writerId).2 ∧
      m'.logicalClock = max m.logicalClock r.timestamp ∧
      ((∃ row, Row.ofRecord? r = some row ∧ update = some (a.key, row) ∧
          m'.state = m.state.set a.key r ∧
          ∀ e, m.state.get? a.key = some e → e.timestamp ≤ r.timestamp) ∨
        update = none ∧ m'.state = m.state ∧
          ∃ e, m.state.get? a.key = some e ∧ r.timestamp ≤ e.timestamp) := by
  have clock := m.logicalClock_stamp a.value a.timestamp a.writerId
  have state := m.stamp_state a.value a.timestamp a.writerId
  refine ⟨_, rfl, ?_⟩
  unfold assign at assigned
  generalize m.stamp a.value a.timestamp a.writerId = stamped at assigned clock state ⊢
  obtain ⟨n, r⟩ := stamped
  dsimp only at assigned clock state ⊢
  rw [← state]
  rcases n.store_cases a.key r with ⟨stored, newer⟩ | ⟨lost, older⟩
  · rw [stored] at assigned
    obtain ⟨row, made, same⟩ := Option.map_eq_some_iff.mp assigned
    cases same
    exact ⟨clock, .inl ⟨row, made, rfl, rfl, newer⟩⟩
  · rw [lost] at assigned
    cases assigned
    exact ⟨clock, .inr ⟨rfl, rfl, older⟩⟩

/-- The memory changes as it does without a database. -/
theorem assign_eq_set {update : Option (String × Row)} (assigned : m.assign a = some (m', update)) :
    m' = m.set a.key a.value a.timestamp a.writerId := by
  unfold assign at assigned
  rw [set]
  generalize m.stamp a.value a.timestamp a.writerId = stamped at assigned ⊢
  obtain ⟨n, r⟩ := stamped
  dsimp only at assigned ⊢
  generalize n.store a.key r = stored at assigned ⊢
  obtain ⟨n', updated⟩ := stored
  cases updated with
  | true =>
    obtain ⟨row, -, same⟩ := Option.map_eq_some_iff.mp assigned
    cases same
    rfl
  | false =>
    cases assigned
    rfl

/-- What holds of the map in memory: its clock, and no value has a repeated key. -/
structure Sound (m : LWWMap) : Prop where
  clocked : m.Clocked
  distinct : ∀ key r, m.state.get? key = some r → r.value.Distinct

theorem sound_init (nodeId : String) : (init nodeId).Sound := ⟨clocked_init nodeId, nofun⟩

theorem Sound.assign (sound : m.Sound) {update : Option (String × Row)}
    (assigned : m.assign a = some (m', update)) : m'.Sound := by
  obtain ⟨r, stamped, clock, ⟨row, -, -, state, newer⟩ | ⟨-, state, e, found, older⟩⟩ :=
    assign_cases assigned
  · refine ⟨?_, ?_⟩
    · have stored := sound.clocked.store newer clock
      rwa [Clocked, timestamps, ← state] at stored
    · intro key s found
      rw [state, Dict.get?_set] at found
      split_ifs at found
      · obtain rfl := Option.some.inj found
        have value : (m.stamp a.value a.timestamp a.writerId).2.value = a.value := by
          cases a.timestamp <;> rfl
        rw [stamped, value]
        exact a.distinct
      · exact sound.distinct key s found
  · -- The record that lost is not newer than the one that stands.
    have still : m'.logicalClock = m.logicalClock := by
      have bound := sound.clocked.2 (.inr ⟨a.key, e, found, rfl⟩)
      omega
    refine ⟨?_, ?_⟩
    · rw [Clocked, timestamps, still, state]
      exact sound.clocked
    · rw [state]
      exact sound.distinct

/-! ### Rows and entries -/

/-- The rows are those of the entries. -/
def Mirrors (rows : Rows) (m : LWWMap) : Prop :=
  ∀ key, (rows.get? key).map Row.columns = (m.state.get? key).map Record.columns

theorem mirrors_of_lost {rows : Rows} (mirrors : Mirrors rows m)
    (assigned : m.assign a = some (m', none)) : Mirrors rows m' := by
  obtain ⟨r, -, -, ⟨row, -, updated, -, -⟩ | ⟨-, state, -⟩⟩ := assign_cases assigned
  · cases updated
  · rwa [Mirrors, state]

theorem mirrors_of_stored {rows : Rows} {entry : String × Row} (mirrors : Mirrors rows m)
    (assigned : m.assign a = some (m', some entry)) : Mirrors (rows.set entry.1 entry.2) m' := by
  obtain ⟨r, -, -, ⟨row, made, updated, state, -⟩ | ⟨updated, -⟩⟩ := assign_cases assigned
  · obtain rfl := Option.some.inj updated
    intro key
    rw [state, Dict.get?_set, Dict.get?_set]
    split_ifs
    · rw [Option.map_some, Option.map_some, Row.columns_of_ofRecord? made]
    · exact mirrors key
  · cases updated

/-! ### Connecting to the database -/

/-- Reading rows whose values can be read: each becomes an entry, and the clock
is that of a map with these entries. -/
theorem connect_spec {rows : List (String × Row)} (nodup : (rows.map Prod.fst).Nodup)
    (read : Row → Json) (reads : ∀ p ∈ rows, JsonText.loads p.2.value = some (read p.2))
    (nodeId : String) :
    ∃ fresh, connect nodeId rows = some fresh ∧ fresh.Clocked ∧
      ∀ key r, fresh.state.get? key = some r ↔
        ∃ row, (key, row) ∈ rows ∧ r = ⟨read row, row.timestamp, row.writerId⟩ := by
  induction rows using List.reverseRecOn with
  | nil => exact ⟨init nodeId, rfl, clocked_init nodeId, fun key r => by simp [init]⟩
  | append_singleton rows p ih =>
    obtain ⟨key, row⟩ := p
    rw [List.map_append, List.nodup_append] at nodup
    obtain ⟨fresh, connected, clocked, entries⟩ :=
      ih nodup.1 fun p member => reads p (List.mem_append_left _ member)
    have new : ∀ row', (key, row') ∉ rows := fun row' member =>
      nodup.2.2 key (List.mem_map_of_mem member) key (by simp) rfl
    have absent : fresh.state.get? key = none := by
      apply Option.eq_none_iff_forall_ne_some.mpr
      intro r found
      obtain ⟨row', member, -⟩ := (entries key r).mp found
      exact new row' member
    -- The last row is of a new key, so nothing it replaces could have held the clock up.
    have value := reads (key, row) (List.mem_append_right _ (List.mem_singleton.mpr rfl))
    refine ⟨{ fresh with
      state := fresh.state.set key ⟨read row, row.timestamp, row.writerId⟩
      logicalClock := max fresh.logicalClock row.timestamp }, ?_, clocked.store ?_ rfl, ?_⟩
    · have last : hydrateRow fresh (key, row) = some
          { fresh with
            state := fresh.state.set key ⟨read row, row.timestamp, row.writerId⟩
            logicalClock := max fresh.logicalClock row.timestamp } := by
        rw [hydrateRow, value, Option.map_some]
      rw [connect, List.foldlM_append, ← connect, connected]
      simp [last]
    · intro e found
      rw [absent] at found
      cases found
    · intro other r
      rw [Dict.get?_set]
      split_ifs with same
      · subst same
        simp [new, eq_comm]
      · simp [entries, same]

/-- The value of a row that has the columns of a record. -/
theorem loads_of_columns {row : Row} {r : Record} (same : row.columns = r.columns)
    (distinct : r.value.Distinct) : JsonText.loads row.value = some r.value.sortKeys := by
  have text : row.value = Record.dumps r.value := congrArg Prod.fst same
  rw [text]
  exact JsonText.loads_dumpsSorted JsonText.blank_defaultStyle distinct

/-- The record that is read back has the rank of the one that was stored. -/
theorem rank_of_columns {row : Row} {r : Record} (same : row.columns = r.columns) :
    Record.rank ⟨r.value.sortKeys, row.timestamp, row.writerId⟩ = Record.rank r := by
  have stamps : (row.timestamp, row.writerId) = (r.timestamp, r.writerId) := congrArg Prod.snd same
  obtain ⟨timestamps, writers⟩ := Prod.mk.inj stamps
  have text : Record.dumps r.value.sortKeys = Record.dumps r.value :=
    JsonText.dumpsSorted_eq_iff.mpr (Json.same_sortKeys r.value).symm
  simp only [Record.rank, text, timestamps, writers]

/-- The timestamps of two maps whose entries have the same columns. -/
theorem timestamps_of_ranks {n : LWWMap}
    (ranks : ∀ key, (m.state.get? key).map Record.rank = (n.state.get? key).map Record.rank) :
    m.timestamps = n.timestamps := by
  have included : ∀ a b : LWWMap,
      (∀ key, (a.state.get? key).map Record.rank = (b.state.get? key).map Record.rank) →
      a.timestamps ⊆ b.timestamps := by
    rintro a b same t ⟨key, r, found, rfl⟩
    have ranked := same key
    rw [found] at ranked
    obtain ⟨s, there, rankEq⟩ := Option.map_eq_some_iff.mp ranked.symm
    exact ⟨key, s, there, (Prod.ext_iff.mp (toLex.injective rankEq)).1⟩
  exact Set.Subset.antisymm (included m n ranks) (included n m fun key => (ranks key).symm)

/-- A map that connects to the rows of another one has the same serialized state
and the same clock. -/
theorem connect_of_mirrors {rows : Rows} (sound : m.Sound) (mirrors : Mirrors rows m)
    {order : List (String × Row)} (yields : order.Perm rows.items) (nodeId : String) :
    ∃ fresh, connect nodeId order = some fresh ∧ Json.Same fresh.serializeState m.serializeState ∧
      fresh.logicalClock = m.logicalClock := by
  have nodup : (order.map Prod.fst).Nodup := (yields.map Prod.fst).nodup_iff.mpr rows.nodupKeys
  -- Every row that is read back holds the columns of an entry in memory.
  have entry : ∀ key row, (key, row) ∈ order →
      ∃ r, m.state.get? key = some r ∧ row.columns = r.columns := by
    intro key row member
    have there := Dict.get?_eq_some_iff.mpr (yields.mem_iff.mp member)
    have columns := mirrors key
    rw [there] at columns
    obtain ⟨r, found, same⟩ := Option.map_eq_some_iff.mp columns.symm
    exact ⟨r, found, same.symm⟩
  obtain ⟨fresh, connected, clocked, entries⟩ := by
    refine connect_spec nodup (fun row => (JsonText.loads row.value).getD .null) ?_ nodeId
    intro p member
    obtain ⟨r, found, same⟩ := entry p.1 p.2 member
    rw [loads_of_columns same (sound.distinct p.1 r found), Option.getD_some]
  -- The two memories have records of the same rank under every key.
  have ranks : ∀ key,
      (fresh.state.get? key).map Record.rank = (m.state.get? key).map Record.rank := by
    intro key
    cases stored : rows.get? key with
    | some row =>
      have member := yields.mem_iff.mpr (Dict.get?_eq_some_iff.mp stored)
      obtain ⟨r, found, same⟩ := entry key row member
      have read := (entries key _).mpr ⟨row, member, rfl⟩
      rw [loads_of_columns same (sound.distinct key r found), Option.getD_some] at read
      rw [read, found, Option.map_some, Option.map_some, rank_of_columns same]
    | none =>
      have columns := mirrors key
      rw [stored] at columns
      have absent : m.state.get? key = none := Option.map_eq_none_iff.mp columns.symm
      have unread : fresh.state.get? key = none := by
        apply Option.eq_none_iff_forall_ne_some.mpr
        intro r found
        obtain ⟨row, member, -⟩ := (entries key r).mp found
        rw [Dict.get?_eq_some_iff.mpr (yields.mem_iff.mp member)] at stored
        cases stored
      rw [absent, unread]
  refine ⟨fresh, connected, same_serializeState ranks, ?_⟩
  rw [Clocked, timestamps_of_ranks ranks] at clocked
  exact clocked.unique sound.clocked

/-- In every run of calls after connecting to an empty database, the clock is the
greatest of zero and the stored timestamps, and whenever no call is in progress
the rows are the entries, and a map that connects to them serializes to the same
state and has the same clock, so that the next timestamp it makes is new. -/
theorem durable_mirror {nodeId : String} {m₀ : LWWMap}
    {events : List (WriteThrough.Event Assignment)}
    {s : WriteThrough.State Assignment LWWMap (String × Row) Rows}
    (connected : connect nodeId [] = some m₀)
    (run : Run (OfPartial durable.next) (WriteThrough.init m₀ Dict.empty) events s) :
    s.memory.Clocked ∧
      (WriteThrough.Quiescent s → Mirrors s.committed s.memory ∧
        ∀ (other : String) (order : List (String × Row)), order.Perm s.committed.items →
          ∃ fresh, connect other order = some fresh ∧
            Json.Same fresh.serializeState s.memory.serializeState ∧
            fresh.logicalClock = s.memory.logicalClock ∧
            ∀ value, ∀ t ∈ s.memory.timestamps, t < (fresh.stamp value none none).2.timestamp) := by
  obtain rfl := Option.some.inj connected
  have sound : s.memory.Sound :=
    WriteThrough.memory_of_run (fun _ _ _ _ before written => before.assign written) run
      (sound_init nodeId)
  refine ⟨sound.clocked, fun quiescent => ?_⟩
  -- With no write outstanding the committed rows mirror the memory.
  have mirrors : Mirrors s.committed s.memory :=
    WriteThrough.mirrors_of_run (fun _ _ _ _ => mirrors_of_lost)
      (fun _ _ _ _ _ => mirrors_of_stored) (fun _ => rfl) run quiescent
  refine ⟨mirrors, fun other order yields => ?_⟩
  obtain ⟨fresh, made, same, clock⟩ := connect_of_mirrors sound mirrors yields other
  refine ⟨fresh, made, same, clock, fun value t member => ?_⟩
  have bound : t ≤ s.memory.logicalClock := sound.clocked.2 (.inr member)
  have next : (fresh.stamp value none none).2.timestamp = fresh.logicalClock + 1 := rfl
  omega

/-- A record of a `merge`. -/
def merging (key : String) (n timestamp : ℤ) (writerId : String) : Assignment :=
  ⟨key, .int n, trivial, some timestamp, some writerId⟩

/-- Two calls of `set` and a `merge` of two records between them; the second `set`
loses to the first record. -/
def interleaved : List (WriteThrough.Event Assignment) :=
  [.call [⟨"x", .int 1, trivial, none, none⟩],
    .call [merging "x" 2 5 "b", merging "y" 3 4 "b"], .resume 0, .resume 0, .resume 0, .resume 1,
    .call [merging "x" 9 5 "a"], .resume 1, .resume 1, .resume 2, .resume 1, .resume 1, .resume 1]

theorem durable_mirror_interleaved :
    ∃ s, Run (OfPartial durable.next) (WriteThrough.init (init "a") Dict.empty) interleaved s ∧
      s.memory.logicalClock = 5 ∧ s.memory.Clocked ∧ Mirrors s.committed s.memory := by
  have runs : (runPartial durable.next (WriteThrough.init (init "a") Dict.empty) interleaved).any
      (fun s => decide (s.memory.logicalClock = 5) && s.calls.all fun call => call matches .done) =
        true := by decide +kernel
  obtain ⟨s, run, facts⟩ := exists_run_of_any runs
  obtain ⟨clock, returned⟩ := Bool.and_eq_true_iff.mp facts
  obtain ⟨clocked, mirrored⟩ := durable_mirror (rfl : connect "a" [] = some (init "a")) run
  have quiescent : WriteThrough.Quiescent s := by
    intro call member
    have done := List.all_eq_true.mp returned call member
    cases call with
    | done => rfl
    | _ => cases done
  exact ⟨s, run, of_decide_eq_true clock, clocked, (mirrored quiescent).1⟩

end LWWMap

end AgentTelepathy
