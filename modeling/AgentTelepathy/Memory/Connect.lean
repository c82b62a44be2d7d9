import Mathlib.Data.Int.ConditionallyCompleteOrder
import AgentTelepathy.Foundation.Joining
import AgentTelepathy.Memory.Durable

/-!
# Connecting a map that is in use

`connect()` opens the database, creates the table under the lock, and reads the rows under
the lock once more. Calls of `set` and `merge` go to the memory alone until the connection
is open, and between the two sections they write rows. A row is read into the memory and a
write replaces a row without a look at what is there. So the map joins its memory with the
rows only if neither of them is newer than what replaces it.
-/

namespace AgentTelepathy

open Foundation Foundation.Transition

deriving instance DecidableEq for Row

/-- The record that a row is read as; nothing if its value is no JSON. -/
def Row.record? (row : Row) : Option Record :=
  (JsonText.loads row.value).map fun value => ⟨value, row.timestamp, row.writerId⟩

/-- What a map knows of its database. -/
inductive Stage
  | closed
  | opened
  | read
deriving DecidableEq

/-- The memory of a map that connects, and the records of the writes to it: before the
connection was open, from then until the rows were read, and after that. -/
structure Joining where
  map : LWWMap
  stage : Stage
  early : List (String × Record)
  between : List (String × Record)
  after : List (String × Record)

namespace Joining

/-- A write under the lock, up to `execute` with the row that replaces the one of its key. -/
def write (m : Joining) (a : Assignment) : Option (Joining × Option (String × Row)) :=
  let item := (a.key, (m.map.stamp a.value a.timestamp a.writerId).2)
  match m.stage with
  | .closed =>
    -- `_persist_unlocked` returns at once.
    some ({ m with
      map := m.map.set a.key a.value a.timestamp a.writerId
      early := m.early ++ [item] }, none)
  | .opened =>
    (m.map.assign a).map fun (map, row) => ({ m with map, between := m.between ++ [item] }, row)
  | .read =>
    (m.map.assign a).map fun (map, row) => ({ m with map, after := m.after ++ [item] }, row)

/-- The map with its calls of `set` and `merge`. -/
def cache : WriteThrough Assignment Joining (String × Row) Rows where
  write := write
  update rows entry := rows.set entry.1 entry.2

end Joining

/-- Where `connect()` is suspended. -/
inductive Connecting
  | opening
  | creating
  | committing
  | acquiring
  | hydrating (left : List (String × Row))
  | done
deriving DecidableEq

/-- Whether `connect()` holds the lock. -/
def Connecting.holds : Connecting → Bool
  | .creating | .committing | .hydrating _ => true
  | _ => false

namespace Connecting

/-- The keys whose rows remain to be read. -/
def unread : Connecting → List String
  | .hydrating left => left.map Prod.fst
  | _ => []

/-- What the map knows of its database. -/
def stage : Connecting → Stage
  | .opening => .closed
  | .creating | .committing | .acquiring => .opened
  | .hydrating _ | .done => .read

end Connecting

/-- A map on which `connect()` was called. -/
structure ConnectingMap where
  cache : WriteThrough.State Assignment Joining (String × Row) Rows
  connecting : Connecting

/-- What can happen: a call of `set` or `merge` is made or goes on, or `connect()` goes on.
The rows are in the order in which the cursor yields them. -/
inductive ConnectEvent
  | call (writes : List Assignment)
  | resume (i : ℕ)
  | connect (order : List (String × Row))

namespace ConnectingMap

/-- A map with the rows of its database, when `connect()` is called. -/
def start (m : LWWMap) (rows : Rows) : ConnectingMap :=
  ⟨WriteThrough.init ⟨m, .closed, [], [], []⟩ rows, .opening⟩

/-- `connect()` up to its next await. -/
def connect (s : ConnectingMap) (order : List (String × Row)) : Option ConnectingMap :=
  let m := s.cache.memory
  match s.connecting with
  | .opening =>
    -- No call holds the lock, as none is suspended while there is no connection.
    if s.cache.lock = none then
      some ⟨{ s.cache with memory := { m with stage := .opened } }, .creating⟩
    else none
  | .creating => some { s with connecting := .committing }
  | .committing => some { s with connecting := .acquiring }
  | .acquiring =>
    if s.cache.lock = none ∧ order.Perm s.cache.working.items then
      some ⟨{ s.cache with memory := { m with stage := .read } }, .hydrating order⟩
    else none
  | .hydrating [] => some { s with connecting := .done }
  | .hydrating (entry :: left) =>
    (m.map.hydrateRow entry).map fun map =>
      ⟨{ s.cache with memory := { m with map } }, .hydrating left⟩
  | .done => none

/-- One event, if it is possible. -/
def next (s : ConnectingMap) : ConnectEvent → Option ConnectingMap
  | .call writes =>
    (Joining.cache.next s.cache (.call writes)).map fun cache => { s with cache }
  | .resume i =>
    -- All calls wait for the lock while `connect()` holds it.
    if s.connecting.holds then none
    else (Joining.cache.next s.cache (.resume i)).map fun cache => { s with cache }
  | .connect order => s.connect order

/-- `connect()` and all calls have returned. -/
def Finished (s : ConnectingMap) : Prop :=
  s.connecting = .done ∧ WriteThrough.Quiescent s.cache

/-- What `connect()` can do up to its next await: open the connection, go on without
touching the map, select the rows, or read one. -/
theorem connect_cases {s t : ConnectingMap} {order : List (String × Row)}
    (step : s.connect order = some t) :
    (s.connecting = .opening ∧ s.cache.lock = none ∧
      t = ⟨{ s.cache with memory := { s.cache.memory with stage := .opened } }, .creating⟩) ∨
    (s.connecting = .creating ∧ t = { s with connecting := .committing }) ∨
    (s.connecting = .committing ∧ t = { s with connecting := .acquiring }) ∨
    (s.connecting = .hydrating [] ∧ t = { s with connecting := .done }) ∨
    (s.connecting = .acquiring ∧ s.cache.lock = none ∧ order.Perm s.cache.working.items ∧
      t = ⟨{ s.cache with memory := { s.cache.memory with stage := .read } },
        .hydrating order⟩) ∨
    ∃ entry left map, s.connecting = .hydrating (entry :: left) ∧
      s.cache.memory.map.hydrateRow entry = some map ∧
        t = ⟨{ s.cache with memory := { s.cache.memory with map } }, .hydrating left⟩ := by
  unfold connect at step
  dsimp only at step
  split at step
  · rename_i opening
    split_ifs at step with unlocked
    exact .inl ⟨opening, unlocked, (Option.some.inj step).symm⟩
  · rename_i creating
    exact .inr (.inl ⟨creating, (Option.some.inj step).symm⟩)
  · rename_i committing
    exact .inr (.inr (.inl ⟨committing, (Option.some.inj step).symm⟩))
  · rename_i acquiring
    split_ifs at step with ready
    exact .inr (.inr (.inr (.inr (.inl
      ⟨acquiring, ready.1, ready.2, (Option.some.inj step).symm⟩))))
  · rename_i hydrated
    exact .inr (.inr (.inr (.inl ⟨hydrated, (Option.some.inj step).symm⟩)))
  · rename_i entry left hydrating
    obtain ⟨map, read, rfl⟩ := Option.map_eq_some_iff.mp step
    exact .inr (.inr (.inr (.inr (.inr ⟨entry, left, map, hydrating, read, rfl⟩))))
  · cases step

end ConnectingMap

/-! ### Levels -/

/-- The place of a record in the order of records; nothing is below all of them. -/
def Record.level (r : Option Record) : WithBot (ℤ ×ₗ String ×ₗ String) :=
  r.elim ⊥ fun r => r.rank

/-- The level of the entry of a key. -/
def LWWMap.level (m : LWWMap) (key : String) : WithBot (ℤ ×ₗ String ×ₗ String) :=
  Record.level (m.state.get? key)

/-- The level of the row of a key. -/
def Rows.level (rows : Rows) (key : String) : WithBot (ℤ ×ₗ String ×ₗ String) :=
  Record.level ((rows.get? key).bind Row.record?)

/-- The levels of the writes to a key. -/
def levels (key : String) (items : List (String × Record)) :
    List (WithBot (ℤ ×ₗ String ×ₗ String)) :=
  (items.filter (·.1 = key)).map fun item => item.2.rank

theorem Record.level_offer (held : Option Record) (r : Record) :
    level (some (Register.offer rank held r)) = max (level held) r.rank := by
  cases held with
  | none => exact (max_eq_right bot_le).symm
  | some e =>
    change ((Register.offer rank (some e) r).rank : WithBot (ℤ ×ₗ String ×ₗ String)) =
      max (e.rank : WithBot (ℤ ×ₗ String ×ₗ String)) r.rank
    rw [Register.offer, ← WithBot.coe_max]
    split_ifs with greater
    · rw [max_eq_right greater.le]
    · rw [max_eq_left (not_lt.mp greater)]

theorem LWWMap.level_set (m : LWWMap) (key : String) (value : Json) (timestamp : Option ℤ)
    (writerId : Option String) (other : String) :
    (m.set key value timestamp writerId).level other =
      if other = key then max (m.level key) (m.stamp value timestamp writerId).2.rank
      else m.level other := by
  rw [level, get?_set]
  split_ifs
  · exact Record.level_offer _ _
  · rfl

/-- The row of a record is read as a record of its level. -/
theorem Rows.level_set {rows : Rows} {key : String} {r : Record} {row : Row}
    (made : Row.ofRecord? r = some row) (distinct : r.value.Distinct) (other : String) :
    Rows.level (rows.set key row) other = if other = key then (r.rank : WithBot _)
      else Rows.level rows other := by
  rw [level, Dict.get?_set]
  split_ifs
  · have columns := Row.columns_of_ofRecord? made
    rw [Option.bind_some, Row.record?, LWWMap.loads_of_columns columns distinct]
    exact congrArg _ (LWWMap.rank_of_columns columns)
  · rfl

@[simp] theorem levels_nil (key : String) : levels key [] = [] := rfl

theorem levels_append_self (key : String) (items : List (String × Record)) (r : Record) :
    levels key (items ++ [(key, r)]) = levels key items ++ [(r.rank : WithBot _)] := by
  simp [levels]

theorem levels_append_of_ne {key other : String} (h : other ≠ key)
    (items : List (String × Record)) (r : Record) :
    levels other (items ++ [(key, r)]) = levels other items := by
  simp [levels, Ne.symm h]

namespace ConnectingMap

/-! ### Cells -/

variable {m m' : Joining} {rows : Rows} {first : String → Cell (WithBot (ℤ ×ₗ String ×ₗ String))}
  {unread : List String} {a : Assignment} {s t : ConnectingMap} {event : ConnectEvent}
  {events : List ConnectEvent}

/-- What the memory and rows hold for a key, by levels. -/
def cellOf (m : Joining) (rows : Rows) (key : String) : Cell (WithBot (ℤ ×ₗ String ×ₗ String)) :=
  ⟨m.map.level key, Rows.level rows key⟩

/-- Whether the row of a key was read, given the keys whose rows remain to be read. -/
def doneAt (m : Joining) (unread : List String) (key : String) : Bool :=
  decide (m.stage = .read ∧ key ∉ unread)

/-- The history of a key, given what memory and rows held at first. -/
def historyOf (first : String → Cell (WithBot (ℤ ×ₗ String ×ₗ String))) (unread : List String)
    (m : Joining) (key : String) : Cell (WithBot (ℤ ×ₗ String ×ₗ String)) :=
  Cell.history (first key) (levels key m.early) (levels key m.between) (doneAt m unread key)
    (levels key m.after)

/-- All keys are orderly so far. -/
def OrderlyOf (first : String → Cell (WithBot (ℤ ×ₗ String ×ₗ String))) (unread : List String)
    (m : Joining) : Prop :=
  ∀ key, Cell.Orderly (first key) (levels key m.early) (levels key m.between)
    (doneAt m unread key)

/-- Memory and rows have the history of a cell under every key. -/
structure Follows (first : String → Cell (WithBot (ℤ ×ₗ String ×ₗ String)))
    (unread : List String) (rows : Rows) (m : Joining) : Prop where
  cell : ∀ key, cellOf m rows key = historyOf first unread m key
  closed : m.stage = .closed → m.between = [] ∧ m.after = []
  opened : m.stage = .opened → m.after = []

/-- The writes of a map that connects. -/
theorem write_cases {row : Option (String × Row)} (written : m.write a = some (m', row)) :
    ∃ r, r = (m.map.stamp a.value a.timestamp a.writerId).2 ∧
      m'.map = m.map.set a.key a.value a.timestamp a.writerId ∧ m'.stage = m.stage ∧
      ((m.stage = .closed ∧ row = none ∧
        m' = { m with map := m'.map, early := m.early ++ [(a.key, r)] }) ∨
      m.map.assign a = some (m'.map, row) ∧
        (m.stage = .opened ∧ m' = { m with map := m'.map, between := m.between ++ [(a.key, r)] } ∨
        m.stage = .read ∧ m' = { m with map := m'.map, after := m.after ++ [(a.key, r)] })) := by
  refine ⟨_, rfl, ?_⟩
  unfold Joining.write at written
  dsimp only at written
  split at written
  · rename_i stage
    obtain ⟨rfl, rfl⟩ := Prod.mk.inj (Option.some.inj written)
    exact ⟨rfl, rfl, .inl ⟨stage, rfl, rfl⟩⟩
  · rename_i stage
    obtain ⟨⟨map, row'⟩, assigned, same⟩ := Option.map_eq_some_iff.mp written
    obtain ⟨rfl, rfl⟩ := Prod.mk.inj same
    exact ⟨LWWMap.assign_eq_set assigned, rfl, .inr ⟨assigned, .inl ⟨stage, rfl⟩⟩⟩
  · rename_i stage
    obtain ⟨⟨map, row'⟩, assigned, same⟩ := Option.map_eq_some_iff.mp written
    obtain ⟨rfl, rfl⟩ := Prod.mk.inj same
    exact ⟨LWWMap.assign_eq_set assigned, rfl, .inr ⟨assigned, .inr ⟨stage, rfl⟩⟩⟩

/-- A write asks for the row of its record exactly if the record exceeds the entry. -/
theorem assign_level {n : LWWMap} {row : Option (String × Row)}
    (assigned : LWWMap.assign n a = some (m'.map, row)) :
    (row = none ∧ ((n.stamp a.value a.timestamp a.writerId).2.rank : WithBot _) ≤ n.level a.key) ∨
      ∃ made, Row.ofRecord? (n.stamp a.value a.timestamp a.writerId).2 = some made ∧
        row = some (a.key, made) ∧
        n.level a.key < (n.stamp a.value a.timestamp a.writerId).2.rank := by
  have state := n.stamp_state a.value a.timestamp a.writerId
  unfold LWWMap.assign at assigned
  unfold LWWMap.level
  generalize n.stamp a.value a.timestamp a.writerId = stamped at assigned state ⊢
  obtain ⟨n', r⟩ := stamped
  dsimp only at assigned state ⊢
  rw [← state]
  rcases n'.store_eq a.key r with ⟨⟨e, present, stands⟩, stored⟩ | ⟨falls, stored⟩
  · rw [stored] at assigned
    cases assigned
    have below := mt Record.supersedes_iff.mpr (Bool.not_eq_true _ ▸ stands)
    rw [present]
    exact .inl ⟨rfl, WithBot.coe_le_coe.mpr (not_lt.mp below)⟩
  · rw [stored] at assigned
    obtain ⟨made, here, same⟩ := Option.map_eq_some_iff.mp assigned
    obtain ⟨-, rfl⟩ := Prod.mk.inj same
    refine .inr ⟨made, here, rfl, ?_⟩
    cases present : n'.state.get? a.key with
    | none => exact WithBot.bot_lt_coe _
    | some e =>
      have newer : r.supersedes e = true := by
        by_contra older
        exact falls ⟨e, present, Bool.not_eq_true _ ▸ older⟩
      exact WithBot.coe_lt_coe.mpr (Record.supersedes_iff.mp newer)

/-- The cells after a write that goes through. -/
theorem cellOf_assign {row : Option (String × Row)}
    (assigned : LWWMap.assign m.map a = some (m'.map, row)) (key : String) :
    cellOf m' (row.elim rows fun entry => rows.set entry.1 entry.2) key =
      if key = a.key then (cellOf m rows key).putThrough
        ((m.map.stamp a.value a.timestamp a.writerId).2.rank : WithBot _)
      else cellOf m rows key := by
  have map := LWWMap.assign_eq_set assigned
  have distinct : (m.map.stamp a.value a.timestamp a.writerId).2.value.Distinct := by
    cases a.timestamp <;> exact a.distinct
  unfold cellOf
  rw [map, LWWMap.level_set]
  rcases assign_level assigned with ⟨rfl, below⟩ | ⟨made, here, rfl, above⟩
  · -- The entry stands, and no row is written.
    split_ifs with same
    · subst same
      rw [Cell.putThrough, if_neg (not_lt.mpr below), max_eq_left below]
      rfl
    · rfl
  · rw [Option.elim_some, Rows.level_set here distinct]
    split_ifs with same
    · subst same
      rw [Cell.putThrough, if_pos above, max_eq_right above.le]
    · rfl

/-- What a write does to the cells, the rows being those with its update. -/
theorem Follows.write {row : Option (String × Row)} (follows : Follows first unread rows m)
    (written : m.write a = some (m', row)) :
    Follows first unread (row.elim rows fun entry => rows.set entry.1 entry.2) m' := by
  obtain ⟨r, record, map, stage, ⟨closed, rfl, same⟩ | ⟨assigned, ⟨opened, same⟩ | ⟨read, same⟩⟩⟩ :=
    write_cases written
  · -- A write to the memory alone.
    obtain ⟨between, after⟩ := follows.closed closed
    have cells : ∀ key, cellOf m' rows key =
        if key = a.key then (cellOf m rows key).put (r.rank : WithBot _)
        else cellOf m rows key := by
      intro key
      unfold cellOf
      rw [map, LWWMap.level_set, record]
      split_ifs with same
      · subst same
        rfl
      · rfl
    rw [same] at cells ⊢
    refine ⟨fun key => ?_, fun _ => ⟨between, after⟩, fun opened => ?_⟩
    · rw [Option.elim_none, cells, follows.cell]
      unfold historyOf doneAt
      simp only [between, after, closed]
      split_ifs with here
      · subst here
        rw [levels_append_self]
        simp [Cell.history, levels]
      · rw [levels_append_of_ne here]
    · exact after
  · -- A write that goes through before the rows are read.
    have after := follows.opened opened
    have cells (key : String) :
        cellOf m' (row.elim rows fun entry => rows.set entry.1 entry.2) key = _ :=
      cellOf_assign assigned key
    rw [same] at cells ⊢
    refine ⟨fun key => ?_, fun closed => ?_, fun _ => after⟩
    · rw [cells, follows.cell]
      unfold historyOf doneAt
      simp only [after, opened]
      split_ifs with here
      · subst here
        rw [levels_append_self, record]
        simp [Cell.history, levels]
      · rw [levels_append_of_ne here]
    · rw [opened] at closed
      cases closed
  · -- A write that goes through after the rows are read.
    have cells (key : String) :
        cellOf m' (row.elim rows fun entry => rows.set entry.1 entry.2) key = _ :=
      cellOf_assign assigned key
    rw [same] at cells ⊢
    refine ⟨fun key => ?_, fun closed => ?_, fun opened => ?_⟩
    · rw [cells, follows.cell]
      unfold historyOf doneAt
      split_ifs with here
      · subst here
        rw [levels_append_self, record]
        simp [Cell.history]
      · rw [levels_append_of_ne here]
    · rw [read] at closed
      cases closed
    · rw [read] at opened
      cases opened

/-- A write goes forward exactly if it leaves the map orderly. -/
theorem write_forward_iff {row : Option (String × Row)} (follows : Follows first unread rows m)
    (all : m.stage = .read → unread = []) (orderly : OrderlyOf first unread m)
    (written : m.write a = some (m', row)) :
    (∀ key, (historyOf first unread m key).Forward (historyOf first unread m' key)) ↔
      OrderlyOf first unread m' := by
  obtain ⟨r, -, map, stage, ⟨closed, -, same⟩ | ⟨-, ⟨opened, same⟩ | ⟨read, same⟩⟩⟩ :=
    write_cases written
  · -- Before the connection, a write goes forward and nothing is out of order.
    obtain ⟨between, after⟩ := follows.closed closed
    rw [same]
    unfold historyOf OrderlyOf doneAt
    simp only [between, after, closed, levels_nil, reduceCtorEq, false_and, decide_false]
    refine iff_of_true (fun key => ?_) fun key => Cell.orderly_nil _ _
    by_cases here : key = a.key
    · subst here
      rw [levels_append_self]
      exact Cell.forward_early _ _ _
    · rw [levels_append_of_ne here]
      exact ⟨le_rfl, le_rfl⟩
  · have after := follows.opened opened
    rw [same]
    unfold historyOf doneAt OrderlyOf doneAt at *
    simp only [after, opened, levels_nil, reduceCtorEq, false_and, decide_false] at orderly ⊢
    refine forall_congr' fun key => ?_
    by_cases here : key = a.key
    · subst here
      rw [levels_append_self]
      exact Cell.forward_between_iff (orderly a.key) (r.rank : WithBot _)
    · rw [levels_append_of_ne here]
      exact iff_of_true ⟨le_rfl, le_rfl⟩ (orderly key)
  · have empty := all read
    rw [same]
    unfold historyOf doneAt OrderlyOf doneAt at *
    refine iff_of_true (fun key => ?_) orderly
    simp only [read, empty, List.not_mem_nil, not_false_eq_true, and_self, decide_true]
    by_cases here : key = a.key
    · subst here
      rw [levels_append_self]
      exact Cell.forward_after _ _ _ _ _
    · rw [levels_append_of_ne here]
      exact ⟨le_rfl, le_rfl⟩

/-- Reading more rows goes forward exactly if it leaves the map orderly. -/
theorem read_forward_iff {unread' : List String} (logs : m'.early = m.early ∧
      m'.between = m.between ∧ m.after = [] ∧ m'.after = [])
    (more : ∀ key, doneAt m unread key = true → doneAt m' unread' key = true)
    (orderly : OrderlyOf first unread m) :
    (∀ key, (historyOf first unread m key).Forward (historyOf first unread' m' key)) ↔
      OrderlyOf first unread' m' := by
  obtain ⟨early, between, after, after'⟩ := logs
  unfold historyOf OrderlyOf at *
  rw [early, between, after, after']
  refine forall_congr' fun key => ?_
  have before := orderly key
  cases was : doneAt m unread key with
  | true =>
    rw [was] at before
    rw [more key was]
    exact iff_of_true ⟨le_rfl, le_rfl⟩ before
  | false =>
    rw [was] at before
    cases doneAt m' unread' key with
    | true => exact Cell.forward_read_iff before
    | false => exact iff_of_true ⟨le_rfl, le_rfl⟩ before

end ConnectingMap

end AgentTelepathy
