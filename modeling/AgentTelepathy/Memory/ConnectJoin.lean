import AgentTelepathy.Memory.Connect

/-!
# What a map joins when it connects

Every interleaving of `connect()` with calls of `set` and `merge` takes each key through
the history of a cell: the lock keeps the writes, with their rows, apart from each other and
from the reading. So nothing goes back, and the greatest of row, entry and writes is what is
left, exactly if each key is in order.
-/

namespace AgentTelepathy

open Foundation Foundation.Transition

namespace ConnectingMap

variable {m' : Joining} {rows : Rows} {first : String → Cell (WithBot (ℤ ×ₗ String ×ₗ String))}
  {s t : ConnectingMap} {event : ConnectEvent} {events : List ConnectEvent} {m : Joining}

/-! ### Runs -/

/-- The rows as the call that holds the lock leaves them. -/
def settledRows (c : WriteThrough.State Assignment Joining (String × Row) Rows) : Rows :=
  (c.lock.bind fun i => c.calls[i]?).elim c.working (WriteThrough.settled Joining.cache c.working)

/-- The memory follows the cells, the stage of the map is that of `connect()`, which reads
each row once and is alone while it holds the lock. -/
structure Consistent (first : String → Cell (WithBot (ℤ ×ₗ String ×ₗ String)))
    (s : ConnectingMap) : Prop where
  mirrored : WriteThrough.Mirrored Joining.cache (Follows first s.connecting.unread) s.cache
  stage : s.cache.memory.stage = s.connecting.stage
  locked : s.connecting.holds = true → s.cache.lock = none
  reading : ∀ left, s.connecting = .hydrating left → (left.map Prod.fst).Nodup ∧
    (∀ entry ∈ left, entry ∈ s.cache.working.items) ∧ s.cache.memory.after = []

theorem consistent_start (n : LWWMap) (rows : Rows) :
    Consistent (fun key => ⟨n.level key, Rows.level rows key⟩) (start n rows) where
  mirrored := ⟨fun _ _ found => absurd (List.mem_of_getElem? found) List.not_mem_nil,
    fun _ => ⟨rfl, fun _ => rfl, fun _ => ⟨rfl, rfl⟩, fun _ => rfl⟩, nofun⟩
  stage := rfl
  locked := nofun
  reading := nofun

/-- The memory changes while no call holds the lock. -/
theorem mirrored_of_free {M' : Rows → Joining → Prop} {N : Rows → Joining → Prop}
    {c : WriteThrough.State Assignment Joining (String × Row) Rows}
    (mirrored : WriteThrough.Mirrored Joining.cache N c) (free : c.lock = none)
    (related : N c.working c.memory → M' c.working m') :
    WriteThrough.Mirrored Joining.cache M' { c with memory := m' } := by
  obtain ⟨same, before⟩ := mirrored.free free
  refine ⟨mirrored.holder, fun _ => ⟨same, related before⟩, fun i held => ?_⟩
  rw [show c.lock = some i from held] at free
  cases free

/-- What calls do to the memory: nothing, or one of them takes the lock and writes. -/
theorem cache_next_cases {c c' : WriteThrough.State Assignment Joining (String × Row) Rows}
    {e : WriteThrough.Event Assignment} (step : Joining.cache.next c e = some c') :
    c'.memory = c.memory ∨ ∃ a row, c.lock = none ∧ Joining.write c.memory a =
      some (c'.memory, row) := by
  cases e with
  | call writes =>
    cases step
    exact .inl rfl
  | resume i =>
    obtain ⟨call, -, resumed⟩ := Option.bind_eq_some_iff.mp step
    obtain ⟨w, later, memory, -, free, ⟨u, written, rfl⟩ | ⟨written, rfl⟩⟩ |
      ⟨u, later, -, rfl⟩ | ⟨later, -, rfl⟩ := WriteThrough.resume_cases resumed
    · exact .inr ⟨w, some u, free, written⟩
    · exact .inr ⟨w, none, free, written⟩
    · exact .inl rfl
    · exact .inl rfl

theorem Consistent.cache_next (consistent : Consistent first s)
    {c : WriteThrough.State Assignment Joining (String × Row) Rows}
    {e : WriteThrough.Event Assignment} (step : Joining.cache.next s.cache e = some c) :
    WriteThrough.Mirrored Joining.cache (Follows first s.connecting.unread) c ∧
      c.memory.stage = s.connecting.stage := by
  constructor
  · exact consistent.mirrored.next (fun _ _ _ _ follows written => follows.write written)
      (fun _ _ _ _ _ follows written => follows.write written) step
  · rw [← consistent.stage]
    rcases cache_next_cases step with same | ⟨a, row, -, written⟩
    · rw [same]
    · obtain ⟨-, -, -, stage, -⟩ := write_cases written
      exact stage

/-- Reading one row. -/
theorem Follows.hydrate {entry : String × Row} {left : List (String × Row)} {map : LWWMap}
    (follows : Follows first ((entry :: left).map Prod.fst) rows m)
    (fresh : entry.1 ∉ left.map Prod.fst) (stored : entry ∈ rows.items) (read : m.stage = .read)
    (after : m.after = []) (hydrated : m.map.hydrateRow entry = some map) :
    Follows first (left.map Prod.fst) rows { m with map := map } := by
  obtain ⟨value, loaded, rfl⟩ := Option.map_eq_some_iff.mp hydrated
  refine ⟨fun key => ?_, fun closed => ?_, fun _ => after⟩
  · have before := follows.cell key
    unfold historyOf doneAt at before ⊢
    unfold cellOf at before ⊢
    have entries : LWWMap.level { m.map with
          state := m.map.state.set entry.1 ⟨value, entry.2.timestamp, entry.2.writerId⟩
          logicalClock := max m.map.logicalClock entry.2.timestamp } key =
        if key = entry.1 then Rows.level rows key else m.map.level key := by
      unfold LWWMap.level
      rw [Dict.get?_set]
      split_ifs with here
      · rw [Rows.level, here, Dict.get?_eq_some_iff.mpr stored, Option.bind_some, Row.record?,
          loaded]
        rfl
      · rfl
    rw [entries]
    by_cases here : key = entry.1
    · -- There is a row under this key, so reading it replaces the memory.
      subst here
      have something : Rows.level rows entry.1 ≠ ⊥ := by
        rw [Rows.level, Dict.get?_eq_some_iff.mpr stored, Option.bind_some, Row.record?, loaded]
        exact WithBot.coe_ne_bot
      simp only [read, List.map_cons, List.mem_cons, true_or, not_true_eq_false, and_false,
        decide_false, after, levels_nil] at before
      simp only [if_true, read, fresh, not_false_eq_true, and_self, decide_true, after, levels_nil]
      change _ = Cell.read (Cell.history _ _ _ false [])
      rw [← before, Cell.read_of_stored something]
    · rw [if_neg here, before, List.map_cons]
      simp only [List.mem_cons, here, false_or]
  · rw [show m.stage = .closed from closed] at read
    cases read

/-- Taking the rows from the cursor, of which none is read yet. -/
theorem Follows.select {order : List (String × Row)} (follows : Follows first [] rows m)
    (yields : order.Perm rows.items) (opened : m.stage = .opened) :
    Follows first (order.map Prod.fst) rows { m with stage := .read } := by
  have after := follows.opened opened
  refine ⟨fun key => ?_, nofun, fun _ => after⟩
  have before := follows.cell key
  unfold historyOf doneAt at before ⊢
  simp only [opened, reduceCtorEq, false_and, decide_false, after, levels_nil] at before
  change cellOf m rows key = _
  by_cases stored : key ∈ order.map Prod.fst
  · rw [before]
    simp only [stored, not_true_eq_false, and_false, decide_false, after, levels_nil]
  · -- There is nothing to be read under this key.
    have absent : (cellOf m rows key).store = ⊥ := by
      have none' : rows.get? key = none := by
        rw [← Option.not_isSome_iff_eq_none]
        intro present
        obtain ⟨row, found⟩ := Option.isSome_iff_exists.mp present
        have member := yields.mem_iff.mpr (Dict.get?_eq_some_iff.mp found)
        exact stored (List.mem_map_of_mem member)
      change Rows.level rows key = ⊥
      rw [Rows.level, none']
      rfl
    simp only [stored, not_false_eq_true, and_self, decide_true, after, levels_nil]
    change _ = Cell.read (Cell.history _ _ _ false [])
    rw [← before, Cell.read_of_empty absent]

/-- What `connect()` does to the memory and the rows. -/
theorem Consistent.connect (consistent : Consistent first s) {order : List (String × Row)}
    (step : s.connect order = some t) : Consistent first t := by
  have free := consistent.locked
  have stage := consistent.stage
  have mirrored := consistent.mirrored
  have reading := consistent.reading
  obtain ⟨opening, unlocked, rfl⟩ |
    ⟨creating, rfl⟩ | ⟨committing, rfl⟩ | ⟨hydrated, rfl⟩ |
    ⟨acquiring, unlocked, yields, rfl⟩ | ⟨entry, left, map, hydrating, hydrated, rfl⟩ :=
      connect_cases step
  · -- The connection is open.
    rw [opening] at stage mirrored
    refine ⟨mirrored_of_free mirrored unlocked fun follows => ?_, rfl, fun _ => unlocked, nofun⟩
    obtain ⟨between, after⟩ := follows.closed stage
    refine ⟨fun key => ?_, nofun, fun _ => after⟩
    have before := follows.cell key
    unfold historyOf doneAt at before ⊢
    rw [stage] at before
    exact before
  · rw [creating] at stage mirrored free
    exact ⟨mirrored, stage, fun _ => free rfl, nofun⟩
  · rw [committing] at stage mirrored
    exact ⟨mirrored, stage, nofun, nofun⟩
  · rw [hydrated] at stage mirrored
    exact ⟨mirrored, stage, nofun, nofun⟩
  · -- The rows are selected.
    rw [acquiring] at stage mirrored
    have follows := (mirrored.free unlocked).2
    refine ⟨mirrored_of_free mirrored unlocked fun follows => follows.select yields stage, rfl,
      fun _ => unlocked, ?_⟩
    rintro left same
    obtain rfl := Connecting.hydrating.inj same
    exact ⟨(yields.map Prod.fst).nodup_iff.mpr s.cache.working.nodupKeys,
      fun entry member => yields.mem_iff.mp member, follows.opened stage⟩
  · -- A row is read.
    rw [hydrating] at stage mirrored free
    obtain ⟨nodup, stored, after⟩ := reading _ hydrating
    obtain ⟨fresh, rest⟩ := List.nodup_cons.mp nodup
    refine ⟨mirrored_of_free mirrored (free rfl) fun follows =>
      follows.hydrate fresh (stored entry List.mem_cons_self) stage after hydrated, stage,
      fun _ => free rfl, ?_⟩
    rintro left' same
    obtain rfl := Connecting.hydrating.inj same
    exact ⟨rest, fun other member => stored other (List.mem_cons_of_mem _ member), after⟩

theorem Consistent.next (consistent : Consistent first s) (step : s.next event = some t) :
    Consistent first t := by
  cases event with
  | call writes =>
    rw [ConnectingMap.next] at step
    obtain ⟨c, stepped, rfl⟩ := Option.map_eq_some_iff.mp step
    obtain ⟨mirrored, stage⟩ := consistent.cache_next stepped
    cases stepped
    exact ⟨mirrored, stage, consistent.locked, consistent.reading⟩
  | resume i =>
    unfold ConnectingMap.next at step
    split_ifs at step with alone
    obtain ⟨c, stepped, rfl⟩ := Option.map_eq_some_iff.mp step
    obtain ⟨mirrored, stage⟩ := consistent.cache_next stepped
    refine ⟨mirrored, stage, fun holds => absurd holds alone, fun left hydrating => ?_⟩
    have holds : s.connecting.holds = true := by
      rw [show s.connecting = .hydrating left from hydrating]
      rfl
    exact absurd holds alone
  | connect order => exact consistent.connect step

/-- All keys of the map are orderly so far. -/
def Orderly (first : String → Cell (WithBot (ℤ ×ₗ String ×ₗ String))) (s : ConnectingMap) : Prop :=
  OrderlyOf first s.connecting.unread s.cache.memory

/-- What a step does to the logs: it makes a write, or it changes nothing, or it reads rows. -/
theorem Consistent.logs (consistent : Consistent first s) (step : s.next event = some t) :
    (∃ a row, s.cache.lock = none ∧ s.connecting.holds = false ∧ t.connecting = s.connecting ∧
      Joining.write s.cache.memory a = some (t.cache.memory, row)) ∨
    (t.cache.memory.early = s.cache.memory.early ∧
      t.cache.memory.between = s.cache.memory.between ∧
      t.cache.memory.after = s.cache.memory.after ∧ ∀ key,
        doneAt t.cache.memory t.connecting.unread key =
          doneAt s.cache.memory s.connecting.unread key) ∨
    (t.cache.memory.early = s.cache.memory.early ∧
      t.cache.memory.between = s.cache.memory.between ∧ s.cache.memory.after = [] ∧
      t.cache.memory.after = []) ∧ ∀ key,
        doneAt s.cache.memory s.connecting.unread key = true →
          doneAt t.cache.memory t.connecting.unread key = true := by
  cases event with
  | call writes =>
    rw [ConnectingMap.next] at step
    obtain ⟨c, stepped, rfl⟩ := Option.map_eq_some_iff.mp step
    cases stepped
    exact .inr (.inl ⟨rfl, rfl, rfl, fun _ => rfl⟩)
  | resume i =>
    unfold ConnectingMap.next at step
    split_ifs at step with alone
    obtain ⟨c, stepped, rfl⟩ := Option.map_eq_some_iff.mp step
    rcases cache_next_cases stepped with same | ⟨a, row, free, written⟩
    · exact .inr (.inl (by simp only [same, and_self, implies_true]))
    · exact .inl ⟨a, row, free, Bool.not_eq_true _ ▸ alone, rfl, written⟩
  | connect order =>
    have stage := consistent.stage
    obtain ⟨opening, unlocked, rfl⟩ |
      ⟨creating, rfl⟩ | ⟨committing, rfl⟩ | ⟨hydrated, rfl⟩ |
      ⟨acquiring, unlocked, yields, rfl⟩ | ⟨entry, left, map, hydrating, hydrated, rfl⟩ :=
        connect_cases step
    · refine .inr (.inl ⟨rfl, rfl, rfl, fun key => ?_⟩)
      rw [opening] at stage
      unfold doneAt
      rw [stage]
      rfl
    · exact .inr (.inl ⟨rfl, rfl, rfl, fun _ => by rw [creating]; rfl⟩)
    · exact .inr (.inl ⟨rfl, rfl, rfl, fun _ => by rw [committing]; rfl⟩)
    · exact .inr (.inl ⟨rfl, rfl, rfl, fun _ => by rw [hydrated]; rfl⟩)
    · rw [acquiring] at stage
      have after := (consistent.mirrored.free unlocked).2.opened stage
      refine .inr (.inr ⟨⟨rfl, rfl, after, after⟩, fun key was => ?_⟩)
      unfold doneAt at was
      rw [stage] at was
      cases was
    · obtain ⟨-, -, after⟩ := consistent.reading _ hydrating
      refine .inr (.inr ⟨⟨rfl, rfl, after, after⟩, fun key was => ?_⟩)
      rw [hydrating] at was
      obtain ⟨read, all⟩ := of_decide_eq_true was
      exact decide_eq_true ⟨read, fun member => all (List.mem_cons_of_mem _ member)⟩

/-- A step goes forward in the cells exactly if it leaves the map orderly. -/
theorem Consistent.forward_iff (consistent : Consistent first s) (orderly : Orderly first s)
    (step : s.next event = some t) :
    (∀ key, (historyOf first s.connecting.unread s.cache.memory key).Forward
      (historyOf first t.connecting.unread t.cache.memory key)) ↔ Orderly first t := by
  rcases consistent.logs step with ⟨a, row, free, alone, same, written⟩ |
    ⟨early, between, after, done⟩ | ⟨logs, more⟩
  · have all : s.cache.memory.stage = .read → s.connecting.unread = [] := by
      intro read
      have stage := consistent.stage
      cases connecting : s.connecting with
      | hydrating left =>
        rw [connecting] at alone
        cases alone
      | _ => rfl
    have follows := (consistent.mirrored.free free).2
    unfold Orderly
    rw [same]
    exact write_forward_iff follows all orderly written
  · unfold Orderly historyOf OrderlyOf at *
    simp only [early, between, after, done]
    exact iff_of_true (fun key => ⟨le_rfl, le_rfl⟩) orderly
  · exact read_forward_iff logs more orderly

/-- A map that is orderly was so before. -/
theorem Consistent.orderly_of_next (consistent : Consistent first s) (step : s.next event = some t)
    (orderly : Orderly first t) : Orderly first s := by
  unfold Orderly OrderlyOf at *
  rcases consistent.logs step with ⟨a, row, free, alone, same, written⟩ |
    ⟨early, between, after, done⟩ | ⟨⟨early, between, -⟩, more⟩
  · rw [same] at orderly
    obtain ⟨r, -, map, stage, ⟨closed, -, wrote⟩ | ⟨-, ⟨opened, wrote⟩ | ⟨read, wrote⟩⟩⟩ :=
      write_cases written
    · have between := ((consistent.mirrored.free free).2.closed closed).1
      intro key
      unfold doneAt
      rw [between, closed]
      exact Cell.orderly_nil _ _
    · intro key
      have later := orderly key
      rw [wrote] at later
      unfold doneAt at later ⊢
      rw [opened]
      by_cases here : key = a.key
      · subst here
        rw [levels_append_self] at later
        exact later.of_append
      · rw [levels_append_of_ne here] at later
        simpa [opened] using later
    · intro key
      have later := orderly key
      rw [wrote] at later
      exact later
  · simpa only [early, between, done] using orderly
  · intro key
    have later := orderly key
    rw [early, between] at later
    cases was : doneAt s.cache.memory s.connecting.unread key with
    | true =>
      rw [more key was] at later
      exact later
    | false =>
      cases now : doneAt t.cache.memory t.connecting.unread key with
      | true =>
        rw [now] at later
        exact later.unread
      | false =>
        rw [now] at later
        exact later

/-! ### Rows -/

theorem Consistent.cell (consistent : Consistent first s) (key : String) :
    cellOf s.cache.memory (settledRows s.cache) key =
      historyOf first s.connecting.unread s.cache.memory key := by
  unfold settledRows
  cases lock : s.cache.lock with
  | none => exact (consistent.mirrored.free lock).2.cell key
  | some i =>
    obtain ⟨call, found, -, follows⟩ := consistent.mirrored.held i lock
    rw [Option.bind_some, found]
    exact follows.cell key

/-- What a step does to the rows: nothing, or a call takes the lock, or its update is
committed. -/
theorem Consistent.rows_next (consistent : Consistent first s) (step : s.next event = some t) :
    t.cache.committed = s.cache.committed ∧ settledRows t.cache = settledRows s.cache ∨
      t.cache.committed = s.cache.committed ∧ settledRows s.cache = s.cache.committed ∨
      t.cache.committed = settledRows s.cache ∧ settledRows t.cache = settledRows s.cache := by
  have mirrored := consistent.mirrored
  cases event with
  | call writes =>
    rw [ConnectingMap.next] at step
    obtain ⟨c, stepped, rfl⟩ := Option.map_eq_some_iff.mp step
    cases stepped
    refine .inl ⟨rfl, ?_⟩
    unfold settledRows
    cases lock : s.cache.lock with
    | none => rfl
    | some i =>
      obtain ⟨call, found, -⟩ := mirrored.held i lock
      simp only [Option.bind_some]
      rw [List.getElem?_append_left (List.getElem?_eq_some_iff.mp found).1]
  | resume i =>
    unfold ConnectingMap.next at step
    split_ifs at step with alone
    obtain ⟨c, stepped, rfl⟩ := Option.map_eq_some_iff.mp step
    obtain ⟨call, here, resumed⟩ := Option.bind_eq_some_iff.mp stepped
    have moved (call' : WriteThrough.Call Assignment (String × Row)) :
        (s.cache.calls.set i call')[i]? = some call' :=
      List.getElem?_set_self (List.getElem?_eq_some_iff.mp here).1
    unfold settledRows
    obtain ⟨w, later, memory, rfl, free, ⟨u, written, rfl⟩ | ⟨written, rfl⟩⟩ |
      ⟨u, later, rfl, rfl⟩ | ⟨later, rfl, rfl⟩ := WriteThrough.resume_cases resumed
    · refine .inr (.inl ⟨rfl, ?_⟩)
      rw [free]
      exact (mirrored.free free).1.symm
    · refine .inl ⟨rfl, ?_⟩
      simp only [free, Option.bind_none]
    · have lock := mirrored.holder i _ here rfl
      refine .inl ⟨rfl, ?_⟩
      simp only [lock, Option.bind_some, moved, here]
      rfl
    · have lock := mirrored.holder i _ here rfl
      refine .inr (.inr ?_)
      simp only [lock, Option.bind_some, Option.bind_none, here]
      exact ⟨rfl, rfl⟩
  | connect order =>
    obtain ⟨-, -, rfl⟩ | ⟨-, rfl⟩ | ⟨-, rfl⟩ | ⟨-, rfl⟩ | ⟨-, -, -, rfl⟩ | ⟨-, -, -, -, -, rfl⟩ :=
      connect_cases step
    all_goals exact .inl ⟨rfl, rfl⟩

/-- Neither an entry nor a row that is committed goes back by the event. -/
def Forward (s : ConnectingMap) (event : ConnectEvent) : Prop :=
  ∀ t, s.next event = some t → ∀ key,
    s.cache.memory.map.level key ≤ t.cache.memory.map.level key ∧
      Rows.level s.cache.committed key ≤ Rows.level t.cache.committed key

/-- No row is newer than what the call that holds the lock puts in its place. -/
def Rising (s : ConnectingMap) : Prop :=
  ∀ key, Rows.level s.cache.committed key ≤ Rows.level (settledRows s.cache) key

/-- The committed rows catch up with the cells. -/
theorem Consistent.forward_and_rising_iff (consistent : Consistent first s)
    (step : s.next event = some t) :
    s.Forward event ∧ t.Rising ↔ (∀ key, (cellOf s.cache.memory (settledRows s.cache) key).Forward
      (cellOf t.cache.memory (settledRows t.cache) key)) ∧ s.Rising := by
  have forward : s.Forward event ↔ ∀ key,
      s.cache.memory.map.level key ≤ t.cache.memory.map.level key ∧
        Rows.level s.cache.committed key ≤ Rows.level t.cache.committed key := by
    refine ⟨fun h => h t step, fun h t' step' => ?_⟩
    obtain rfl := Option.some.inj (step.symm.trans step')
    exact h
  rw [forward]
  unfold Rising Cell.Forward cellOf
  rw [← forall_and, ← forall_and]
  refine forall_congr' fun key => ?_
  rcases consistent.rows_next step with ⟨kept, settled⟩ | ⟨kept, free⟩ | ⟨committed, settled⟩
  · rw [kept, settled]
    simp only [le_refl, and_true]
  · rw [kept, free]
    simp only [le_refl, and_true]
  · rw [committed, settled]
    simp only [le_refl, and_true]

/-! ### The join -/

variable {n : LWWMap}

/-- What the entry and the row of each key are when `connect()` is called. -/
def firstCells (n : LWWMap) (rows : Rows) (key : String) :
    Cell (WithBot (ℤ ×ₗ String ×ₗ String)) :=
  ⟨n.level key, Rows.level rows key⟩

/-- A run goes forward, up to the row that is being written, exactly if its end is orderly. -/
theorem forward_run_iff (run : Run (OfPartial next) (start n rows) events s) :
    Run (Guarded (OfPartial next) Forward) (start n rows) events s ∧ s.Rising ↔
      Orderly (firstCells n rows) s := by
  induction run with
  | nil => exact iff_of_true ⟨.nil, fun key => le_rfl⟩ fun key => Cell.orderly_nil _ _
  | @snoc events t s event before step ih =>
    have consistent : Consistent (firstCells n rows) t :=
      before.invariant (fun _ _ _ consistent step => consistent.next step) (consistent_start n rows)
    have guarded : Run (Guarded (OfPartial next) Forward) (start n rows) (events ++ [event]) s ↔
        Run (Guarded (OfPartial next) Forward) (start n rows) events t ∧ t.Forward event := by
      refine ⟨fun whole => ?_, fun h => .snoc h.1 ⟨step, h.2⟩⟩
      obtain ⟨t', before', -, forward⟩ := whole.last
      obtain rfl := before.unique before'.of_guarded
      exact ⟨before', forward⟩
    have cells : (∀ key, (cellOf t.cache.memory (settledRows t.cache) key).Forward
        (cellOf s.cache.memory (settledRows s.cache) key)) ↔ ∀ key,
        (historyOf (firstCells n rows) t.connecting.unread t.cache.memory key).Forward
          (historyOf (firstCells n rows) s.connecting.unread s.cache.memory key) :=
      forall_congr' fun key => by rw [consistent.cell, (consistent.next step).cell]
    rw [guarded, and_assoc, consistent.forward_and_rising_iff step, cells, and_comm (b := t.Rising),
      ← and_assoc, ih]
    constructor
    · rintro ⟨orderly, forward⟩
      exact (consistent.forward_iff orderly step).mp forward
    · intro orderly
      have earlier := consistent.orderly_of_next step orderly
      exact ⟨earlier, (consistent.forward_iff earlier step).mpr orderly⟩

/-- Each entry and its row are the greatest of the row and the entry that were there when
`connect()` was called and the writes since. -/
def Joined (n : LWWMap) (rows : Rows) (s : ConnectingMap) : Prop :=
  let m := s.cache.memory
  ∀ key, m.map.level key = (levels key (m.early ++ m.between ++ m.after)).foldl max
      (max (Rows.level rows key) (n.level key)) ∧
    Rows.level s.cache.committed key = m.map.level key

/-- The condition on a key. If a write between the opening and the reading supersedes the
entry held at the opening, the first of them is not older than the row. Otherwise the row
is not older than that entry; and if there is no row, there is no entry either or a write
after the reading supersedes it. -/
def InOrder (n : LWWMap) (rows : Rows) (s : ConnectingMap) (key : String) : Prop :=
  let m := s.cache.memory
  Cell.Orderly (firstCells n rows key) (levels key m.early) (levels key m.between) true ∧
    Cell.Covered (firstCells n rows key) (levels key m.early) (levels key m.between)
      (levels key m.after)

/-- At the end no call holds the lock. -/
theorem Finished.settled {first : String → Cell (WithBot (ℤ ×ₗ String ×ₗ String))}
    (finished : s.Finished) (consistent : Consistent first s) :
    settledRows s.cache = s.cache.committed := by
  have mirrored := consistent.mirrored
  unfold settledRows
  cases lock : s.cache.lock with
  | none => exact (mirrored.free lock).1.symm
  | some i =>
    obtain ⟨call, found, holds, -⟩ := mirrored.held i lock
    rw [finished.2 call (List.mem_of_getElem? found)] at holds
    cases holds

/-- When `connect()` and all calls have returned, nothing has gone back and the map has
joined its memory with the rows exactly if all keys are in order. -/
theorem connect_joins_iff (run : Run (OfPartial next) (start n rows) events s)
    (finished : s.Finished) :
    Run (Guarded (OfPartial next) Forward) (start n rows) events s ∧ Joined n rows s ↔
      ∀ key, InOrder n rows s key := by
  have consistent : Consistent (firstCells n rows) s :=
    run.invariant (fun _ _ _ consistent step => consistent.next step) (consistent_start n rows)
  have settled := finished.settled consistent
  have rising : s.Rising := fun key => by rw [settled]
  have done : ∀ key, doneAt s.cache.memory s.connecting.unread key = true := by
    intro key
    have stage := consistent.stage
    rw [finished.1] at stage ⊢
    exact decide_eq_true ⟨stage, List.not_mem_nil⟩
  have orderly : Run (Guarded (OfPartial next) Forward) (start n rows) events s ↔
      ∀ key, Cell.Orderly (firstCells n rows key) (levels key s.cache.memory.early)
        (levels key s.cache.memory.between) true := by
    rw [← and_iff_left (a := Run _ _ _ _) rising, forward_run_iff run]
    exact forall_congr' fun key => by rw [done]
  have cells : ∀ key, cellOf s.cache.memory s.cache.committed key =
      Cell.history (firstCells n rows key) (levels key s.cache.memory.early)
        (levels key s.cache.memory.between) true (levels key s.cache.memory.after) := by
    intro key
    have cell := consistent.cell key
    rwa [settled, historyOf, done] at cell
  have total : ∀ key, Cell.total (firstCells n rows key) (levels key s.cache.memory.early)
      (levels key s.cache.memory.between) (levels key s.cache.memory.after) =
      (levels key (s.cache.memory.early ++ s.cache.memory.between ++ s.cache.memory.after)).foldl
        max (max (Rows.level rows key) (n.level key)) := by
    intro key
    simp only [Cell.total, levels, List.filter_append, List.map_append, firstCells]
  unfold Joined InOrder
  rw [orderly, ← forall_and]
  refine forall_congr' fun key => and_congr_right fun inOrder => ?_
  rw [← Cell.history_eq_total_iff inOrder, ← cells, total, cellOf, Cell.mk.injEq]
  exact and_congr_right fun memory => by rw [memory]

instance : Decidable s.Finished :=
  decidable_of_iff (s.connecting = .done ∧ s.cache.calls.all (· matches .done) = true) <| by
    refine and_congr_right fun _ => List.all_eq_true.trans <| forall₂_congr fun call _ => ?_
    cases call <;> simp

/-- The database holds the value `1` under one key. -/
def stored : Rows := Dict.empty.set "x" ⟨"1", 3, "a", by decide⟩

/-- A map writes under the key while the table is created, and takes the lock before the
rows are read. -/
def overlapping (timestamp : ℤ) (fits : -2 ^ 63 ≤ timestamp ∧ timestamp < 2 ^ 63) :
    List ConnectEvent :=
  [.connect [], .call [LWWMap.merging "x" 2 timestamp "b"], .connect [], .connect [], .resume 0,
    .resume 0, .resume 0, .connect [("x", ⟨"2", timestamp, "b", fits⟩)], .connect [], .connect []]

theorem connect_joins_iff_overlapping :
    ∃ s, Run (Guarded (OfPartial next) Forward) (start (LWWMap.init "a") stored)
      (overlapping 7 (by decide)) s ∧ s.Finished ∧ Joined (LWWMap.init "a") stored s := by
  have runs : (runPartial next (start (LWWMap.init "a") stored)
      (overlapping 7 (by decide))).any (fun s => decide (s.Finished ∧
        s.cache.memory.early = [] ∧ s.cache.memory.after = [] ∧
        s.cache.memory.between = [("x", ⟨.int 2, 7, "b"⟩)])) = true := by decide +kernel
  obtain ⟨s, run, facts⟩ := exists_run_of_any runs
  obtain ⟨finished, early, after, between⟩ := of_decide_eq_true facts
  have inOrder : ∀ key, InOrder (LWWMap.init "a") stored s key := by
    intro key
    unfold InOrder
    dsimp only
    rw [early, after, between]
    by_cases here : key = "x"
    · subst here
      exact ⟨by decide +kernel, nofun⟩
    · have none' : levels key [("x", (⟨.int 2, 7, "b"⟩ : Record))] = [] :=
        levels_append_of_ne here [] _
      rw [none']
      exact ⟨fun _ => .inr bot_le, fun _ _ => .inl rfl⟩
  obtain ⟨forward, joined⟩ := (connect_joins_iff run finished).mpr inOrder
  exact ⟨s, forward, finished, joined⟩

/-- A map with an entry of a later timestamp. -/
def ahead : LWWMap := (LWWMap.init "a").set "x" (.int 2) (some 7) none

/-- `connect()` without any other call. -/
def alone (rows : Rows) : List ConnectEvent :=
  [.connect [], .connect [], .connect [], .connect rows.items] ++
    rows.items.map (fun _ => .connect []) ++ [.connect []]

/-- The row is replaced by an older write that comes in between, when the memory has not
caught up with it; an entry is replaced by an older row; and an entry is left without one. -/
theorem connect_not_joins :
    (∃ s, Run (OfPartial next) (start (LWWMap.init "a") stored) (overlapping 2 (by decide)) s ∧
      s.Finished ∧ ¬ Joined (LWWMap.init "a") stored s) ∧
    (∃ s, Run (OfPartial next) (start ahead stored) (alone stored) s ∧ s.Finished ∧
      ¬ Joined ahead stored s) ∧
    ∃ s, Run (OfPartial next) (start ahead Dict.empty) (alone Dict.empty) s ∧ s.Finished ∧
      ¬ Joined ahead Dict.empty s := by
  refine ⟨?_, ?_, ?_⟩
  · have runs : (runPartial next (start (LWWMap.init "a") stored) (overlapping 2 (by decide))).any
        (fun s => decide (s.Finished ∧ s.cache.memory.map.level "x" < Rows.level stored "x")) =
          true := by decide +kernel
    obtain ⟨s, run, facts⟩ := exists_run_of_any runs
    obtain ⟨finished, older⟩ := of_decide_eq_true facts
    refine ⟨s, run, finished, fun joined => not_le.mpr older ?_⟩
    rw [(joined "x").1]
    exact (le_max_left _ _).trans (Cell.le_foldl_max _ _)
  · have runs : (runPartial next (start ahead stored) (alone stored)).any
        (fun s => decide (s.Finished ∧ s.cache.memory.map.level "x" < ahead.level "x")) =
          true := by decide +kernel
    obtain ⟨s, run, facts⟩ := exists_run_of_any runs
    obtain ⟨finished, older⟩ := of_decide_eq_true facts
    refine ⟨s, run, finished, fun joined => not_le.mpr older ?_⟩
    rw [(joined "x").1]
    exact (le_max_right _ _).trans (Cell.le_foldl_max _ _)
  · have runs : (runPartial next (start ahead Dict.empty) (alone Dict.empty)).any
        (fun s => decide (s.Finished ∧
          Rows.level s.cache.committed "x" < s.cache.memory.map.level "x")) =
          true := by decide +kernel
    obtain ⟨s, run, facts⟩ := exists_run_of_any runs
    obtain ⟨finished, older⟩ := of_decide_eq_true facts
    exact ⟨s, run, finished, fun joined => older.ne (joined "x").2⟩

end ConnectingMap

end AgentTelepathy
