import Mathlib.Order.Lattice
import AgentTelepathy.Foundation.Transition
import AgentTelepathy.Memory.Crdt

/-!
# What a map has seen

One map with the records that `set` was called with, those it ever stored and those
of its own local writes. The clock is never behind any of their timestamps, so a
local write gets a timestamp that is greater than all of them. Its record is stored
whatever the key held, and stays until a record of strictly greater rank arrives.
-/

namespace AgentTelepathy

open Foundation Foundation.Transition

/-- A map, the records that arrived, the records it stored and those of its local
writes, oldest first and with their keys. -/
structure Journal where
  map : LWWMap
  arrived : List (String × Record)
  stored : List (String × Record)
  locals : List (String × Record)

/-- What can happen to a map between two awaits. -/
inductive MapEvent
  /-- `set(key, value, timestamp, writer_id)`. -/
  | set (key : String) (value : Json) (timestamp : Option ℤ) (writerId : Option String)
  /-- A running `merge` performs the `set` of its next record. -/
  | mergeRecord (item : String × Json)

namespace Journal

variable {j k : Journal} {event : MapEvent} {events : List MapEvent} {key : String} {value : Json}
  {timestamp : Option ℤ} {writerId : Option String}

/-- A new map. -/
def init (nodeId : String) : Journal := ⟨LWWMap.init nodeId, [], [], []⟩

/-- The record of a `set`. -/
def stamped (j : Journal) (value : Json) (timestamp : Option ℤ) (writerId : Option String) :
    Record := (j.map.stamp value timestamp writerId).2

/-- Whether a `set` stores its record. -/
def stores (j : Journal) (key : String) (value : Json) (timestamp : Option ℤ)
    (writerId : Option String) : Bool :=
  ((j.map.stamp value timestamp writerId).1.store key (j.stamped value timestamp writerId)).2

/-- Perform a `set` and write down its record. -/
def set (j : Journal) (key : String) (value : Json) (timestamp : Option ℤ)
    (writerId : Option String) : Journal :=
  let write := (key, j.stamped value timestamp writerId)
  { map := j.map.set key value timestamp writerId
    arrived := j.arrived ++ [write]
    stored := if j.stores key value timestamp writerId then j.stored ++ [write] else j.stored
    locals := if timestamp = none then j.locals ++ [write] else j.locals }

/-- One event; nothing for a record that `merge` cannot read. -/
def next (j : Journal) : MapEvent → Option Journal
  | .set key value timestamp writerId => some (j.set key value timestamp writerId)
  | .mergeRecord item =>
    (Record.ofJson? item.2).map fun r => j.set item.1 r.value (some r.timestamp) (some r.writerId)

/-- Every event is a `set`. -/
theorem set_of_next (step : j.next event = some k) :
    ∃ key value timestamp writerId, k = j.set key value timestamp writerId := by
  cases event with
  | set key value timestamp writerId =>
    cases step
    exact ⟨key, value, timestamp, writerId, rfl⟩
  | mergeRecord item =>
    obtain ⟨r, -, rfl⟩ := Option.map_eq_some_iff.mp step
    exact ⟨item.1, r.value, some r.timestamp, some r.writerId, rfl⟩

/-- A whole `merge` is a run of its records. -/
theorem run_of_merge {items : List (String × Json)} {m : LWWMap}
    (merged : j.map.merge items = some m) :
    ∃ k, Run (OfPartial next) j (items.map .mergeRecord) k ∧ k.map = m := by
  induction items generalizing j with
  | nil =>
    cases merged
    exact ⟨j, .nil, rfl⟩
  | cons item items ih =>
    obtain ⟨between, first, rest⟩ := Option.bind_eq_some_iff.mp merged
    obtain ⟨r, read, rfl⟩ := Option.map_eq_some_iff.mp first
    have step : j.next (.mergeRecord item) =
        some (j.set item.1 r.value (some r.timestamp) (some r.writerId)) := by
      rw [next, read, Option.map_some]
    obtain ⟨k, run, same⟩ := ih (j := j.set item.1 r.value (some r.timestamp) (some r.writerId))
      rest
    exact ⟨k, (Run.single step).append run, same⟩

/-! ### The clock -/

theorem state_set (j : Journal) (key : String) (value : Json) (timestamp : Option ℤ)
    (writerId : Option String) :
    (j.set key value timestamp writerId).map.state =
      if j.stores key value timestamp writerId then
        j.map.state.set key (j.stamped value timestamp writerId)
      else j.map.state := by
  have state : (j.map.stamp value timestamp writerId).1.state = j.map.state :=
    LWWMap.stamp_state j.map value timestamp writerId
  rw [stores, ← state]
  rcases LWWMap.store_cases (j.map.stamp value timestamp writerId).1 key
    (j.stamped value timestamp writerId) with ⟨same, -⟩ | ⟨same, -⟩
  · rw [same, if_pos rfl]
    exact congrArg (fun result => result.1.state) same
  · rw [same, if_neg Bool.false_ne_true]
    exact congrArg (fun result => result.1.state) same

/-- The clock is not behind anything that arrived, the stored and the local records
arrived, the entries were stored, and local writes have ascending timestamps. -/
structure Dominates (j : Journal) : Prop where
  arrived : ∀ w ∈ j.arrived, w.2.timestamp ≤ j.map.logicalClock
  stored : ∀ w ∈ j.stored, w ∈ j.arrived
  locals : ∀ w ∈ j.locals, w ∈ j.arrived
  entries : ∀ key r, j.map.state.get? key = some r → (key, r) ∈ j.stored
  ascending : j.locals.Pairwise fun earlier later => earlier.2.timestamp < later.2.timestamp

theorem dominates_init (nodeId : String) : Dominates (init nodeId) where
  arrived := by simp [init]
  stored := by simp [init]
  locals := by simp [init]
  entries := by simp [init]
  ascending := List.Pairwise.nil

theorem Dominates.set (dominates : Dominates j) (key : String) (value : Json)
    (timestamp : Option ℤ) (writerId : Option String) :
    Dominates (j.set key value timestamp writerId) := by
  let write := (key, j.stamped value timestamp writerId)
  have clock : (j.set key value timestamp writerId).map.logicalClock =
      max j.map.logicalClock (j.stamped value timestamp writerId).timestamp :=
    LWWMap.logicalClock_set j.map key value timestamp writerId
  have member : write ∈ (j.set key value timestamp writerId).arrived :=
    List.mem_append_right _ (List.mem_singleton.mpr rfl)
  have kept : ∀ w ∈ j.arrived, w ∈ (j.set key value timestamp writerId).arrived :=
    fun w old => List.mem_append_left _ old
  refine ⟨?_, ?_, ?_, ?_, ?_⟩
  · intro w here
    rw [clock]
    rcases List.mem_append.mp here with old | new
    · exact (dominates.arrived w old).trans (le_max_left _ _)
    · obtain rfl := List.mem_singleton.mp new
      exact le_max_right _ _
  · intro w here
    simp only [Journal.set] at here
    split_ifs at here
    · rcases List.mem_append.mp here with old | new
      · exact kept w (dominates.stored w old)
      · obtain rfl := List.mem_singleton.mp new
        exact member
    · exact kept w (dominates.stored w here)
  · intro w here
    simp only [Journal.set] at here
    split_ifs at here
    · rcases List.mem_append.mp here with old | new
      · exact kept w (dominates.locals w old)
      · obtain rfl := List.mem_singleton.mp new
        exact member
    · exact kept w (dominates.locals w here)
  · intro other r present
    rw [state_set] at present
    simp only [Journal.set]
    split_ifs at present ⊢
    · rw [Dict.get?_set] at present
      split_ifs at present with isKey
      · obtain rfl := Option.some.inj present
        rw [isKey]
        exact List.mem_append_right _ (List.mem_singleton.mpr rfl)
      · exact List.mem_append_left _ (dominates.entries other r present)
    · exact dominates.entries other r present
  · simp only [Journal.set]
    split_ifs with isLocal
    · subst isLocal
      rw [List.pairwise_append]
      refine ⟨dominates.ascending, List.pairwise_singleton _ _, ?_⟩
      intro earlier old later new
      obtain rfl := List.mem_singleton.mp new
      -- The clock was not behind the earlier write.
      have before := dominates.arrived earlier (dominates.locals earlier old)
      exact Int.lt_add_one_iff.mpr before
    · exact dominates.ascending

theorem dominates_of_run {nodeId : String} (run : Run (OfPartial next) (init nodeId) events j) :
    Dominates j := by
  refine run.invariant ?_ (dominates_init nodeId)
  intro j event k dominates step
  obtain ⟨key, value, timestamp, writerId, rfl⟩ := set_of_next step
  exact dominates.set key value timestamp writerId

/-! ### Local writes -/

/-- A local write wins, since its timestamp is greater than that of the entry. -/
theorem Dominates.get?_set_local (dominates : Dominates j) (key : String) (value : Json)
    (writerId : Option String) :
    (j.set key value none writerId).map.state.get? key =
      some ⟨value, j.map.logicalClock + 1, j.map.nodeId⟩ := by
  have offered : (j.set key value none writerId).map.state.get? key =
      some (Register.offer Record.rank (j.map.state.get? key)
        ⟨value, j.map.logicalClock + 1, j.map.nodeId⟩) := by
    have atKey := j.map.get?_set key key value none writerId
    rw [if_pos rfl] at atKey
    exact atKey
  rw [offered]
  cases present : j.map.state.get? key with
  | none => rfl
  | some existing =>
    have older := dominates.arrived _ (dominates.stored _ (dominates.entries key existing present))
    have below : Record.rank existing <
        Record.rank ⟨value, j.map.logicalClock + 1, j.map.nodeId⟩ := by
      rw [Record.rank, Record.rank, Prod.Lex.toLex_lt_toLex]
      exact .inl (Int.lt_add_one_iff.mpr older)
    rw [Register.offer, if_pos below]

/-- A `set` leaves the entry of a key alone, unless it brings this key a record of
strictly greater rank. -/
theorem get?_set_of_not_greater {other : String} {r : Record}
    (present : j.map.state.get? other = some r)
    (notGreater : key = other →
      ¬ Record.rank r < Record.rank (j.stamped value timestamp writerId)) :
    (j.set key value timestamp writerId).map.state.get? other = some r := by
  have offered : (j.set key value timestamp writerId).map.state.get? other = _ :=
    j.map.get?_set key other value timestamp writerId
  rw [offered]
  split_ifs with same
  · subst same
    rw [present, Register.offer]
    exact congrArg some (if_neg (notGreater rfl))
  · exact present

/-- An entry stays along a run until a record of strictly greater rank arrives. -/
theorem get?_of_run {r : Record} (run : Run (OfPartial next) j events k)
    (present : j.map.state.get? key = some r) :
    ∃ more, k.arrived = j.arrived ++ more ∧
      ((∃ w ∈ more, w.1 = key ∧ Record.rank r < Record.rank w.2) ∨
        k.map.state.get? key = some r) := by
  induction run with
  | nil => exact ⟨[], (List.append_nil _).symm, .inr present⟩
  | @snoc events m k event before step ih =>
    obtain ⟨more, arrived, kept⟩ := ih
    obtain ⟨key', value, timestamp, writerId, rfl⟩ := set_of_next step
    refine ⟨more ++ [(key', m.stamped value timestamp writerId)], ?_, ?_⟩
    · simp only [set, arrived, List.append_assoc]
    · rcases kept with ⟨w, member, greater⟩ | kept
      · exact .inl ⟨w, List.mem_append_left _ member, greater⟩
      · by_cases greater : key' = key ∧
            Record.rank r < Record.rank (m.stamped value timestamp writerId)
        · exact .inl ⟨_, List.mem_append_right _ (List.mem_singleton.mpr rfl), greater⟩
        · exact .inr (get?_set_of_not_greater kept fun same less => greater ⟨same, less⟩)

/-- In every run of a map, no two local writes have the same timestamp; a local write
is read back, with a timestamp strictly greater than all that were ever stored; and
it stays until a record of strictly greater timestamp, writer and text arrives. -/
theorem read_your_writes {nodeId : String} (run : Run (OfPartial next) (init nodeId) events j) :
    (j.locals.Pairwise fun earlier later => earlier.2.timestamp < later.2.timestamp) ∧
      ∀ key value writerId,
        (j.set key value none writerId).map.get key = some value ∧
        ∃ r, (j.set key value none writerId).map.state.get? key = some r ∧ r.value = value ∧
          (∀ w ∈ j.stored, w.2.timestamp < r.timestamp) ∧
          ∀ events' k, Run (OfPartial next) (j.set key value none writerId) events' k →
            ∃ more, k.arrived = (j.set key value none writerId).arrived ++ more ∧
              ((∃ w ∈ more, w.1 = key ∧ Record.rank r < Record.rank w.2) ∨
                k.map.state.get? key = some r) := by
  have dominates := dominates_of_run run
  refine ⟨dominates.ascending, ?_⟩
  intro key value writerId
  have entry := dominates.get?_set_local key value writerId
  refine ⟨?_, _, entry, rfl, ?_, ?_⟩
  · rw [LWWMap.get, entry]
    rfl
  · intro w stored
    exact Int.lt_add_one_iff.mpr (dominates.arrived w (dominates.stored w stored))
  · intro events' k run'
    exact get?_of_run run' entry

/-- A write of another replica from ahead of the clock, and a local one. -/
def ahead : List MapEvent :=
  [.mergeRecord ("x", Record.toJson ⟨.int 1, 9, "b"⟩), .set "y" (.int 2) none none]

/-- After a merge the local write wins against what came from ahead of the clock. -/
theorem read_your_writes_ahead :
    ∃ j, Run (OfPartial next) (init "a") ahead j ∧
      (j.set "x" (.int 3) none none).map.get "x" = some (.int 3) := by
  have run : Run (OfPartial next) (init "a") ahead _ := run_get (by decide)
  exact ⟨_, run, ((read_your_writes run).2 "x" (.int 3) none).1⟩

end Journal

end AgentTelepathy
