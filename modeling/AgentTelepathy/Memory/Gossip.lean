import Mathlib.Logic.Function.Basic
import AgentTelepathy.Foundation.Transition
import AgentTelepathy.Memory.Crdt

/-!
# Gossip between replicas

Any number of replicas write locally, publish serialized states and merge
published states. A published state may be merged by any replica, at any later
time and any number of times. A merge is a task that performs one `set` per
record, and the tasks of a replica interleave with each other and with its local
writes.

Two histories are kept beside the replicas. The writes a replica has received
are the records its `set` was called with. The writes it has absorbed include,
for each merged record, every write of that key its author had absorbed when it
published. Each entry is a greatest record of either history, so replicas whose
histories have the same writes serialize to the same state.
-/

namespace AgentTelepathy

open Foundation Foundation.Transition

/-- A write of a key. -/
abbrev Write := String × Record

/-- A published state and the writes its author had absorbed. -/
structure Snapshot where
  state : List (String × Json)
  absorbed : List Write

/-- A running `merge`: its replica, the records it has not reached and the
writes behind the published state. -/
structure MergeTask (ι : Type*) where
  replica : ι
  remaining : List (String × Json)
  absorbed : List Write

/-- The replicas, what was published, the running merges and the histories. -/
structure Gossip (ι : Type*) where
  replica : ι → LWWMap
  snapshots : List Snapshot
  merges : List (MergeTask ι)
  received : ι → List Write
  absorbed : ι → List Write

/-- What can happen between two awaits. -/
inductive GossipEvent (ι : Type*)
  /-- Replica `i` calls `set` for a value of its own. -/
  | set (i : ι) (key : String) (value : Json) (timestamp : Option ℤ) (writerId : Option String)
  /-- Replica `i` publishes `serialize_state()`. -/
  | serialize (i : ι)
  /-- Replica `i` starts to merge the `n`-th published state. -/
  | merge (i : ι) (n : ℕ)
  /-- The `n`-th merge performs its next `set`. -/
  | mergeRecord (n : ℕ)

namespace Gossip

variable {ι : Type*} [DecidableEq ι]

/-- Empty replicas under the given ids. -/
def init (nodeId : ι → String) : Gossip ι where
  replica i := LWWMap.init (nodeId i)
  snapshots := []
  merges := []
  received _ := []
  absorbed _ := []

/-- The effect of a `set` by replica `i` that stores `record` under `key` and
brings it the writes `absorbed`. -/
def afterSet (g : Gossip ι) (i : ι) (m : LWWMap) (write : Write) (absorbed : List Write) :
    Gossip ι :=
  { g with
    replica := Function.update g.replica i m
    received := Function.update g.received i (g.received i ++ [write])
    absorbed := Function.update g.absorbed i (g.absorbed i ++ absorbed) }

/-- One event; nothing where it cannot happen. -/
def next (g : Gossip ι) : GossipEvent ι → Option (Gossip ι)
  | .set i key value timestamp writerId =>
    let m := g.replica i
    let write := (key, (m.stamp value timestamp writerId).2)
    some (g.afterSet i (m.set key value timestamp writerId) write [write])
  | .serialize i =>
    some { g with snapshots := g.snapshots ++ [⟨(g.replica i).serializeItems, g.absorbed i⟩] }
  | .merge i n =>
    g.snapshots[n]?.map fun snapshot =>
      { g with merges := g.merges ++ [⟨i, snapshot.state, snapshot.absorbed⟩] }
  | .mergeRecord n =>
    g.merges[n]?.bind fun task =>
      match task.remaining with
      | [] => none
      | item :: rest =>
        (Record.ofJson? item.2).bind fun record =>
          ((g.replica task.replica).mergeRecord item).map fun m =>
            { g with merges := g.merges.set n { task with remaining := rest } }.afterSet
              task.replica m (item.1, record) (task.absorbed.filter fun w => w.1 = item.1)

/-- A merge whose events are not interrupted by others performs `merge`. -/
theorem merge_of_uninterrupted {g : Gossip ι} {n : ℕ} {task : MergeTask ι} {m : LWWMap}
    (running : g.merges[n]? = some task)
    (merged : (g.replica task.replica).merge task.remaining = some m) :
    ∃ g', runPartial next g (List.replicate task.remaining.length (.mergeRecord n)) = some g' ∧
      g'.replica task.replica = m := by
  obtain ⟨i, items, absorbed⟩ := task
  -- The induction is on the items that the merge has still to take.
  induction items generalizing g with
  | nil =>
    refine ⟨g, rfl, ?_⟩
    simpa [LWWMap.merge] using merged
  | cons item rest ih =>
    obtain ⟨between, first, others⟩ := Option.bind_eq_some_iff.mp merged
    obtain ⟨record, read, -⟩ := Option.map_eq_some_iff.mp first
    let after := { g with merges := g.merges.set n ⟨i, rest, absorbed⟩ }.afterSet i between
      (item.1, record) (absorbed.filter fun w => w.1 = item.1)
    have step : g.next (.mergeRecord n) = some after := by
      simp [next, running, read, first, after]
    have bound : n < g.merges.length := (List.getElem?_eq_some_iff.mp running).1
    have running' : after.merges[n]? = some ⟨i, rest, absorbed⟩ := List.getElem?_set_self bound
    have others' : (after.replica i).merge rest = some m := by
      simpa [after, afterSet, LWWMap.merge] using others
    obtain ⟨g', rest', same⟩ := ih running' others'
    refine ⟨g', ?_, same⟩
    rw [List.length_cons, List.replicate_succ, runPartial, step]
    exact rest'

/-! ### What the histories say about entries -/

/-- The records a history has for a key. -/
def writesTo (history : List Write) (key : String) : Set Record := {r | (key, r) ∈ history}

/-- Every entry of a map is a greatest record of its key's writes. -/
def Holds (history : List Write) (m : LWWMap) : Prop :=
  ∀ key, Register.Holds Record.rank (writesTo history key) (m.state.get? key)

/-- Every record on its way is a greatest record of its key's writes. -/
def Carries (history : List Write) (items : List (String × Json)) : Prop :=
  ∀ item ∈ items, ∃ r : Record, item.2 = r.toJson ∧
    Register.Holds Record.rank (writesTo history item.1) (some r)

theorem writesTo_append (history more : List Write) (key : String) :
    writesTo (history ++ more) key = writesTo history key ∪ writesTo more key := by
  ext r
  simp [writesTo]

theorem holds_init (nodeId : String) : Holds [] (LWWMap.init nodeId) := fun key => by
  have nothing : writesTo [] key = ∅ := by simp [writesTo]
  rw [nothing]
  exact Register.holds_none

/-- A `set` absorbs every write of its key of which its record is a greatest. -/
theorem Holds.set {history more : List Write} {m : LWWMap} (holds : Holds history m)
    {key : String} {value : Json} {timestamp : Option ℤ} {writerId : Option String}
    (others : ∀ w ∈ more, w.1 = key)
    (greatest : Register.Holds Record.rank (writesTo more key)
      (some (m.stamp value timestamp writerId).2)) :
    Holds (history ++ more) (m.set key value timestamp writerId) := by
  intro other
  rw [writesTo_append, LWWMap.get?_set]
  split_ifs with same
  · subst same
    exact (holds other).offer_greatest greatest
  · have unaffected : writesTo more other = ∅ := by
      ext r
      exact iff_of_false (fun member => same (others _ member)) (Set.notMem_empty r)
    rw [unaffected, Set.union_empty]
    exact holds other

theorem holds_singleton_write (key : String) (r : Record) :
    Register.Holds Record.rank (writesTo [(key, r)] key) (some r) := by
  have only : writesTo [(key, r)] key = {r} := by
    ext s
    simp [writesTo]
  rw [only]
  exact Register.holds_singleton r

theorem writesTo_filter (history : List Write) (key : String) :
    writesTo (history.filter fun w => w.1 = key) key = writesTo history key := by
  ext r
  simp [writesTo]

/-- What a replica publishes carries its history. -/
theorem Holds.carries {history : List Write} {m : LWWMap} (holds : Holds history m) :
    Carries history m.serializeItems := by
  intro item member
  obtain ⟨⟨key, r⟩, stored, rfl⟩ := List.mem_map.mp member
  refine ⟨r, rfl, ?_⟩
  have entry := holds key
  rwa [Dict.get?_eq_some_iff.mpr stored] at entry

/-! ### The invariant of gossip -/

/-- Entries are greatest records of both histories, and so is everything
published or being merged. -/
structure Consistent (g : Gossip ι) : Prop where
  received : ∀ i, Holds (g.received i) (g.replica i)
  absorbed : ∀ i, Holds (g.absorbed i) (g.replica i)
  within : ∀ i, ∀ w ∈ g.received i, w ∈ g.absorbed i
  snapshots : ∀ s ∈ g.snapshots, Carries s.absorbed s.state
  merges : ∀ t ∈ g.merges, Carries t.absorbed t.remaining

omit [DecidableEq ι] in
theorem consistent_init (nodeId : ι → String) : Consistent (init nodeId) where
  received i := holds_init (nodeId i)
  absorbed i := holds_init (nodeId i)
  within := by simp [init]
  snapshots := by simp [init]
  merges := by simp [init]

theorem Consistent.afterSet {g : Gossip ι} (consistent : Consistent g) (i : ι) (key : String)
    (value : Json) (timestamp : Option ℤ) (writerId : Option String) {absorbed : List Write}
    (others : ∀ w ∈ absorbed, w.1 = key)
    (greatest : Register.Holds Record.rank (writesTo absorbed key)
      (some ((g.replica i).stamp value timestamp writerId).2)) :
    Consistent (g.afterSet i ((g.replica i).set key value timestamp writerId)
      (key, ((g.replica i).stamp value timestamp writerId).2) absorbed) where
  -- Only the replica that is written to has to be looked at.
  received j := by
    rcases eq_or_ne j i with rfl | ne
    · simpa [Gossip.afterSet] using
        (consistent.received j).set (by simp) (holds_singleton_write key _)
    · simpa [Gossip.afterSet, ne] using consistent.received j
  absorbed j := by
    rcases eq_or_ne j i with rfl | ne
    · simpa [Gossip.afterSet] using (consistent.absorbed j).set others greatest
    · simpa [Gossip.afterSet, ne] using consistent.absorbed j
  within j w member := by
    rcases eq_or_ne j i with rfl | ne
    · have cases : w ∈ g.received j ∨ w = (key, ((g.replica j).stamp value timestamp writerId).2) :=
        by simpa [Gossip.afterSet] using member
      have there : w ∈ g.absorbed j ∨ w ∈ absorbed := by
        rcases cases with old | rfl
        · exact .inl (consistent.within j w old)
        · exact .inr greatest.1
      simpa [Gossip.afterSet] using there
    · simpa [Gossip.afterSet, ne] using consistent.within j w (by
        simpa [Gossip.afterSet, ne] using member)
  snapshots := consistent.snapshots
  merges := consistent.merges

/-- Every event keeps the invariant. -/
theorem Consistent.next {g g' : Gossip ι} {event : GossipEvent ι} (consistent : Consistent g)
    (step : g.next event = some g') : Consistent g' := by
  cases event with
  | set i key value timestamp writerId =>
    obtain rfl := Option.some.inj step
    exact consistent.afterSet i key value timestamp writerId (by simp) (holds_singleton_write key _)
  | serialize i =>
    obtain rfl := Option.some.inj step
    refine ⟨consistent.received, consistent.absorbed, consistent.within, ?_, consistent.merges⟩
    intro s member
    rcases List.mem_append.mp member with old | fresh
    · exact consistent.snapshots s old
    · obtain rfl := List.mem_singleton.mp fresh
      exact (consistent.absorbed i).carries
  | merge i n =>
    obtain ⟨snapshot, published, rfl⟩ := Option.map_eq_some_iff.mp step
    refine ⟨consistent.received, consistent.absorbed, consistent.within, consistent.snapshots, ?_⟩
    intro t member
    rcases List.mem_append.mp member with old | fresh
    · exact consistent.merges t old
    · obtain rfl := List.mem_singleton.mp fresh
      exact consistent.snapshots snapshot (List.mem_of_getElem? published)
  | mergeRecord n =>
    obtain ⟨task, running, stepped⟩ := Option.bind_eq_some_iff.mp step
    have carries := consistent.merges task (List.mem_of_getElem? running)
    cases left : task.remaining with
    | nil => simp [left] at stepped
    | cons item rest =>
      rw [left] at carries stepped
      obtain ⟨r, json, greatest⟩ := carries item List.mem_cons_self
      have read : Record.ofJson? item.2 = some r := by rw [json, Record.ofJson?_toJson]
      simp only [read, LWWMap.mergeRecord, Option.map_some, Option.bind_some,
        Option.some.injEq] at stepped
      subst stepped
      -- The task keeps carrying what is left; its record brings the author's writes of its key.
      have advanced : Consistent
          { g with merges := g.merges.set n { task with remaining := rest } } := by
        refine ⟨consistent.received, consistent.absorbed, consistent.within,
          consistent.snapshots, ?_⟩
        intro t member
        rcases List.mem_or_eq_of_mem_set member with old | rfl
        · exact consistent.merges t old
        · exact fun other later => carries other (List.mem_cons_of_mem _ later)
      refine advanced.afterSet task.replica item.1 r.value (some r.timestamp) (some r.writerId)
        (by simp) ?_
      rw [writesTo_filter]
      exact greatest

theorem consistent_of_run {nodeId : ι → String} {events : List (GossipEvent ι)} {g : Gossip ι}
    (run : Run (OfPartial next) (init nodeId) events g) : Consistent g :=
  run.invariant (fun _ _ _ consistent step => consistent.next step) (consistent_init nodeId)

/-! ### Convergence -/

/-- Maps that hold greatest records of the same writes serialize to the same state. -/
theorem Holds.same_serializeState {history history' : List Write} {m n : LWWMap}
    (holds : Holds history m) (holds' : Holds history' n)
    (agree : ∀ w, w ∈ history ↔ w ∈ history') : Json.Same m.serializeState n.serializeState := by
  refine LWWMap.same_serializeState fun key => ?_
  have writes : writesTo history key = writesTo history' key := Set.ext fun r => agree (key, r)
  exact (holds key).map_rank_eq (writes ▸ holds' key)

/-- In every run of every number of replicas, each entry is the greatest, by
timestamp, writer and text of the value, of all writes of its key the replica
has received, and of all it has absorbed. Replicas that have received, or have
absorbed, the same writes have equal serialized states. -/
theorem gossip_converges {nodeId : ι → String} {events : List (GossipEvent ι)} {g : Gossip ι}
    (run : Run (OfPartial next) (init nodeId) events g) :
    (∀ i key, Register.Holds Record.rank {r | (key, r) ∈ g.received i}
        ((g.replica i).state.get? key)) ∧
      (∀ i key, Register.Holds Record.rank {r | (key, r) ∈ g.absorbed i}
        ((g.replica i).state.get? key)) ∧
      ∀ i j, ((∀ w, w ∈ g.received i ↔ w ∈ g.received j) ∨
          ∀ w, w ∈ g.absorbed i ↔ w ∈ g.absorbed j) →
        Json.Same (g.replica i).serializeState (g.replica j).serializeState := by
  have consistent := consistent_of_run run
  refine ⟨consistent.received, consistent.absorbed, fun i j agree => ?_⟩
  rcases agree with received | absorbed
  · exact (consistent.received i).same_serializeState (consistent.received j) received
  · exact (consistent.absorbed i).same_serializeState (consistent.absorbed j) absorbed

/-- Two replicas write one key with equal timestamps and exchange their states. -/
def exchange : List (GossipEvent Bool) :=
  [.set true "x" (.int 1) (some 5) none, .set false "x" (.int 2) (some 5) none,
    .serialize true, .serialize false, .merge false 0, .merge true 1,
    .mergeRecord 0, .mergeRecord 1]

/-- The two name their nodes by their own names. -/
def exchangeIds : Bool → String := fun i => if i then "a" else "b"

/-- The state the exchange leads to. -/
def exchanged : Gossip Bool := (runPartial next (init exchangeIds) exchange).get (by decide)

/-- The replicas have received the same two writes, and agree on the greater. -/
theorem gossip_converges_exchange :
    (exchanged.received true).Perm (exchanged.received false) ∧
      (exchanged.replica true).get "x" = some (.int 2) ∧
      Json.Same (exchanged.replica true).serializeState
        (exchanged.replica false).serializeState := by
  have received : (exchanged.received true).Perm (exchanged.received false) := by decide
  have run : Run (OfPartial next) (init exchangeIds) exchange exchanged := run_get (by decide)
  have converged := (gossip_converges run).2.2 true false (.inl fun w => received.mem_iff)
  exact ⟨received, by decide, converged⟩

end Gossip

end AgentTelepathy
