import AgentTelepathy.Foundation.Counter
import AgentTelepathy.Memory.Parity

/-!
# The map in TypeScript as a map

A local write has to come back from `get`, and a key that was never written has to read
as null. The clock of the map is a double that follows the timestamps of other nodes, and
the state is an object with names of its own. So the law holds for the keys that are not
such names, as long as the clock still counts.
-/

namespace AgentTelepathy

open Foundation

namespace TsLWWMap

/-- `null`. -/
def null : Ecma.Value := ⟨.null, rfl⟩

/-- `get(key)`; what is undefined is `none`. -/
def get (m : TsLWWMap) (key : String) : Option Ecma.Value :=
  match m.state.get? key with
  | some record => some record.value
  -- A name on `Object.prototype` is `in` the object, and what it names has no member `0`.
  | none => if key ∈ Ecma.objectPrototype then none else some null

/-- The map after `set`. A call that throws has already advanced the clock. -/
def afterSet (m : TsLWWMap) (key : String) (value : Ecma.Value) (timestamp : Option Float64)
    (writerId : Option String) : TsLWWMap :=
  (m.set key value timestamp writerId).getD (m.stamp value timestamp writerId).1

/-- The map after the rounds of `merge`, of which the first that throws is the last. -/
def afterMerge (m : TsLWWMap) : List (String × TsRecord) → TsLWWMap
  | [] => m
  | item :: items =>
    match m.mergeRecord item with
    | some m => m.afterMerge items
    | none => m.afterSet item.1 item.2.value (some item.2.timestamp) (some item.2.writerId)

theorem afterMerge_eq {m m' : TsLWWMap} {items : List (String × TsRecord)}
    (returns : items.foldlM mergeRecord m = some m') : m.afterMerge items = m' := by
  induction items generalizing m with
  | nil => exact Option.some.inj returns
  | cons item items ih =>
    rw [List.foldlM_cons] at returns
    obtain ⟨next, here, rest⟩ := Option.bind_eq_some_iff.mp returns
    rw [afterMerge, here]
    exact ih rest

end TsLWWMap

/-- A call of the map in TypeScript. -/
inductive TsCall
  | set (key : String) (value : Ecma.Value) (timestamp : Option Float64) (writerId : Option String)
  | merge (otherState : List (String × TsRecord))

/-- The map after a call, whether it returned or threw. -/
def TsLWWMap.after (m : TsLWWMap) : TsCall → TsLWWMap
  | .set key value timestamp writerId => m.afterSet key value timestamp writerId
  | .merge otherState => m.afterMerge (Ecma.entries otherState)

/-- A call that returns leaves the map that it returns with. -/
theorem TsLWWMap.after_merge {m m' : TsLWWMap} {otherState : List (String × TsRecord)}
    (returns : m.merge otherState = some m') : m.after (.merge otherState) = m' :=
  afterMerge_eq returns

namespace TsCall

/-- A timestamp is a non-negative integer. -/
def Natural (timestamp : Float64) : Prop := ∃ n : ℕ, timestamp.number = .rat n

/-- The timestamps of the call are non-negative integers. -/
def Valid : TsCall → Prop
  | .set _ _ timestamp _ => ∀ t ∈ timestamp, Natural t
  | .merge otherState => ∀ item ∈ otherState, Natural item.2.timestamp

/-- The keys that the call writes. -/
def keys : TsCall → List String
  | .set key _ _ _ => [key]
  | .merge otherState => otherState.map Prod.fst

end TsCall

namespace TsLWWMap

/-- A new map after calls. -/
def run (nodeId : String) (calls : List TsCall) : TsLWWMap := calls.foldl after (init nodeId)

/-- The map law at a key: a local write is stored, and advances the clock; and a key that
none of the calls wrote reads as null. -/
structure Works (m : TsLWWMap) (calls : List TsCall) (key : String) (value : Ecma.Value) :
    Prop where
  stores : ∃ m', m.set key value none none = some m' ∧
    m.logicalClock.number.lt m'.logicalClock.number = true ∧ m'.get key = some value
  misses : (∀ c ∈ calls, key ∉ c.keys) → m.get key = some null

/-- The clock is a natural number that adding one makes greater. -/
def ClockCounts (m : TsLWWMap) : Prop :=
  ∃ n : ℕ, m.logicalClock.number = .rat n ∧ Counter.Counts n

/-! ### The clock bounds the timestamps -/

variable {m m' : TsLWWMap} {n : ℕ} {key : String} {value : Ecma.Value} {record : TsRecord}
  {timestamp : Option Float64} {writerId : Option String} {written : List String}
  {items : List (String × TsRecord)} {calls : List TsCall}

/-- The clock is a natural number that no timestamp of an entry exceeds, and the entries
have keys that were written and are own. -/
structure Clocked (written : List String) (m : TsLWWMap) (n : ℕ) : Prop where
  clock : m.logicalClock.number = .rat n
  entry : ∀ key record, m.state.get? key = some record →
    key ∈ written ∧ key ∉ Ecma.objectPrototype ∧ ∃ t ≤ n, record.timestamp.number = .rat (t : ℕ)

theorem clocked_init (nodeId : String) (written : List String) :
    Clocked written (init nodeId) 0 := by
  refine ⟨by simp [init, Float64.zero, Float64.number], fun key record present => ?_⟩
  cases present

/-- The clock is advanced to a natural number that is not below the timestamp. -/
theorem Clocked.stamp (clocked : Clocked written m n)
    (natural : ∀ t ∈ timestamp, TsCall.Natural t) :
    ∃ n', Clocked written (m.stamp value timestamp writerId).1 n' ∧
      ∃ t ≤ n', (m.stamp value timestamp writerId).2.timestamp.number = .rat (t : ℕ) := by
  have raised (clock : Float64) {n' : ℕ} (value : clock.number = .rat n') (above : n ≤ n') :
      Clocked written { m with logicalClock := clock } n' := by
    refine ⟨value, fun key record present => ?_⟩
    obtain ⟨member, own, t, bound, stamped⟩ := clocked.entry key record present
    exact ⟨member, own, t, bound.trans above, stamped⟩
  cases timestamp with
  | none =>
    obtain ⟨n', sum, above, -⟩ := Counter.number_addOne_nat clocked.clock
    exact ⟨n', raised _ sum above, n', le_rfl, sum⟩
  | some timestamp =>
    obtain ⟨t, number⟩ := natural timestamp rfl
    have later : (Ecma.max m.logicalClock timestamp).number = .rat ((max n t : ℕ) : ℚ) := by
      have := Ecma.number_max (m := n) (n := t) (by exact_mod_cast clocked.clock)
        (by exact_mod_cast number)
      exact_mod_cast this
    exact ⟨max n t, raised _ later (le_max_left n t), t, le_max_right n t, number⟩

/-- Storing a record that is not ahead of the clock. -/
theorem Clocked.store (clocked : Clocked written m n) (member : key ∈ written)
    {t : ℕ} (bound : t ≤ n) (stamped : record.timestamp.number = .rat t)
    (returns : m.store key record = some m') : Clocked written m' n := by
  have own : key ∉ Ecma.objectPrototype := by
    intro inherited
    rw [TsLWWMap.store, if_pos inherited] at returns
    cases returns
  obtain ⟨state, stored, entries⟩ := store_eq m own record
  obtain rfl := Option.some.inj (stored.symm.trans returns)
  refine ⟨clocked.clock, fun other found present => ?_⟩
  rw [entries] at present
  split_ifs at present with same
  · obtain rfl := Option.some.inj present
    subst same
    rcases TsRecord.offer_eq_or (m.state.get? other) record with new | held
    · rw [new]
      exact ⟨member, own, t, bound, stamped⟩
    · exact clocked.entry other _ held
  · exact clocked.entry other found present

/-- A call of `set` keeps the bound, whether it returns or throws. -/
theorem Clocked.afterSet (clocked : Clocked written m n) (member : key ∈ written)
    (natural : ∀ t ∈ timestamp, TsCall.Natural t) :
    ∃ n', Clocked written (m.afterSet key value timestamp writerId) n' := by
  obtain ⟨n', advanced, t, bound, stamped⟩ :
      ∃ n', Clocked written (m.stamp value timestamp writerId).1 n' ∧ _ := clocked.stamp natural
  refine ⟨n', ?_⟩
  unfold TsLWWMap.afterSet TsLWWMap.set
  dsimp only
  cases returns : TsLWWMap.store _ key _ with
  | none => exact advanced
  | some next => exact advanced.store member bound stamped returns

theorem Clocked.afterMerge (clocked : Clocked written m n)
    (members : ∀ item ∈ items, item.1 ∈ written)
    (natural : ∀ item ∈ items, TsCall.Natural item.2.timestamp) :
    ∃ n', Clocked written (m.afterMerge items) n' := by
  induction items generalizing m n with
  | nil => exact ⟨n, clocked⟩
  | cons item items ih =>
    obtain ⟨n', stepped⟩ : ∃ n', Clocked written (m.afterSet item.1 item.2.value
        (some item.2.timestamp) (some item.2.writerId)) n' :=
      clocked.afterSet (members item List.mem_cons_self)
        (by simpa using natural item List.mem_cons_self)
    rw [TsLWWMap.afterMerge]
    split
    · rename_i next returns
      have same : m.afterSet item.1 item.2.value (some item.2.timestamp) (some item.2.writerId) =
          next := by
        rw [TsLWWMap.afterSet]
        exact congrArg (Option.getD · _) returns
      rw [same] at stepped
      exact ih stepped (fun p h => members p (List.mem_cons_of_mem _ h))
        (fun p h => natural p (List.mem_cons_of_mem _ h))
    · exact ⟨n', stepped⟩

/-- What one call preserves. -/
theorem Clocked.after (clocked : Clocked written m n) {c : TsCall} (valid : c.Valid)
    (members : ∀ key ∈ c.keys, key ∈ written) : ∃ n', Clocked written (m.after c) n' := by
  cases c with
  | set key value timestamp writerId =>
    exact clocked.afterSet (members key List.mem_cons_self) valid
  | merge otherState =>
    have perm := Ecma.perm_entries otherState
    exact clocked.afterMerge
      (fun item member => members _ (List.mem_map_of_mem (perm.mem_iff.mp member)))
      (fun item member => valid item (perm.mem_iff.mp member))

/-- What holds after every run. -/
theorem clocked_run (nodeId : String) (valid : ∀ c ∈ calls, c.Valid) :
    ∃ n, Clocked (calls.flatMap TsCall.keys) (run nodeId calls) n := by
  have all : ∀ suffix : List TsCall, (∀ c ∈ suffix, c ∈ calls) → ∀ (m : TsLWWMap) (n : ℕ),
      Clocked (calls.flatMap TsCall.keys) m n →
      ∃ n', Clocked (calls.flatMap TsCall.keys) (suffix.foldl TsLWWMap.after m) n' := by
    intro suffix
    induction suffix with
    | nil => exact fun _ m n clocked => ⟨n, clocked⟩
    | cons c suffix ih =>
      intro sub m n clocked
      have here := sub c List.mem_cons_self
      obtain ⟨n', stepped⟩ := clocked.after (valid c here)
        (fun key member => List.mem_flatMap.mpr ⟨c, here, member⟩)
      exact ih (fun d member => sub d (List.mem_cons_of_mem _ member)) _ n' stepped
  exact all calls (fun _ => id) _ 0 (clocked_init nodeId _)

/-! ### The map law -/

/-- A record that is ahead of the clock is ahead of every entry. -/
theorem Clocked.supersedes (clocked : Clocked written m n) {n' : ℕ} (ahead : n < n')
    (stamped : record.timestamp.number = .rat n') {existing : TsRecord}
    (present : m.state.get? key = some existing) : record.supersedes existing = true := by
  obtain ⟨-, -, t, bound, number⟩ := clocked.entry key existing present
  have later : (t : ℚ) < n' := by exact_mod_cast bound.trans_lt ahead
  rw [TsRecord.supersedes, number, stamped, Number.lt, if_pos (decide_eq_true later)]

/-- A local write works if and only if the key is own and the clock counts. -/
theorem Clocked.stores_iff (clocked : Clocked written m n) :
    (∃ m', m.set key value none none = some m' ∧
      m.logicalClock.number.lt m'.logicalClock.number = true ∧ m'.get key = some value) ↔
      key ∉ Ecma.objectPrototype ∧ Counter.Counts n := by
  obtain ⟨n', sum, -, counts⟩ := Counter.number_addOne_nat clocked.clock
  let stamped := m.stamp value none none
  by_cases own : key ∈ Ecma.objectPrototype
  · -- The call throws.
    refine iff_of_false ?_ (fun h => h.1 own)
    rintro ⟨m', returns, -⟩
    change TsLWWMap.store _ key _ = _ at returns
    rw [TsLWWMap.store, if_pos own] at returns
    cases returns
  · obtain ⟨state, stored, entries⟩ := store_eq stamped.1 own stamped.2
    have returns : m.set key value none none = some { stamped.1 with state := state } := stored
    have advanced : m.logicalClock.number.lt (Ecma.addOne m.logicalClock).number = true ↔
        n < n' := by
      rw [clocked.clock, sum, Number.lt, decide_eq_true_iff]
      norm_cast
    rw [returns]
    simp only [Option.some.injEq, exists_eq_left']
    change (m.logicalClock.number.lt (Ecma.addOne m.logicalClock).number = true ∧ _) ↔ _
    rw [advanced, counts]
    refine ⟨fun h => ⟨own, h.1⟩, fun h => ⟨h.2, ?_⟩⟩
    -- The new record is ahead of what the key held.
    have new : TsRecord.offer (m.state.get? key) stamped.2 = stamped.2 := by
      cases present : m.state.get? key with
      | none => rfl
      | some existing =>
        have ahead : stamped.2.supersedes existing = true :=
          clocked.supersedes (counts.mpr h.2) sum present
        rw [TsRecord.offer, if_pos ahead]
    have held : state.get? key = some stamped.2 := by
      rw [entries, if_pos rfl]
      exact congrArg some new
    rw [TsLWWMap.get, held]
    rfl

/-- A key that was not written reads as null if it is own. -/
theorem Clocked.get_eq_null (clocked : Clocked written m n) (own : key ∉ Ecma.objectPrototype)
    (unwritten : key ∉ written) : m.get key = some null := by
  have absent : m.state.get? key = none := by
    by_contra present
    obtain ⟨record, present⟩ := Option.ne_none_iff_exists'.mp present
    exact unwritten (clocked.entry key record present).1
  rw [TsLWWMap.get, absent]
  exact if_neg own

/-- After every run the map law holds at exactly the keys that are own, as long as the
clock counts. -/
theorem works_iff (nodeId : String) (valid : ∀ c ∈ calls, c.Valid) (key : String)
    (value : Ecma.Value) : Works (run nodeId calls) calls key value ↔
      key ∉ Ecma.objectPrototype ∧ (run nodeId calls).ClockCounts := by
  obtain ⟨n, clocked⟩ := clocked_run nodeId valid
  have clockCounts : (run nodeId calls).ClockCounts ↔ Counter.Counts n := by
    refine ⟨?_, fun counts => ⟨n, clocked.clock, counts⟩⟩
    rintro ⟨n', number, counts⟩
    have same : (n : ℚ) = n' := Number.rat.inj (clocked.clock.symm.trans number)
    obtain rfl : n = n' := by exact_mod_cast same
    exact counts
  have stores_iff : (∃ m', (run nodeId calls).set key value none none = some m' ∧ _) ↔ _ :=
    clocked.stores_iff
  rw [clockCounts, ← stores_iff]
  refine ⟨Works.stores, fun stores => ⟨stores, fun unwritten => ?_⟩⟩
  refine clocked.get_eq_null (stores_iff.mp stores).1 fun member => ?_
  obtain ⟨c, here, member⟩ := List.mem_flatMap.mp member
  exact unwritten c here member

/-- A peer sends a record of a timestamp. -/
def heard (timestamp : ℕ) : List TsCall :=
  [.merge [("status", ⟨.parse (.str "idle"), Float64.ofInt timestamp, "peer"⟩)]]

theorem valid_heard {timestamp : ℕ} (double : Float64.IsDouble timestamp) :
    ∀ c ∈ heard timestamp, c.Valid := by
  intro c member
  obtain rfl := List.mem_singleton.mp member
  intro item here
  obtain rfl := List.mem_singleton.mp here
  exact ⟨timestamp, by exact_mod_cast double⟩

/-- The greatest timestamp after which a local write still works. -/
theorem works_iff_heard :
    Works (run "node" (heard (2 ^ 54 - 2))) (heard (2 ^ 54 - 2)) "status"
      (.parse (.str "busy")) := by
  refine (works_iff "node" (valid_heard (by decide +kernel)) "status" _).mpr
    ⟨by decide, 2 ^ 54 - 2, ?_, by decide⟩
  decide +kernel

/-- A new map throws at a name on `Object.prototype`, which it reads as undefined. Once
the timestamp `2 ^ 53` was heard, the clock stands still. -/
theorem not_works :
    ¬ Works (run "node" []) [] "toString" (.parse (.str "busy")) ∧
      (run "node" []).get "toString" = none ∧ (∀ c ∈ heard (2 ^ 53), c.Valid) ∧
      ¬ Works (run "node" (heard (2 ^ 53))) (heard (2 ^ 53)) "status" (.parse (.str "busy")) := by
  refine ⟨fun works => ?_, rfl, valid_heard (by decide +kernel), fun works => ?_⟩
  · obtain ⟨m', returns, -⟩ := works.stores
    cases returns
  · obtain ⟨m', returns, advanced, -⟩ := works.stores
    have stands : ∀ m' ∈ (run "node" (heard (2 ^ 53))).set "status" (.parse (.str "busy")) none
        none, m'.logicalClock = (run "node" (heard (2 ^ 53))).logicalClock := by
      decide +kernel
    rw [stands m' returns] at advanced
    revert advanced
    decide +kernel

end TsLWWMap

end AgentTelepathy
