import AgentTelepathy.Foundation.Pool
import AgentTelepathy.Foundation.Transition

/-!
# Connections of the Rust node

Each call of `listen` starts an accept loop, which compares `active_connections` with
`max_connections`, then upgrades the stream, and then adds one to the counter and starts a
task for the connection. A task takes one off at its end, unless the handler of an envelope
panics, for a panic unwinds the task.
-/

namespace AgentTelepathy.Rust

open Foundation Transition

/-- Where an accept loop is. -/
inductive AcceptLoop
  | accepting
  /-- A stream has passed the limit and is in `accept_async`. -/
  | upgrading
  | ended
deriving DecidableEq

/-- Where the task of a connection is. -/
inductive ConnTask
  | reading
  /-- It is in `dispatch_env`, which may call a handler. -/
  | dispatching
  | ended
deriving DecidableEq

/-- Whether a task is running. -/
def ConnTask.running : ConnTask → Bool
  | .ended => false
  | _ => true

/-- The part of a node that is about inbound connections. -/
structure Server where
  maxConnections : ℕ
  activeConnections : ℕ
  loops : List AcceptLoop
  tasks : List ConnTask
deriving DecidableEq

/-- What can happen: a call of `listen`, the steps of an accept loop, and those of a task. -/
inductive ServerEvent
  | listen
  | accept (l : ℕ)
  | acceptError (l : ℕ)
  | upgrade (l : ℕ) (succeeds : Bool)
  | message (i : ℕ)
  | dispatched (i : ℕ) (panics : Bool)
  | disconnect (i : ℕ)
deriving DecidableEq

/-- `fetch_add(1)` on a `usize`, which wraps around. -/
def fetchAdd (n : ℕ) : ℕ := (n + 1) % 2 ^ 64

/-- `fetch_sub(1)` on a `usize`, which wraps around. -/
def fetchSub (n : ℕ) : ℕ := (n + (2 ^ 64 - 1)) % 2 ^ 64

namespace Server

/-- `TPCPNode::new`, and `with_signing_key` -/
def new : Server := ⟨100, 0, [], []⟩

/-- The accept loop refuses a connection. -/
def Refuses (s : Server) : Prop := s.maxConnections ≤ s.activeConnections

instance (s : Server) : Decidable s.Refuses := inferInstanceAs (Decidable (_ ≤ _))

/-- What an event makes of the node, if it is possible. -/
def next (s : Server) : ServerEvent → Option Server
  | .listen => some { s with loops := s.loops ++ [.accepting] }
  | .accept l =>
    if s.loops[l]? = some .accepting then
      some (if s.Refuses then s else { s with loops := s.loops.set l .upgrading })
    else none
  | .acceptError l =>
    if s.loops[l]? = some .accepting then some { s with loops := s.loops.set l .ended } else none
  | .upgrade l succeeds =>
    if s.loops[l]? = some .upgrading then
      let s := { s with loops := s.loops.set l .accepting }
      some (if succeeds then
        { s with
          activeConnections := fetchAdd s.activeConnections
          tasks := s.tasks ++ [.reading] }
      else s)
    else none
  | .message i =>
    if s.tasks[i]? = some .reading then some { s with tasks := s.tasks.set i .dispatching }
    else none
  | .dispatched i panics =>
    if s.tasks[i]? = some .dispatching then
      -- A panic unwinds the task past `fetch_sub`.
      some { s with tasks := s.tasks.set i (if panics then .ended else .reading) }
    else none
  | .disconnect i =>
    if s.tasks[i]? = some .reading then
      some { s with
        activeConnections := fetchSub s.activeConnections
        tasks := s.tasks.set i .ended }
    else none

/-- The accepted connections whose task is running. -/
def running (s : Server) : ℕ := Pool.total (fun task => task.running.toNat) s.tasks

/-- The counter is the number of running tasks, at most `max_connections`, and connections
are refused only when so many are open. -/
structure Exact (s : Server) : Prop where
  equal : s.activeConnections = s.running
  bounded : s.activeConnections ≤ s.maxConnections
  refuses : s.Refuses → s.running = s.maxConnections

/-- No handler panics, and no upgrade is completed at the limit. -/
def Steady (s : Server) : ServerEvent → Prop
  | .upgrade _ succeeds => succeeds = true → ¬ s.Refuses
  | .dispatched _ panics => panics = false
  | _ => True

instance (s : Server) (e : ServerEvent) : Decidable (s.Steady e) := by
  cases e <;> unfold Steady <;> infer_instance

variable {s t : Server} {e : ServerEvent} {events : List ServerEvent}

/-! ### One event -/

theorem running_set {i : ℕ} {task : ConnTask} (here : s.tasks[i]? = some task)
    (moved : ConnTask) :
    running { s with tasks := s.tasks.set i moved } + task.running.toNat =
      s.running + moved.running.toNat :=
  Pool.total_set (f := fun task => task.running.toNat) here moved

theorem running_pos {i : ℕ} {task : ConnTask} (here : s.tasks[i]? = some task)
    (running : task.running = true) : 0 < s.running := by
  have counted := Pool.le_total (f := fun task => task.running.toNat) here
  rw [running] at counted
  exact counted

/-- What an event does to the counter and the running tasks: nothing, or a task starts, or
is unwound, or ends. -/
theorem next_cases (step : s.next e = some t) : t.maxConnections = s.maxConnections ∧
    (s.Steady e ∧ t.activeConnections = s.activeConnections ∧ t.running = s.running ∨
    (∃ l, e = .upgrade l true ∧ t.activeConnections = fetchAdd s.activeConnections ∧
      t.running = s.running + 1) ∨
    (∃ i, e = .dispatched i true ∧ t.activeConnections = s.activeConnections ∧
      t.running + 1 = s.running) ∨
    ∃ i, e = .disconnect i ∧ t.activeConnections = fetchSub s.activeConnections ∧
      t.running + 1 = s.running) := by
  cases e with
  | listen =>
    obtain rfl := Option.some.inj step
    exact ⟨rfl, .inl ⟨trivial, rfl, rfl⟩⟩
  | accept l =>
    obtain ⟨-, step⟩ := Option.ite_none_right_eq_some.mp step
    obtain rfl := Option.some.inj step
    split_ifs <;> exact ⟨rfl, .inl ⟨trivial, rfl, rfl⟩⟩
  | acceptError l =>
    obtain ⟨-, step⟩ := Option.ite_none_right_eq_some.mp step
    obtain rfl := Option.some.inj step
    exact ⟨rfl, .inl ⟨trivial, rfl, rfl⟩⟩
  | upgrade l succeeds =>
    obtain ⟨-, step⟩ := Option.ite_none_right_eq_some.mp step
    obtain rfl := Option.some.inj step
    cases succeeds with
    | false => exact ⟨rfl, .inl ⟨nofun, rfl, rfl⟩⟩
    | true => exact ⟨rfl, .inr (.inl ⟨l, rfl, rfl, by simp [running, ConnTask.running]⟩)⟩
  | message i =>
    obtain ⟨here, step⟩ := Option.ite_none_right_eq_some.mp step
    obtain rfl := Option.some.inj step
    exact ⟨rfl, .inl ⟨trivial, rfl, Nat.add_right_cancel (running_set here .dispatching)⟩⟩
  | dispatched i panics =>
    obtain ⟨here, step⟩ := Option.ite_none_right_eq_some.mp step
    obtain rfl := Option.some.inj step
    cases panics with
    | false => exact ⟨rfl, .inl ⟨rfl, rfl, Nat.add_right_cancel (running_set here .reading)⟩⟩
    | true => exact ⟨rfl, .inr (.inr (.inl ⟨i, rfl, rfl, running_set here .ended⟩))⟩
  | disconnect i =>
    obtain ⟨here, step⟩ := Option.ite_none_right_eq_some.mp step
    obtain rfl := Option.some.inj step
    have fewer := running_set here .ended
    exact ⟨rfl, .inr (.inr (.inr ⟨i, rfl, rfl, by rw [running] at fewer ⊢; exact fewer⟩))⟩

theorem fetchAdd_eq {n : ℕ} (room : n + 1 < 2 ^ 64) : fetchAdd n = n + 1 := Nat.mod_eq_of_lt room

theorem fetchSub_eq {n : ℕ} (positive : 0 < n) (small : n < 2 ^ 64) : fetchSub n = n - 1 := by
  unfold fetchSub
  omega

/-- The limit is a `usize`. -/
def Limited (s : Server) : Prop := s.maxConnections < 2 ^ 64

theorem exact_iff : s.Exact ↔
    s.activeConnections = s.running ∧ s.activeConnections ≤ s.maxConnections := by
  constructor
  · exact fun exact => ⟨exact.equal, exact.bounded⟩
  · rintro ⟨equal, bounded⟩
    exact ⟨equal, bounded, fun refuses => equal.symm.trans (le_antisymm bounded refuses)⟩

/-- An event keeps the counter exact exactly if it is steady. -/
theorem exact_next_iff (limited : s.Limited) (exact : s.Exact) (step : s.next e = some t) :
    t.Exact ↔ s.Steady e := by
  have equal := exact.equal
  have bounded := exact.bounded
  unfold Limited at limited
  rw [exact_iff]
  obtain ⟨max, ⟨steady, active, same⟩ | ⟨l, rfl, active, more⟩ | ⟨i, rfl, active, fewer⟩ |
    ⟨i, rfl, active, fewer⟩⟩ := next_cases step
  · rw [max, active, same]
    exact iff_of_true ⟨equal, bounded⟩ steady
  · -- An upgrade at the limit goes past it, or around to zero.
    rw [max, active, more, Steady, Refuses, not_le]
    by_cases room : s.activeConnections < s.maxConnections
    · rw [fetchAdd_eq (by omega)]
      exact iff_of_true ⟨by omega, room⟩ fun _ => room
    · refine iff_of_false (fun both => ?_) fun steady => room (steady rfl)
      have wrapped : fetchAdd s.activeConnections ≤ s.activeConnections := by omega
      omega
  · -- One task less, and the counter as before.
    refine iff_of_false (fun both => ?_) nofun
    omega
  · rw [max, active, fetchSub_eq (by omega) (by omega)]
    exact iff_of_true ⟨by omega, by omega⟩ trivial

/-! ### One accept loop -/

/-- With one accept loop at most, the counter does not reach the limit during an upgrade, and
is at least the number of running tasks. -/
structure Lone (s : Server) : Prop where
  limited : s.Limited
  single : s.loops.length ≤ 1
  counted : s.running ≤ s.activeConnections
  bounded : s.activeConnections ≤ s.maxConnections
  room : AcceptLoop.upgrading ∈ s.loops → ¬ s.Refuses

/-- The first call of `listen`. -/
def First (s : Server) (e : ServerEvent) : Prop := e = .listen → s.loops = []

theorem lone_new : Lone new :=
  ⟨by unfold Limited; decide, Nat.zero_le 1, le_rfl, Nat.zero_le _, nofun⟩

/-- Where there is one loop at most, the one that was set is all there is. -/
theorem loops_set {l : ℕ} {a b : AcceptLoop} (single : s.loops.length ≤ 1)
    (here : s.loops[l]? = some a) : s.loops.set l b = [b] := by
  match loops : s.loops, single with
  | [], _ => simp [loops] at here
  | [a'], _ =>
    have inside := (List.getElem?_eq_some_iff.mp here).1
    rw [loops, List.length_singleton, Nat.lt_one_iff] at inside
    rw [inside]
    rfl

/-- What happens to the counter while there is room for an upgrade. -/
theorem Lone.counts (lone : s.Lone) (step : s.next e = some t) :
    t.Limited ∧ t.running ≤ t.activeConnections ∧ t.activeConnections ≤ t.maxConnections := by
  obtain ⟨limited, -, counted, bounded, room⟩ := lone
  unfold Limited at limited ⊢
  obtain ⟨max, ⟨-, active, same⟩ | ⟨l, rfl, active, more⟩ | ⟨i, rfl, active, fewer⟩ |
    ⟨i, rfl, active, fewer⟩⟩ := next_cases step
  · rw [max, active, same]
    exact ⟨limited, counted, bounded⟩
  · -- The loop that completes its upgrade had passed the limit, and no other has added since.
    obtain ⟨here, -⟩ := Option.ite_none_right_eq_some.mp step
    have below : s.activeConnections < s.maxConnections :=
      not_le.mp (room (List.mem_of_getElem? here))
    rw [max, active, more, fetchAdd_eq (by omega)]
    exact ⟨limited, by omega, below⟩
  · -- A panic leaves the counter above the number of tasks.
    rw [max, active]
    exact ⟨limited, by omega, bounded⟩
  · rw [max, active, fetchSub_eq (by omega) (by omega)]
    exact ⟨limited, by omega, by omega⟩

/-- An upgrade begins below the limit, and only its own end adds to the counter. -/
theorem Lone.room_next (lone : s.Lone) (step : s.next e = some t) (first : s.First e) :
    t.loops.length ≤ 1 ∧ (AcceptLoop.upgrading ∈ t.loops → ¬ t.Refuses) := by
  obtain ⟨limited, single, counted, bounded, room⟩ := lone
  cases e with
  | listen =>
    obtain rfl := Option.some.inj step
    simp [first rfl]
  | accept l =>
    obtain ⟨-, step⟩ := Option.ite_none_right_eq_some.mp step
    obtain rfl := Option.some.inj step
    split_ifs with refuses
    · exact ⟨single, room⟩
    · exact ⟨by rwa [List.length_set], fun _ => refuses⟩
  | acceptError l =>
    obtain ⟨here, step⟩ := Option.ite_none_right_eq_some.mp step
    obtain rfl := Option.some.inj step
    simp [loops_set single here]
  | upgrade l succeeds =>
    obtain ⟨here, step⟩ := Option.ite_none_right_eq_some.mp step
    obtain rfl := Option.some.inj step
    cases succeeds <;> simp [loops_set single here]
  | message i | dispatched i panics =>
    obtain ⟨-, step⟩ := Option.ite_none_right_eq_some.mp step
    obtain rfl := Option.some.inj step
    exact ⟨single, room⟩
  | disconnect i =>
    obtain ⟨here, step⟩ := Option.ite_none_right_eq_some.mp step
    obtain rfl := Option.some.inj step
    have positive := running_pos here rfl
    unfold Limited at limited
    -- `fetch_sub` makes room, as the counter is at least one.
    refine ⟨single, fun upgrading refuses => room upgrading (le_trans refuses ?_)⟩
    show fetchSub s.activeConnections ≤ s.activeConnections
    rw [fetchSub_eq (by omega) (by omega)]
    exact Nat.sub_le _ _

theorem Lone.next (lone : s.Lone) (step : s.next e = some t) (first : s.First e) : t.Lone := by
  obtain ⟨limited, counted, bounded⟩ := lone.counts step
  obtain ⟨single, room⟩ := lone.room_next step first
  exact ⟨limited, single, counted, bounded, room⟩

/-- With one accept loop at most, only panics are not steady. -/
theorem Lone.steady_iff (lone : s.Lone) (step : s.next e = some t) :
    s.Steady e ↔ ∀ i, e ≠ .dispatched i true := by
  cases e with
  | upgrade l succeeds =>
    obtain ⟨here, -⟩ := Option.ite_none_right_eq_some.mp step
    exact iff_of_true (fun _ => lone.room (List.mem_of_getElem? here)) nofun
  | dispatched i panics => cases panics <;> simp [Steady]
  | _ => exact iff_of_true trivial nofun

/-! ### Runs -/

theorem length_loops_next (step : s.next e = some t) :
    t.loops.length = s.loops.length + if e = .listen then 1 else 0 := by
  cases e with
  | listen =>
    obtain rfl := Option.some.inj step
    simp
  | accept | upgrade =>
    obtain ⟨-, step⟩ := Option.ite_none_right_eq_some.mp step
    obtain rfl := Option.some.inj step
    split_ifs <;> simp_all
  | acceptError | message | dispatched | disconnect =>
    obtain ⟨-, step⟩ := Option.ite_none_right_eq_some.mp step
    obtain rfl := Option.some.inj step
    simp

/-- There is one accept loop for each call of `listen`. -/
theorem length_loops (run : Run (OfPartial next) new events t) :
    t.loops.length = events.count .listen := by
  induction run with
  | nil => rfl
  | @snoc events s t e _ last ih =>
    rw [length_loops_next last, ih, List.count_append, List.count_singleton]
    simp [beq_iff_eq]

/-- With one call of `listen` at most, it is the first one. -/
theorem first_of_count_le (run : Run (OfPartial next) new events t)
    (once : events.count .listen ≤ 1) : Run (Guarded (OfPartial next) First) new events t := by
  induction run with
  | nil => exact .nil
  | @snoc events s t e before last ih =>
    rw [List.count_append] at once
    refine .snoc (ih (by omega)) ⟨last, ?_⟩
    rintro rfl
    rw [← List.length_eq_zero_iff, length_loops before]
    rw [List.count_singleton_self] at once
    omega

/-- In every run, the counter is exact in every state exactly if every event is steady; and
if `listen` was called once at most, exactly if no handler panics. -/
theorem exact_iff_steady (run : Run (OfPartial next) new events t) :
    (Throughout (OfPartial next) Exact new events ↔
      Run (Guarded (OfPartial next) Steady) new events t) ∧
    (events.count .listen ≤ 1 → (Throughout (OfPartial next) Exact new events ↔
      ∀ i, ServerEvent.dispatched i true ∉ events)) := by
  have limited : new.Limited := by unfold Limited; decide
  have small : ∀ s e t, Limited s → OfPartial next s e t → Limited t := by
    intro s e t small step
    rw [Limited, (next_cases step).1]
    exact small
  have always := run.throughout_iff (functional_ofPartial next) small
    (fun _ _ _ small exact step => exact_next_iff small exact step) limited
    (exact_iff.mpr ⟨rfl, Nat.zero_le _⟩)
  refine ⟨always, fun once => ?_⟩
  have agree := (first_of_count_le run once).guarded_congr
    (fun _ _ _ lone step => lone.next step.1 step.2) lone_new
    (fun _ _ _ lone step => lone.steady_iff step)
  rw [always, agree, run.guarded_iff_forall_mem]
  constructor
  · exact fun none i member => none _ member i rfl
  · exact fun none e member i same => none i (same ▸ member)

/-- One connection gets an envelope and is closed, and the upgrade of another stream fails. -/
def served : List ServerEvent :=
  [.listen, .accept 0, .upgrade 0 true, .message 0, .accept 0, .dispatched 0 false,
    .upgrade 0 false, .disconnect 0]

theorem exact_iff_steady_served :
    ∃ t, Run (OfPartial next) new served t ∧ Throughout (OfPartial next) Exact new served ∧
      t.activeConnections = 0 := by
  have follows : ((runPartial (checked next Steady) new served).any
      fun t => t.activeConnections = 0) = true := by decide +kernel
  obtain ⟨t, run, zero⟩ := exists_guarded_of_any follows
  exact ⟨t, run.of_guarded, (exact_iff_steady run.of_guarded).1.mpr run, of_decide_eq_true zero⟩

/-- A hundred connections, one after another, whose handlers panic. -/
def unwound : List ServerEvent :=
  .listen :: (List.range 100).flatMap fun i =>
    [.accept 0, .upgrade 0 true, .message i, .dispatched i true]

/-- The node refuses every connection, and none is open. -/
theorem not_exact_unwound :
    ∃ t, Run (OfPartial next) new unwound t ∧ t.running = 0 ∧ t.Refuses ∧ ¬ t.Exact := by
  have follows : ((runPartial next new unwound).any fun t =>
      decide (t.running = 0 ∧ t.Refuses ∧ t.activeConnections = 100)) = true := by decide +kernel
  obtain ⟨t, run, all⟩ := exists_run_of_any follows
  obtain ⟨closed, refuses, counted⟩ := of_decide_eq_true all
  refine ⟨t, run, closed, refuses, fun exact => ?_⟩
  have equal := exact.equal
  omega

end Server

end AgentTelepathy.Rust
