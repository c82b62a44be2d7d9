import Mathlib.Data.Fintype.Basic
import AgentTelepathy.Core.Delivery

/-!
# Who drains a queue

A drain keeps the endpoint that was registered when it started, and a dispatch to
an unregistered peer queues its envelope without spawning one. So the queue of a
registered peer can have no drain for the registered endpoint: if the peer was
registered, or registered elsewhere, while envelopes were waiting, or if one was
queued late by a task that saw another registry.
-/

namespace AgentTelepathy

open Foundation Foundation.Transition

namespace Task

variable {P E : Type*}

/-- A drain of a peer that has captured an endpoint, or will capture the registered
one because it has not started. -/
def Serves (p : P) (endpoint : String) : Task P E → Prop
  | .starting target => target = p
  | .polling drain | .reconnecting drain | .checking drain _ | .dequeuing drain _
  | .draining drain _ _ | .requeueing drain _ | .sleeping drain =>
    drain.target = p ∧ drain.endpoint = endpoint
  | .orphaning _ _ | .connecting _ _ _ | .sending _ _ _ | .queueing _ _ | .done => False

/-- The peer to whose queue a task is about to add without spawning a drain. -/
def adds? : Task P E → Option P
  | .orphaning target _ => some target
  | .requeueing drain _ => some drain.target
  | _ => none

instance [DecidableEq P] (p : P) (endpoint : String) (task : Task P E) :
    Decidable (task.Serves p endpoint) := by
  cases task <;> unfold Serves <;> infer_instance

end Task

namespace Delivery

variable {P E : Type*} [DecidableEq P] {n n' : Delivery P E} {event : DeliveryEvent P E}
  {events : List (DeliveryEvent P E)} {task : Task P E} {p : P} {endpoint : String} {i maxSize : ℕ}
  {ok : Bool}

/-- A drain for an endpoint of a peer is pending. -/
def Served (n : Delivery P E) (p : P) (endpoint : String) : Prop :=
  ∃ task ∈ n.tasks, task.Serves p endpoint

/-- Every registered peer whose queue holds messages has a pending drain for its
registered address. -/
def Covered (n : Delivery P E) : Prop :=
  ∀ p, ∀ endpoint ∈ n.peerRegistry.get? p, n.messageQueue.contents p ≠ [] → n.Served p endpoint

/-- While the node runs, a peer is registered only if its queue is empty or a drain
for the address is pending; and an envelope is added to the queue of a registered
peer, by a dispatch that found it unregistered or by a drain that puts one back, only
while a drain for the registered address is pending, or the queue has no room at all.
The node is started only when nothing is orphaned. -/
def Attended (n : Delivery P E) : DeliveryEvent P E → Prop
  | .register p endpoint =>
    n.running = true → n.messageQueue.contents p ≠ [] → n.Served p endpoint
  | .resume i _ =>
    n.running = true → ∀ p ∈ n.tasks[i]?.bind Task.adds?, ∀ endpoint ∈ n.peerRegistry.get? p,
      n.Served p endpoint ∨ n.messageQueue.maxSize = 0
  | .setRunning value => value = true → Covered n
  | _ => True

instance (n : Delivery P E) (p : P) (endpoint : String) : Decidable (n.Served p endpoint) := by
  unfold Served
  infer_instance

instance [Fintype P] (n : Delivery P E) : Decidable (Covered n) := by
  unfold Covered
  infer_instance

instance [Fintype P] (n : Delivery P E) (event : DeliveryEvent P E) :
    Decidable (Attended n event) := by
  cases event <;> unfold Attended <;> infer_instance

/-! ### Resuming a task -/

/-- A drain goes on, unless it finds the queue of its peer empty. -/
theorem serves_resume (ok : Bool) (running : n.running = true)
    (registered : n.peerRegistry.get? p = some endpoint)
    (serves : task.Serves p endpoint) :
    (n.resume ok task).2.Serves p endpoint ∨ (n.resume ok task).1.messageQueue.contents p = [] := by
  have emptied {q : MessageQueue P E} (idle : ¬ q.hasMessages p = true) : q.contents p = [] := by
    rw [MessageQueue.hasMessages, decide_eq_true_iff, not_lt, Nat.le_zero] at idle
    exact List.eq_nil_of_length_eq_zero idle
  cases task with
  -- The endpoint is read when the drain starts.
  | starting target =>
    obtain rfl : target = p := serves
    left
    rw [resume, registered]
    exact ⟨rfl, rfl⟩
  | polling drain =>
    obtain ⟨rfl, rfl⟩ := serves
    rw [resume, running, Bool.true_and]
    split_ifs with waiting
    · exact .inl ⟨rfl, rfl⟩
    · exact .inr (emptied waiting)
  | checking drain ws =>
    obtain ⟨rfl, rfl⟩ := serves
    rw [resume]
    split_ifs with waiting
    · exact .inl ⟨rfl, rfl⟩
    · exact .inr (emptied waiting)
  -- The drain goes on with a message, or ends because there is none.
  | dequeuing drain ws =>
    obtain ⟨rfl, rfl⟩ := serves
    cases deque : n.messageQueue.contents drain.target with
    | nil =>
      right
      rw [resume, MessageQueue.dequeueOne_of_empty deque]
      exact deque
    | cons msg later =>
      left
      have front : (n.messageQueue.dequeueOne drain.target).2 = some msg := by
        rw [MessageQueue.dequeueOne_eq_head?, deque]
        rfl
      rw [resume]
      generalize n.messageQueue.dequeueOne drain.target = result at front ⊢
      obtain ⟨q, found⟩ := result
      obtain rfl : found = some msg := front
      exact ⟨rfl, rfl⟩
  | reconnecting | draining => cases ok <;> exact .inl serves
  | requeueing | sleeping => exact .inl serves
  | orphaning | connecting | sending | queueing | done => exact serves.elim

/-- A queue that a task leaves filled was filled before, or the task has spawned a
drain of the peer, or it adds without spawning one. -/
theorem filled_of_resume (filled : (n.resume ok task).1.messageQueue.contents p ≠ []) :
    n.messageQueue.contents p ≠ [] ∨ Task.starting p ∈ (n.resume ok task).1.tasks ∨
      task.adds? = some p := by
  cases task with
  -- A dispatch that found no entry adds and spawns nothing.
  | orphaning target envelope =>
    by_cases same : p = target
    · exact .inr (.inr (congrArg some same.symm))
    · rw [resume, MessageQueue.contents_enqueue, if_neg same] at filled
      exact .inl filled
  | queueing target envelope =>
    by_cases same : p = target
    · subst same
      cases enqueued : n.messageQueue.enqueue p envelope with
      | mk q result =>
        cases result with
        | ok => exact .inr (.inl (by simp [resume, enqueued]))
        | error error =>
          -- Only a queue of size zero raises, and its deques stay empty.
          rw [resume, enqueued] at filled
          exact absurd (MessageQueue.contents_of_error enqueued) filled
    · have contents : (n.resume ok (.queueing target envelope)).1.messageQueue.contents p =
          (n.messageQueue.enqueue target envelope).1.contents p := by
        rw [resume]
        rcases n.messageQueue.enqueue target envelope with ⟨q, _ | _⟩ <;> rfl
      rw [contents, MessageQueue.contents_enqueue, if_neg same] at filled
      exact .inl filled
  | dequeuing drain ws =>
    have contents : (n.resume ok (.dequeuing drain ws)).1.messageQueue.contents p =
        (n.messageQueue.dequeueOne drain.target).1.contents p := by
      rw [resume]
      rcases n.messageQueue.dequeueOne drain.target with ⟨q, _ | _⟩ <;> rfl
    rw [contents, MessageQueue.contents_dequeueOne] at filled
    split_ifs at filled with same
    · left
      rw [same]
      intro empty
      rw [empty] at filled
      exact filled rfl
    · exact .inl filled
  | requeueing drain msg =>
    by_cases same : p = drain.target
    · exact .inr (.inr (congrArg some same.symm))
    · rw [resume, MessageQueue.contents_enqueueFront, if_neg same] at filled
      exact .inl filled
  | starting target =>
    left
    cases registered : n.peerRegistry.get? target <;> simpa [resume, registered] using filled
  | polling | checking =>
    left
    simp only [resume] at filled
    split_ifs at filled <;> exact filled
  | connecting | sending | reconnecting | draining => cases ok <;> exact .inl filled
  | sleeping | done => exact .inl filled

/-- A task that adds without spawning leaves the queue filled exactly if it has room
or was filled, spawns nothing, and serves afterwards only whom it served before. -/
theorem resume_of_adds (ok : Bool) (adds : task.adds? = some p) :
    (n.messageQueue.maxSize ≠ 0 → (n.resume ok task).1.messageQueue.contents p ≠ []) ∧
      (n.messageQueue.maxSize = 0 → n.messageQueue.contents p = [] →
        (n.resume ok task).1.messageQueue.contents p = []) ∧
      (n.resume ok task).1.tasks = n.tasks ∧
      ∀ q endpoint, (n.resume ok task).2.Serves q endpoint → task.Serves q endpoint := by
  cases task with
  -- The two tasks that fill a deque: the orphaned message, and the one put back in front.
  | orphaning target envelope =>
    obtain rfl : target = p := Option.some.inj adds
    have contents : (n.resume ok (.orphaning target envelope)).1.messageQueue.contents target =
        Outbox.pushBack n.messageQueue.maxSize (n.messageQueue.contents target) envelope := by
      rw [resume, MessageQueue.contents_enqueue, if_pos rfl]
    rw [contents]
    refine ⟨fun room => Outbox.pushBack_ne_nil room _ _, fun full empty => ?_, rfl,
      fun q endpoint serves => serves⟩
    rw [full, empty]
    rfl
  | requeueing drain msg =>
    obtain rfl : drain.target = p := Option.some.inj adds
    have contents : (n.resume ok (.requeueing drain msg)).1.messageQueue.contents drain.target =
        Outbox.pushFront n.messageQueue.maxSize (n.messageQueue.contents drain.target) msg := by
      rw [resume, MessageQueue.contents_enqueueFront, if_pos rfl]
    rw [contents]
    refine ⟨fun room => Outbox.pushFront_ne_nil room _ _, fun full empty => ?_, rfl,
      fun q endpoint serves => serves⟩
    rw [full, empty]
    rfl
  | connecting | sending | queueing | starting | polling | reconnecting | checking | dequeuing
  | draining | sleeping | done => cases adds

/-! ### Steps -/

private theorem mem_set_or {α : Type*} {l : List α} {a b : α} {i : ℕ} {x : α}
    (present : l[i]? = some x) (member : a ∈ l) : a = x ∨ a ∈ l.set i b := by
  obtain ⟨j, found⟩ := List.getElem?_of_mem member
  by_cases same : i = j
  · subst same
    exact .inl (Option.some.inj (found.symm.trans present))
  · exact .inr (List.mem_of_getElem? ((List.getElem?_set_ne same).trans found))

theorem covered_resume (covered : Covered n) (running : n.running = true)
    (found : n.tasks[i]? = some task) :
    Covered { (n.resume ok task).1 with
        tasks := (n.resume ok task).1.tasks.set i (n.resume ok task).2 } ↔
      (n.running = true → ∀ p ∈ n.tasks[i]?.bind Task.adds?, ∀ endpoint ∈ n.peerRegistry.get? p,
        n.Served p endpoint ∨ n.messageQueue.maxSize = 0) := by
  obtain ⟨spawned, tasks, -⟩ := n.tasks_resume ok task
  have bound : i < n.tasks.length := (List.getElem?_eq_some_iff.mp found).1
  constructor
  · intro after _ p adds endpoint registered
    rw [found, Option.bind_some] at adds
    obtain ⟨fills, -, same, serves⟩ := resume_of_adds (n := n) ok adds
    -- A queue of size zero keeps nothing that the task adds.
    by_cases room : n.messageQueue.maxSize = 0
    · exact .inr room
    left
    have registered' : (n.resume ok task).1.peerRegistry.get? p = some endpoint :=
      (congrArg (Dict.get? · p) (n.unchanged_resume ok task).2.1).trans registered
    obtain ⟨server, member, server_serves⟩ := after p endpoint registered' (fills room)
    rw [same] at member
    rcases List.mem_or_eq_of_mem_set member with other | itself
    · exact ⟨server, other, server_serves⟩
    · exact ⟨task, List.mem_of_getElem? found, serves p endpoint (itself ▸ server_serves)⟩
  · intro attended p endpoint registered' filled
    have registered : n.peerRegistry.get? p = some endpoint :=
      (congrArg (Dict.get? · p) (n.unchanged_resume ok task).2.1).symm.trans registered'
    have goesOn : n.Served p endpoint →
      ∃ server ∈ (n.resume ok task).1.tasks.set i (n.resume ok task).2,
        server.Serves p endpoint := by
      rintro ⟨server, member, serves⟩
      rw [tasks, List.set_append_left _ _ bound]
      rcases mem_set_or found member with rfl | other
      · rcases serves_resume ok running registered serves with still | empty
        · exact ⟨_, List.mem_append_left _ (List.mem_set bound _), still⟩
        · exact absurd empty filled
      · exact ⟨server, List.mem_append_left _ other, serves⟩
    -- The deque was filled before, a drain of it was started, or the task adds to it.
    rcases filled_of_resume filled with before | spawn | adds
    · exact goesOn (covered p endpoint registered before)
    · rw [tasks] at spawn
      rcases List.mem_append.mp spawn with old | new
      · exact goesOn ⟨_, old, rfl⟩
      · refine ⟨.starting p, ?_, rfl⟩
        rw [tasks, List.set_append_left _ _ bound]
        exact List.mem_append_right _ new
    · have asked : p ∈ n.tasks[i]?.bind Task.adds? := by
        rw [found, Option.bind_some]
        exact adds
      rcases attended running p asked endpoint registered with served | full
      · exact goesOn served
      · by_cases empty : n.messageQueue.contents p = []
        · exact absurd ((resume_of_adds ok adds).2.1 full empty) filled
        · exact goesOn (covered p endpoint registered empty)

theorem covered_next (covered : n.running = true → Covered n) (step : n.next event = some n') :
    (n'.running = true → Covered n') ↔ Attended n event := by
  cases event with
  | dispatch target envelope isOpen =>
    obtain ⟨connections, task, started, -⟩ := n.dispatchEnvelope_spec target envelope isOpen
    rw [next, started] at step
    cases step
    refine ⟨fun _ => trivial, fun _ running p endpoint registered filled => ?_⟩
    obtain ⟨server, member, serves⟩ := covered running p endpoint registered filled
    exact ⟨server, List.mem_append_left _ member, serves⟩
  | resume i ok =>
    obtain ⟨task, found, rfl⟩ := Option.map_eq_some_iff.mp step
    have same : (n.resume ok task).1.running = n.running := (n.unchanged_resume ok task).2.2
    constructor
    · intro after running
      exact (covered_resume (covered running) running found).mp (after (same.trans running)) running
    · intro attended running
      have before : n.running = true := same.symm.trans running
      exact (covered_resume (covered before) before found).mpr attended
  | register target endpoint =>
    obtain rfl := Option.some.inj step
    constructor
    · intro after running filled
      exact after running target endpoint (Dict.get?_set_self _ _ _) filled
    · intro attended running p endpoint' registered filled
      rw [Option.mem_def, Dict.get?_set] at registered
      split_ifs at registered with same
      · cases registered
        subst same
        exact attended running filled
      · exact covered running p endpoint' registered filled
  | remove target =>
    obtain rfl := Option.some.inj step
    refine ⟨fun _ => trivial, fun _ running p endpoint registered filled => ?_⟩
    exact covered running p endpoint (Dict.get?_of_get?_erase registered) filled
  | setRunning value =>
    -- The step changes the flag only, and the condition is the conclusion itself.
    obtain rfl := Option.some.inj step
    exact Iff.rfl
  | clearConnections =>
    obtain rfl := Option.some.inj step
    exact ⟨fun _ => trivial, fun _ => covered⟩

/-- A step from a state in which, if the node runs, every registered peer with queued
messages has a pending drain for its registered address, leads to such a state
exactly if it is attended; so in every run whose steps are all attended, no message
is orphaned while the node runs. -/
theorem never_orphaned :
    (∀ (n : Delivery P E) event n', (n.running = true → Covered n) → n.next event = some n' →
      ((n'.running = true → Covered n') ↔ Attended n event)) ∧
    ∀ maxSize events (n : Delivery P E),
      Run (Guarded (OfPartial next) Attended) (init maxSize) events n →
        n.running = true → Covered n := by
  refine ⟨fun n event n' covered step => covered_next covered step, ?_⟩
  intro maxSize events n run
  have preserved : ∀ (n : Delivery P E) event n', (n.running = true → Covered n) →
      Guarded (OfPartial next) Attended n event n' → n'.running = true → Covered n' := by
    rintro n event n' covered ⟨step, attended⟩
    exact (covered_next covered step).mpr attended
  have initially : (init maxSize : Delivery P E).running = true →
      Covered (init maxSize : Delivery P E) := by
    intro _ p endpoint registered
    cases registered
  exact run.invariant preserved initially

/-- A dispatch to a registered peer fails to connect. -/
def unreachable : List (DeliveryEvent Bool ℕ) :=
  [.setRunning true, .register true "ws://peer", .dispatch true 1 false, .resume 0 false,
    .resume 0 true]

theorem never_orphaned_unreachable :
    ∃ n : Delivery Bool ℕ, Run (OfPartial next) (init 2) unreachable n ∧
      n.messageQueue.contents true = [1] ∧ n.Served true "ws://peer" := by
  have runs : (runPartial (checked next Attended) (init 2) unreachable).any (fun n =>
        decide (n.running = true ∧ n.messageQueue.contents true = [1] ∧
          n.peerRegistry.get? true = some "ws://peer")) = true := by decide
  obtain ⟨n, run, facts⟩ := exists_guarded_of_any runs
  obtain ⟨running, queued, registered⟩ := of_decide_eq_true facts
  refine ⟨n, run.of_guarded, queued, ?_⟩
  refine never_orphaned.2 2 unreachable n run running true "ws://peer" registered ?_
  rw [queued]
  exact List.cons_ne_nil 1 []

/-- An envelope for a peer that is not known yet waits in the queue, and then the
peer is registered. -/
def early : List (DeliveryEvent Bool ℕ) :=
  [.setRunning true, .dispatch true 1 false, .resume 0 true, .register true "ws://peer"]

/-- Nothing drains the queue. -/
theorem orphaned :
    ∃ n : Delivery Bool ℕ, Run (OfPartial next) (init 2) early n ∧ n.running = true ∧
      n.peerRegistry.get? true = some "ws://peer" ∧ n.messageQueue.contents true = [1] ∧
      n.tasks = [.done] ∧ ¬ Covered n := by
  have runs : (runPartial next (init 2) early).any (fun n : Delivery Bool ℕ =>
      decide (n.running = true ∧ n.peerRegistry.get? true = some "ws://peer" ∧
        n.messageQueue.contents true = [1] ∧ n.tasks = [.done])) = true := by decide
  obtain ⟨n, run, facts⟩ := exists_run_of_any runs
  obtain ⟨running, registered, queued, idle⟩ := of_decide_eq_true facts
  refine ⟨n, run, running, registered, queued, idle, fun covered => ?_⟩
  obtain ⟨server, member, serves⟩ := covered true "ws://peer" registered (by simp [queued])
  rw [idle] at member
  obtain rfl := List.mem_singleton.mp member
  exact serves

end Delivery

end AgentTelepathy
