import Mathlib.Algebra.BigOperators.Group.List.Basic
import AgentTelepathy.Core.Queue

/-!
# Delivery to peers

`_dispatch_envelope` sends an envelope over a pooled or a new connection and
falls back to the dead-letter queue, where each failed dispatch spawns a
`_reconnect_and_drain` task. Any number of these tasks run at once. A task is
resumed at the await where it is suspended; connecting and sending succeed or
raise as the network decides.

For each peer the tasks and the queue together are an outbox: an envelope is
fresh while its dispatch holds it, stored in the peer's deque, and taken while a
drain holds it. So while the outstanding envelopes fit the queue, none is lost
or sent twice.
-/

namespace AgentTelepathy

open Foundation Foundation.Transition

/-- The variables of a `_reconnect_and_drain` task. -/
structure Drain (P : Type*) where
  target : P
  endpoint : String
  backoff : ℕ
deriving DecidableEq

/-- A task, by the await at which it is suspended. -/
inductive Task (P E : Type*)
  /-- Dispatch to an unregistered peer: at `enqueue`. -/
  | orphaning (target : P) (envelope : E)
  /-- Dispatch: at `websockets.connect`. -/
  | connecting (target : P) (endpoint : String) (envelope : E)
  /-- Dispatch: at `ws.send`. -/
  | sending (target : P) (ws : ℕ) (envelope : E)
  /-- Dispatch that could not send: at `enqueue`. -/
  | queueing (target : P) (envelope : E)
  /-- Drain that has not started. -/
  | starting (target : P)
  /-- Drain: at `has_messages` of the outer loop. -/
  | polling (drain : Drain P)
  /-- Drain: at `websockets.connect`. -/
  | reconnecting (drain : Drain P)
  /-- Drain: at `has_messages` of the inner loop. -/
  | checking (drain : Drain P) (ws : ℕ)
  /-- Drain: at `dequeue_one`. -/
  | dequeuing (drain : Drain P) (ws : ℕ)
  /-- Drain: at `ws.send`. -/
  | draining (drain : Drain P) (ws : ℕ) (msg : E)
  /-- Drain whose send raised: at `enqueue_front`. -/
  | requeueing (drain : Drain P) (msg : E)
  /-- Drain: at `asyncio.sleep`. -/
  | sleeping (drain : Drain P)
  | done
deriving DecidableEq

/-- The part of a node that delivers envelopes. Connections are named by the
order in which they were made. The envelopes handed to `_dispatch_envelope` and
those a `ws.send` transmitted are recorded with their peer. -/
structure Delivery (P E : Type*) where
  peerRegistry : Dict P String
  peerConnections : Dict P ℕ
  connections : ℕ
  messageQueue : MessageQueue P E
  running : Bool
  tasks : List (Task P E)
  dispatched : List (P × E)
  sent : List (P × E)

/-- What can happen between two awaits. -/
inductive DeliveryEvent (P E : Type*)
  /-- A call of `_dispatch_envelope`; `isOpen` is the state of a pooled connection. -/
  | dispatch (target : P) (envelope : E) (isOpen : Bool)
  /-- Resume the `i`-th task; `ok` unless the awaited connect or send raised. -/
  | resume (i : ℕ) (ok : Bool)
  /-- `register_peer`, or an inbound handshake. -/
  | register (target : P) (endpoint : String)
  /-- `remove_peer`. -/
  | remove (target : P)
  /-- `start_listening` and `stop_listening`. -/
  | setRunning (running : Bool)
  /-- `stop_listening` forgets the pooled connections. -/
  | clearConnections

namespace Delivery

variable {P E : Type*} [DecidableEq P]

/-- A node before it has peers. -/
def init (maxSize : ℕ) : Delivery P E where
  peerRegistry := Dict.empty
  peerConnections := Dict.empty
  connections := 0
  messageQueue := MessageQueue.init maxSize
  running := false
  tasks := []
  dispatched := []
  sent := []

/-- What `_get_peer_connection` finds before it awaits. -/
inductive PeerConnection
  | pooled (ws : ℕ)
  | connect (endpoint : String)
  | unknown

/-- The last part of `_get_peer_connection`: connect to the registered endpoint. -/
def endpointOf (n : Delivery P E) (target : P) : PeerConnection :=
  match n.peerRegistry.get? target with
  | none => .unknown
  | some endpoint => .connect endpoint

/-- `_get_peer_connection` up to `websockets.connect`: a pooled connection that is
not open is forgotten. -/
def getPeerConnection (n : Delivery P E) (target : P) (isOpen : Bool) :
    Delivery P E × PeerConnection :=
  match n.peerConnections.get? target with
  | none => (n, n.endpointOf target)
  | some ws =>
    if isOpen then (n, .pooled ws)
    else ({ n with peerConnections := n.peerConnections.erase target }, n.endpointOf target)

/-- `_dispatch_envelope` up to its first await. -/
def dispatchEnvelope (n : Delivery P E) (target : P) (envelope : E) (isOpen : Bool) :
    Delivery P E × Task P E :=
  if n.peerRegistry.contains target then
    match n.getPeerConnection target isOpen with
    | (n, .pooled ws) => (n, .sending target ws envelope)
    | (n, .connect endpoint) => (n, .connecting target endpoint envelope)
    | (n, .unknown) => (n, .queueing target envelope)
  else (n, .orphaning target envelope)

/-- A new connection to a peer, published in the pool. -/
def pool (n : Delivery P E) (target : P) : Delivery P E × ℕ :=
  ({ n with
      peerConnections := n.peerConnections.set target n.connections
      connections := n.connections + 1 }, n.connections)

/-- Record a transmitted envelope. -/
def transmit (n : Delivery P E) (target : P) (envelope : E) : Delivery P E :=
  { n with sent := n.sent ++ [(target, envelope)] }

/-- Run a task from its await to the next one. -/
def resume (n : Delivery P E) (ok : Bool) : Task P E → Delivery P E × Task P E
  | .orphaning target envelope =>
    ({ n with messageQueue := (n.messageQueue.enqueue target envelope).1 }, .done)
  | .connecting target _ envelope =>
    if ok then
      let (n, ws) := n.pool target
      (n, .sending target ws envelope)
    else (n, .queueing target envelope)
  | .sending target _ envelope =>
    if ok then (n.transmit target envelope, .done)
    else
      ({ n with peerConnections := n.peerConnections.erase target }, .queueing target envelope)
  | .queueing target envelope =>
    match n.messageQueue.enqueue target envelope with
    | (q, .ok ()) => ({ n with messageQueue := q, tasks := n.tasks ++ [.starting target] }, .done)
    | (q, .error _) => ({ n with messageQueue := q }, .done)
  | .starting target =>
    match n.peerRegistry.get? target with
    | none => (n, .done)
    | some endpoint => (n, .polling ⟨target, endpoint, 1⟩)
  | .polling drain =>
    if n.running && n.messageQueue.hasMessages drain.target then (n, .reconnecting drain)
    else (n, .done)
  | .reconnecting drain =>
    if ok then
      let (n, ws) := n.pool drain.target
      (n, .checking drain ws)
    else (n, .sleeping drain)
  | .checking drain ws =>
    if n.messageQueue.hasMessages drain.target then (n, .dequeuing drain ws) else (n, .done)
  | .dequeuing drain ws =>
    match n.messageQueue.dequeueOne drain.target with
    | (q, none) => ({ n with messageQueue := q }, .done)
    | (q, some msg) => ({ n with messageQueue := q }, .draining drain ws msg)
  | .draining drain ws msg =>
    if ok then (n.transmit drain.target msg, .checking drain ws)
    else (n, .requeueing drain msg)
  | .requeueing drain msg =>
    -- Whether `enqueue_front` returns or raises, the exception handler sleeps next.
    ({ n with messageQueue := (n.messageQueue.enqueueFront drain.target msg).1 }, .sleeping drain)
  | .sleeping drain => (n, .polling { drain with backoff := min (drain.backoff * 2) 60 })
  | .done => (n, .done)

/-- One event; nothing for a task that does not exist. -/
def next (n : Delivery P E) : DeliveryEvent P E → Option (Delivery P E)
  | .dispatch target envelope isOpen =>
    let (n, task) := n.dispatchEnvelope target envelope isOpen
    some { n with
      tasks := n.tasks ++ [task]
      dispatched := n.dispatched ++ [(target, envelope)] }
  | .resume i ok =>
    n.tasks[i]?.map fun task =>
      let (n, task) := n.resume ok task
      { n with tasks := n.tasks.set i task }
  | .register target endpoint =>
    some { n with peerRegistry := n.peerRegistry.set target endpoint }
  | .remove target =>
    some { n with
      peerRegistry := n.peerRegistry.erase target
      peerConnections := n.peerConnections.erase target }
  | .setRunning running => some { n with running }
  | .clearConnections => some { n with peerConnections := Dict.empty }

/-! ### The outbox of a peer -/

/-- The envelopes of a log that concern a peer. -/
def forPeer (log : List (P × E)) (p : P) : List E :=
  log.filterMap fun entry => if entry.1 = p then some entry.2 else none

/-- The envelopes dispatched to a peer. -/
def dispatchedTo (n : Delivery P E) (p : P) : List E := forPeer n.dispatched p

/-- The envelopes transmitted to a peer, on whatever connection. -/
def sentTo (n : Delivery P E) (p : P) : List E := forPeer n.sent p

end Delivery

namespace Task

variable {P E : Type*} [DecidableEq P]

/-- The envelope a dispatch to a peer holds. -/
def fresh (p : P) : Task P E → Multiset E
  | .orphaning target envelope | .connecting target _ envelope | .sending target _ envelope
  | .queueing target envelope => if target = p then {envelope} else 0
  | _ => 0

/-- The address to which a task is opening a connection. -/
def address? : Task P E → Option String
  | .connecting _ endpoint _ => some endpoint
  | .reconnecting drain => some drain.endpoint
  | _ => none

/-- The envelope a drain of a peer holds. -/
def taken (p : P) : Task P E → Multiset E
  | .draining drain _ msg | .requeueing drain msg => if drain.target = p then {msg} else 0
  | _ => 0

end Task

namespace Delivery

variable {P E : Type*} [DecidableEq P]

/-- The envelopes held by running dispatches to a peer. -/
def heldByDispatches (n : Delivery P E) (p : P) : Multiset E := (n.tasks.map (Task.fresh p)).sum

/-- The envelopes held by running drains of a peer. -/
def heldByDrains (n : Delivery P E) (p : P) : Multiset E := (n.tasks.map (Task.taken p)).sum

/-- A peer's view of delivery. -/
def outbox (n : Delivery P E) (p : P) : Outbox E where
  accepted := n.dispatchedTo p
  completed := n.sentTo p
  stored := n.messageQueue.contents p
  fresh := n.heldByDispatches p
  taken := n.heldByDrains p

/-! ### Delivery refines the outbox of each peer -/

/-- What resuming a task does to the outbox of its peer. -/
def taskMove (n : Delivery P E) (ok : Bool) : Task P E → Option (P × Outbox.Move E)
  | .orphaning target envelope | .queueing target envelope => some (target, .store envelope)
  | .sending target _ envelope => if ok then some (target, .completeFresh envelope) else none
  | .dequeuing drain _ =>
    (n.messageQueue.contents drain.target).head?.map fun msg => (drain.target, .take msg)
  | .draining drain _ msg => if ok then some (drain.target, .completeTaken msg) else none
  | .requeueing drain msg => some (drain.target, .putBack msg)
  | _ => none

/-- What an event does to the outbox of a peer. -/
def move (n : Delivery P E) : DeliveryEvent P E → Option (P × Outbox.Move E)
  | .dispatch target envelope _ => some (target, .accept envelope)
  | .resume i ok => n.tasks[i]?.bind (n.taskMove ok)
  | _ => none

/-- The outbox of `p` makes the move if it is one of `p`, and otherwise stays. -/
def Matches (capacity : ℕ) (p : P) (move : Option (P × Outbox.Move E)) (s t : Outbox E) : Prop :=
  match move with
  | some (target, move) => if target = p then Outbox.Step capacity s move t else s = t
  | none => s = t

@[simp] theorem forPeer_append (log more : List (P × E)) (p : P) :
    forPeer (log ++ more) p = forPeer log p ++ forPeer more p := List.filterMap_append

@[simp] theorem forPeer_singleton (target : P) (envelope : E) (p : P) :
    forPeer [(target, envelope)] p = if target = p then [envelope] else [] := by
  by_cases same : target = p <;> simp [forPeer, same]

/-- A peer's outbox while one task runs, with the items of the others given. -/
def outboxWith (n : Delivery P E) (p : P) (fresh taken : Multiset E) (task : Task P E) :
    Outbox E where
  accepted := n.dispatchedTo p
  completed := n.sentTo p
  stored := n.messageQueue.contents p
  fresh := fresh + task.fresh p
  taken := taken + task.taken p

theorem sentTo_transmit (n : Delivery P E) (target : P) (envelope : E) (p : P) :
    (n.transmit target envelope).sentTo p =
      if target = p then n.sentTo p ++ [envelope] else n.sentTo p := by
  by_cases same : target = p <;> simp [transmit, sentTo, same]

section Moves

variable {q : MessageQueue P E} {accepted completed : List E} {fresh taken : Multiset E}
  {target p : P} {envelope : E}

private theorem store_matches :
    Matches q.maxSize p (some (target, .store envelope))
      ⟨accepted, completed, q.contents p, fresh + (if target = p then {envelope} else 0), taken⟩
      ⟨accepted, completed, (q.enqueue target envelope).1.contents p, fresh, taken⟩ := by
  by_cases same : target = p
  · subst same
    rw [MessageQueue.contents_enqueue, if_pos rfl, Matches, if_pos rfl, if_pos rfl]
    exact .store (by rw [add_comm, Multiset.singleton_add])
  · rw [MessageQueue.contents_enqueue, if_neg (Ne.symm same), Matches, if_neg same, if_neg same,
      add_zero]

private theorem putBack_matches :
    Matches q.maxSize p (some (target, .putBack envelope))
      ⟨accepted, completed, q.contents p, fresh, taken + (if target = p then {envelope} else 0)⟩
      ⟨accepted, completed, (q.enqueueFront target envelope).1.contents p, fresh, taken⟩ := by
  by_cases same : target = p
  · subst same
    rw [MessageQueue.contents_enqueueFront, if_pos rfl, Matches, if_pos rfl, if_pos rfl]
    exact .putBack (by rw [add_comm, Multiset.singleton_add])
  · rw [MessageQueue.contents_enqueueFront, if_neg (Ne.symm same), Matches, if_neg same,
      if_neg same, add_zero]

private theorem take_matches (front : (q.contents target).head? = some envelope) :
    Matches q.maxSize p (some (target, .take envelope))
      ⟨accepted, completed, q.contents p, fresh, taken⟩
      ⟨accepted, completed, (q.dequeueOne target).1.contents p, fresh,
        taken + (if target = p then {envelope} else 0)⟩ := by
  by_cases same : target = p
  · subst same
    obtain ⟨later, deque⟩ := List.head?_eq_some_iff.mp front
    rw [MessageQueue.contents_dequeueOne, if_pos rfl, Matches, if_pos rfl, if_pos rfl, add_comm,
      Multiset.singleton_add, deque]
    exact .take rfl
  · rw [MessageQueue.contents_dequeueOne, if_neg (Ne.symm same), Matches, if_neg same, if_neg same,
      add_zero]

private theorem completeFresh_matches {capacity : ℕ} {stored : List E} :
    Matches capacity p (some (target, .completeFresh envelope))
      ⟨accepted, completed, stored, fresh + (if target = p then {envelope} else 0), taken⟩
      ⟨accepted, if target = p then completed ++ [envelope] else completed, stored, fresh,
        taken⟩ := by
  by_cases same : target = p
  · rw [Matches, if_pos same, if_pos same, if_pos same]
    exact .completeFresh (by rw [add_comm, Multiset.singleton_add])
  · rw [Matches, if_neg same, if_neg same, if_neg same, add_zero]

private theorem completeTaken_matches {capacity : ℕ} {stored : List E} :
    Matches capacity p (some (target, .completeTaken envelope))
      ⟨accepted, completed, stored, fresh, taken + (if target = p then {envelope} else 0)⟩
      ⟨accepted, if target = p then completed ++ [envelope] else completed, stored, fresh,
        taken⟩ := by
  by_cases same : target = p
  · rw [Matches, if_pos same, if_pos same, if_pos same]
    exact .completeTaken (by rw [add_comm, Multiset.singleton_add])
  · rw [Matches, if_neg same, if_neg same, if_neg same, add_zero]

end Moves

/-- Running one task from an await to the next is a move of its peer's outbox. -/
theorem resume_matches (n : Delivery P E) (ok : Bool) (task : Task P E) (p : P)
    (fresh taken : Multiset E) :
    Matches n.messageQueue.maxSize p (n.taskMove ok task) (n.outboxWith p fresh taken task)
      ((n.resume ok task).1.outboxWith p fresh taken (n.resume ok task).2) := by
  cases task with
  | orphaning target envelope =>
    simp only [outboxWith, Task.fresh, Task.taken, resume, add_zero]
    exact store_matches
  | connecting target endpoint envelope => cases ok <;> rfl
  | sending target ws envelope =>
    cases ok with
    | true =>
      simp only [outboxWith, Task.fresh, Task.taken, resume, if_true, sentTo_transmit, add_zero]
      exact completeFresh_matches
    | false => rfl
  | queueing target envelope =>
    -- A queue without any room raises; the envelope has left the dispatch all the same.
    have stored : Matches n.messageQueue.maxSize p (some (target, .store envelope))
        (n.outboxWith p fresh taken (.queueing target envelope))
        ⟨n.dispatchedTo p, n.sentTo p, (n.messageQueue.enqueue target envelope).1.contents p,
          fresh, taken⟩ := by
      simp only [outboxWith, Task.fresh, Task.taken, add_zero]
      exact store_matches
    rcases enqueued : n.messageQueue.enqueue target envelope with ⟨q, _ | _⟩ <;>
      · simp only [enqueued, resume, taskMove, outboxWith, Task.fresh, Task.taken, add_zero]
          at stored ⊢
        exact stored
  | starting target =>
    cases registered : n.peerRegistry.get? target <;> simp only [resume, registered] <;> rfl
  | polling drain =>
    simp only [resume]
    split_ifs <;> rfl
  | reconnecting drain => cases ok <;> rfl
  | checking drain ws =>
    simp only [resume]
    split_ifs <;> rfl
  | dequeuing drain ws =>
    cases deque : n.messageQueue.contents drain.target with
    | nil =>
      simp only [taskMove, deque, resume, MessageQueue.dequeueOne_of_empty deque]
      rfl
    | cons msg later =>
      have front : (n.messageQueue.contents drain.target).head? = some msg := by rw [deque]; rfl
      have dequeued : n.messageQueue.dequeueOne drain.target =
          ((n.messageQueue.dequeueOne drain.target).1, some msg) := by
        rw [← front, ← MessageQueue.dequeueOne_eq_head?]
      rw [taskMove, front, Option.map_some, resume, dequeued]
      simp only [outboxWith, Task.fresh, Task.taken, add_zero]
      exact take_matches front
  | draining drain ws msg =>
    cases ok with
    | true =>
      simp only [outboxWith, Task.fresh, Task.taken, resume, if_true, sentTo_transmit, add_zero]
      exact completeTaken_matches
    | false => rfl
  | requeueing drain msg =>
    simp only [outboxWith, Task.fresh, Task.taken, resume, add_zero]
    exact putBack_matches
  | sleeping drain => rfl
  | done => rfl

theorem getPeerConnection_spec (n : Delivery P E) (target : P) (isOpen : Bool) :
    ∃ connections found,
      n.getPeerConnection target isOpen = ({ n with peerConnections := connections }, found) := by
  unfold getPeerConnection
  cases n.peerConnections.get? target with
  | none => exact ⟨_, _, rfl⟩
  | some ws => cases isOpen <;> exact ⟨_, _, rfl⟩

/-- A dispatch starts with its envelope in hand and changes only the pool. -/
theorem dispatchEnvelope_spec (n : Delivery P E) (target : P) (envelope : E) (isOpen : Bool) :
    ∃ connections task, n.dispatchEnvelope target envelope isOpen =
        ({ n with peerConnections := connections }, task) ∧
      ∀ p, task.fresh p = (if target = p then {envelope} else 0) ∧ task.taken p = 0 := by
  unfold dispatchEnvelope
  split_ifs with registered
  · obtain ⟨connections, found, eq⟩ := n.getPeerConnection_spec target isOpen
    rw [eq]
    cases found with
    | pooled ws => exact ⟨_, .sending target ws envelope, rfl, fun _ => ⟨rfl, rfl⟩⟩
    | connect endpoint => exact ⟨_, .connecting target endpoint envelope, rfl, fun _ => ⟨rfl, rfl⟩⟩
    | unknown => exact ⟨_, .queueing target envelope, rfl, fun _ => ⟨rfl, rfl⟩⟩
  · exact ⟨_, .orphaning target envelope, rfl, fun _ => ⟨rfl, rfl⟩⟩

/-- A dispatch first connects to the registered address of its target, unless a
connection from the pool is open. -/
theorem address?_dispatchEnvelope (n : Delivery P E) (target : P) (envelope : E) (isOpen : Bool)
    (address : String) :
    (n.dispatchEnvelope target envelope isOpen).2.address? = some address ↔
      n.peerRegistry.get? target = some address ∧
        (isOpen = true → n.peerConnections.get? target = none) := by
  rw [dispatchEnvelope, Dict.contains, getPeerConnection]
  cases pooled : n.peerConnections.get? target with
  | none =>
    cases registered : n.peerRegistry.get? target <;> simp [endpointOf, registered, Task.address?]
  | some ws =>
    cases registered : n.peerRegistry.get? target <;> cases isOpen <;>
      simp [endpointOf, registered, Task.address?]

/-- Resuming a task leaves the others as they are, and at most spawns a drain. -/
theorem tasks_resume (n : Delivery P E) (ok : Bool) (task : Task P E) :
    ∃ spawned, (n.resume ok task).1.tasks = n.tasks ++ spawned ∧
      ∀ p, (spawned.map (Task.fresh p)).sum = 0 ∧ (spawned.map (Task.taken p)).sum = 0 := by
  -- Only a message that was queued starts another task.
  have same {m : Delivery P E} (h : m.tasks = n.tasks) : ∃ spawned, m.tasks = n.tasks ++ spawned ∧
      ∀ p, (spawned.map (Task.fresh p)).sum = 0 ∧ (spawned.map (Task.taken p)).sum = 0 :=
    ⟨[], by simp [h], fun _ => ⟨rfl, rfl⟩⟩
  cases task with
  | queueing target envelope =>
    rcases enqueued : n.messageQueue.enqueue target envelope with ⟨q, _ | _⟩
    · exact same (by simp only [resume, enqueued])
    · exact ⟨[.starting target], by simp only [resume, enqueued], fun _ => ⟨rfl, rfl⟩⟩
  | starting target =>
    cases registered : n.peerRegistry.get? target <;> exact same (by simp only [resume, registered])
  | polling drain =>
    refine same ?_
    simp only [resume]
    split_ifs <;> rfl
  | checking drain ws =>
    refine same ?_
    simp only [resume]
    split_ifs <;> rfl
  | dequeuing drain ws =>
    rcases dequeued : n.messageQueue.dequeueOne drain.target with ⟨q, _ | msg⟩ <;>
      exact same (by simp only [resume, dequeued])
  | connecting target endpoint envelope => cases ok <;> exact same rfl
  | sending target ws envelope => cases ok <;> exact same rfl
  | reconnecting drain => cases ok <;> exact same rfl
  | draining drain ws msg => cases ok <;> exact same rfl
  | orphaning target envelope => exact same rfl
  | requeueing drain msg => exact same rfl
  | sleeping drain => exact same rfl
  | done => exact same rfl

/-- Every event is a move of the outbox of one peer, or of none. -/
theorem next_matches {n n' : Delivery P E} {event : DeliveryEvent P E}
    (step : n.next event = some n') (p : P) :
    Matches n.messageQueue.maxSize p (n.move event) (n.outbox p) (n'.outbox p) := by
  cases event with
  | dispatch target envelope isOpen =>
    obtain ⟨connections, task, started, holds⟩ := n.dispatchEnvelope_spec target envelope isOpen
    simp only [next, started, Option.some.injEq] at step
    subst step
    -- The envelope counts as dispatched and is held by the task that was started for it.
    have after : outbox { n with
          peerConnections := connections
          tasks := n.tasks ++ [task]
          dispatched := n.dispatched ++ [(target, envelope)] } p =
        ⟨n.dispatchedTo p ++ (if target = p then [envelope] else []), n.sentTo p,
          n.messageQueue.contents p,
          n.heldByDispatches p + (if target = p then {envelope} else 0), n.heldByDrains p⟩ := by
      simp [outbox, dispatchedTo, heldByDispatches, heldByDrains, holds p, sentTo]
    rw [after, Delivery.move, Matches]
    split_ifs with same
    · rw [add_comm, Multiset.singleton_add]
      exact .accept (n.outbox p) envelope
    · rw [List.append_nil, add_zero]
      rfl
  | resume i ok =>
    obtain ⟨task, running, rfl⟩ := Option.map_eq_some_iff.mp step
    obtain ⟨fresh, freshBefore, freshAfter⟩ := Outbox.exists_sum_set (Task.fresh p) running
    obtain ⟨taken, takenBefore, takenAfter⟩ := Outbox.exists_sum_set (Task.taken p) running
    obtain ⟨spawned, tasks, idle⟩ := n.tasks_resume ok task
    have bound : i < n.tasks.length := (List.getElem?_eq_some_iff.mp running).1
    have move : n.move (.resume i ok) = n.taskMove ok task := by simp [Delivery.move, running]
    -- One task is taken out of the sums before and put back as it goes on.
    have before : n.outbox p = n.outboxWith p fresh taken task := by
      rw [outbox, heldByDispatches, heldByDrains, freshBefore, takenBefore, outboxWith]
    have after : outbox { (n.resume ok task).1 with
          tasks := (n.resume ok task).1.tasks.set i (n.resume ok task).2 } p =
        (n.resume ok task).1.outboxWith p fresh taken (n.resume ok task).2 := by
      simp only [outbox, heldByDispatches, heldByDrains, tasks, List.set_append_left _ _ bound,
        List.map_append, List.sum_append, idle p, add_zero, freshAfter, takenAfter]
      rfl
    rw [move, before]
    exact after ▸ n.resume_matches ok task p fresh taken
  | register | remove | setRunning | clearConnections =>
    obtain rfl := Option.some.inj step
    rfl

/-- A task changes neither the bound of the queue nor the registry nor whether the
node runs. -/
theorem unchanged_resume (n : Delivery P E) (ok : Bool) (task : Task P E) :
    (n.resume ok task).1.messageQueue.maxSize = n.messageQueue.maxSize ∧
      (n.resume ok task).1.peerRegistry = n.peerRegistry ∧
      (n.resume ok task).1.running = n.running := by
  cases task with
  | queueing target envelope =>
    have bound := n.messageQueue.maxSize_enqueue target envelope
    rw [resume]
    generalize n.messageQueue.enqueue target envelope = result at bound ⊢
    obtain ⟨q, _ | _⟩ := result
    · exact ⟨bound, rfl, rfl⟩
    · exact ⟨bound, rfl, rfl⟩
  | dequeuing drain ws =>
    have bound := n.messageQueue.maxSize_dequeueOne drain.target
    rw [resume]
    generalize n.messageQueue.dequeueOne drain.target = result at bound ⊢
    obtain ⟨q, _ | msg⟩ := result
    · exact ⟨bound, rfl, rfl⟩
    · exact ⟨bound, rfl, rfl⟩
  | starting target =>
    rw [resume]
    cases n.peerRegistry.get? target with
    | none => exact ⟨rfl, rfl, rfl⟩
    | some endpoint => exact ⟨rfl, rfl, rfl⟩
  | polling | checking =>
    rw [resume]
    split_ifs
    · exact ⟨rfl, rfl, rfl⟩
    · exact ⟨rfl, rfl, rfl⟩
  | connecting | sending | reconnecting | draining =>
    cases ok with
    | true => exact ⟨rfl, rfl, rfl⟩
    | false => exact ⟨rfl, rfl, rfl⟩
  | orphaning target envelope => exact ⟨n.messageQueue.maxSize_enqueue target envelope, rfl, rfl⟩
  | requeueing drain msg => exact ⟨n.messageQueue.maxSize_enqueueFront drain.target msg, rfl, rfl⟩
  | sleeping | done => exact ⟨rfl, rfl, rfl⟩

/-- The bound of the queue never changes. -/
theorem maxSize_next {n n' : Delivery P E} {event : DeliveryEvent P E}
    (step : n.next event = some n') : n'.messageQueue.maxSize = n.messageQueue.maxSize := by
  cases event with
  | dispatch target envelope isOpen =>
    obtain ⟨connections, task, started, -⟩ := n.dispatchEnvelope_spec target envelope isOpen
    simp only [next, started, Option.some.injEq] at step
    subst step
    rfl
  | resume i ok =>
    obtain ⟨task, -, rfl⟩ := Option.map_eq_some_iff.mp step
    exact (n.unchanged_resume ok task).1
  | register | remove | setRunning | clearConnections =>
    obtain rfl := Option.some.inj step
    rfl

/-- A guarded run of delivery is a run of each peer's outbox, guarded by whatever
the guard of delivery ensures about the moves of that peer. -/
theorem run_refines {maxSize : ℕ} {guard : Delivery P E → DeliveryEvent P E → Prop} (p : P)
    (moveGuard : Outbox E → Outbox.Move E → Prop) {events : List (DeliveryEvent P E)}
    {n : Delivery P E}
    (ensures : ∀ n event move, n.messageQueue.maxSize = maxSize → guard n event →
      n.move event = some (p, move) → moveGuard (n.outbox p) move)
    (run : Run (Guarded (OfPartial next) guard) (init maxSize) events n) :
    n.messageQueue.maxSize = maxSize ∧ ∃ moves,
      Run (Guarded (Outbox.Step maxSize) moveGuard) ((init maxSize).outbox p) moves
        (n.outbox p) := by
  induction run with
  | nil => exact ⟨rfl, [], .nil⟩
  | @snoc events n n' event before last ih =>
    obtain ⟨capacity, moves, matched⟩ := ih
    have moved := next_matches last.1 p
    refine ⟨(maxSize_next last.1).trans capacity, ?_⟩
    -- A step that moves nothing for `p`, or is about another peer, leaves the outbox.
    cases label : n.move event with
    | none =>
      rw [label, Matches] at moved
      exact ⟨moves, moved ▸ matched⟩
    | some entry =>
      obtain ⟨target, move⟩ := entry
      rw [label, Matches, capacity] at moved
      split_ifs at moved with same
      · subst same
        exact ⟨_, matched.snoc ⟨moved, ensures n event move capacity last.2 label⟩⟩
      · exact ⟨moves, moved ▸ matched⟩

/-! ### Nothing is lost -/

/-- The envelopes for a peer held by running tasks, each as often as it is held. -/
def heldFor (n : Delivery P E) (p : P) : Multiset E :=
  (n.tasks.map fun task => task.fresh p + task.taken p).sum

theorem heldFor_eq (n : Delivery P E) (p : P) :
    n.heldFor p = n.heldByDispatches p + n.heldByDrains p := by
  rw [heldFor, heldByDispatches, heldByDrains, List.sum_map_add]

/-- At most as many envelopes are outstanding for a peer as its queue holds. -/
def Outstanding (n : Delivery P E) (p : P) : Prop :=
  (n.dispatchedTo p).length ≤ (n.sentTo p).length + n.messageQueue.maxSize

/-- As long as the envelopes outstanding for each peer fit its queue, the
envelopes dispatched to a peer are those transmitted to it, those in its queue
and those held by running tasks, each counted once, in every interleaving. -/
theorem delivery_conserves {maxSize : ℕ} {events : List (DeliveryEvent P E)} {n : Delivery P E}
    (run : Run (Guarded (OfPartial next) fun n _ => ∀ p, Outstanding n p) (init maxSize) events n)
    (p : P) :
    (n.dispatchedTo p : Multiset E) =
      n.sentTo p + n.messageQueue.contents p + n.heldFor p := by
  have bounded : ∀ (n : Delivery P E) (event : DeliveryEvent P E) (move : Outbox.Move E),
      n.messageQueue.maxSize = maxSize → (∀ p, Outstanding n p) → n.move event = some (p, move) →
      Outbox.Bounded maxSize (n.outbox p) := by
    intro n _ _ capacity outstanding _
    rw [← capacity]
    exact outstanding p
  obtain ⟨-, moves, matched⟩ := run_refines p (fun s _ => s.Bounded maxSize) bounded run
  have start : Outbox.Balanced ((init maxSize : Delivery P E).outbox p) := rfl
  have balanced : Outbox.Balanced (n.outbox p) := start.run matched
  rw [heldFor_eq, ← add_assoc]
  exact balanced

/-- A dispatch whose connect fails leaves its envelope to a drain; while that one
is being sent, the next dispatch uses the connection the drain has pooled. -/
def overlap : List (DeliveryEvent Bool ℕ) :=
  [.register true "ws://peer", .setRunning true, .dispatch true 1 false, .resume 0 false,
    .resume 0 true, .resume 1 true, .resume 1 true, .resume 1 true, .resume 1 true,
    .resume 1 true, .dispatch true 2 true]

instance (n : Delivery P E) (p : P) : Decidable (Outstanding n p) :=
  inferInstanceAs (Decidable (_ ≤ _))

/-- Both envelopes are in the hands of tasks: one of the drain, one of the dispatch. -/
theorem delivery_conserves_overlap :
    let n := (runPartial (checked next fun n _ => ∀ p, n.Outstanding p)
      (init 2) overlap).get (by decide)
    n.heldFor true = {1, 2} ∧
      (n.dispatchedTo true : Multiset ℕ) =
        n.sentTo true + n.messageQueue.contents true + n.heldFor true :=
  ⟨by decide, delivery_conserves (run_get_checked (by decide)) true⟩

end Delivery

end AgentTelepathy
