import Mathlib.Data.Finset.Basic
import AgentTelepathy.Core.Delivery
import AgentTelepathy.Core.TsQueue

/-!
# Delivery in the TypeScript node

`_dispatchEnvelope` sends an envelope on a pooled or a new socket. Where that fails it leaves the
envelope to the dead-letter queue and calls `_reconnectAndDrain`, which tries to connect until a
socket opens, at most ten times, and then sends everything that is queued for the peer. While
`_reconnecting` has a peer, further calls for it return at once.

Between two events the code runs to its next await: the handler that drains a queue is
synchronous, a dispatch awaits its connection. `new WebSocket(address)` throws where the address is
no URL; out of a dispatch this rejects the promise, and out of `_reconnectAndDrain` it leaves the
peer in `_reconnecting`. A handshake registers its sender with an empty address.
-/

namespace AgentTelepathy.TypeScript

open Foundation Foundation.Transition

/-- The state of a WebSocket. One that failed is closing, too. -/
inductive SocketState where
  | connecting
  | open
  | closing
  | failed
  | closed
deriving DecidableEq

/-- What a WebSocket emits; `closing` stands for a close that the other side began. -/
inductive SocketEvent where
  | opened
  | closing
  | errored
  | closed
deriving DecidableEq

/-- The state after an event; nothing where a WebSocket does not emit it. -/
def SocketState.next : SocketState → SocketEvent → Option SocketState
  | .connecting, .opened => some .open
  | .open, .closing => some .closing
  | .connecting, .errored | .open, .errored | .closing, .errored => some .failed
  | .closing, .closed | .failed, .closed => some .closed
  | _, _ => none

/-- A socket that emits an event. -/
theorem SocketState.next_cases {socket state : SocketState} {event : SocketEvent}
    (emits : socket.next event = some state) :
    (event = .opened ∧ socket = .connecting ∧ state = .open) ∨
      (event = .errored ∧ state = .failed) ∨
      (event = .closing ∧ socket ≠ .connecting ∧ state = .closing) ∨
      (event = .closed ∧ socket ≠ .connecting ∧ state = .closed) := by
  cases socket <;> cases event <;> simp_all [SocketState.next]

/-- `ws.close()` -/
def SocketState.close : SocketState → SocketState
  | .open => .closing
  | state => state

/-- A socket of `_createConnection`, and whether its promise was resolved or rejected. -/
structure Connection (P : Type*) where
  peerId : P
  state : SocketState
  settled : Option Bool
deriving DecidableEq

/-- The variables of a call of `_reconnectAndDrain`, its sockets and the delays of its timers. -/
structure Reconnect (P : Type*) where
  targetId : P
  address : String
  backoff : ℕ
  retries : ℕ
  sockets : List SocketState
  timers : List ℕ
deriving DecidableEq

/-- A socket by who made it. -/
inductive Ws where
  | connection (i : ℕ)
  | reconnect (i j : ℕ)
deriving DecidableEq

/-- A call of `_dispatchEnvelope`, by what it awaits. -/
inductive Dispatch (P E : Type*)
  /-- The connection that it made, in `_getOrCreateConnection`. -/
  | creating (targetId : P) (connection : ℕ) (envelope : E)
  /-- The pending connection of another dispatch. -/
  | joining (targetId : P) (connection : ℕ) (envelope : E)
  /-- An open socket; `ws.send` comes next. -/
  | sending (targetId : P) (ws : Ws) (envelope : E)
  /-- A rejected promise; the `catch` comes next. -/
  | failing (targetId : P) (envelope : E)
  | done
deriving DecidableEq

/-- The part of a node that delivers envelopes. An envelope stands for its text and id. The
envelopes handed to `_dispatchEnvelope` and those that a `ws.send` took are recorded with their
peer. -/
structure Delivery (P E : Type*) where
  peerRegistry : Dict P String
  peerConnections : Dict P Ws
  pendingConnections : Dict P ℕ
  reconnecting : Finset P
  messageQueue : MessageQueue P E
  running : Bool
  connections : List (Connection P)
  reconnects : List (Reconnect P)
  tasks : List (Dispatch P E)
  dispatched : List (P × E)
  sent : List (P × E)

/-- What can happen next. -/
inductive DeliveryEvent (P E : Type*)
  /-- A call of `_dispatchEnvelope`. -/
  | dispatch (targetId : P) (envelope : E)
  /-- What the `i`-th dispatch awaits is settled; `ok` unless its `ws.send` throws. -/
  | resume (i : ℕ) (ok : Bool)
  /-- The socket of a connection emits an event. -/
  | connection (i : ℕ) (event : SocketEvent)
  /-- The `j`-th socket of a reconnect does. Where it opens, `sends` calls of `ws.send` return
  before one throws. -/
  | reconnect (i j : ℕ) (event : SocketEvent) (sends : ℕ)
  /-- The `k`-th timer of a reconnect runs out. -/
  | timeout (i k : ℕ)
  | registerPeer (agentId : P) (address : String)
  /-- A handshake passes its checks. -/
  | handshake (agentId : P)
  | removePeer (agentId : P)
  | startListening
  | stopListening

namespace Delivery

variable {P E : Type*} [DecidableEq P]

/-- A node before it has peers; its constructor makes a queue for 500 messages. -/
def init (maxSize : ℕ) : Delivery P E where
  peerRegistry := Dict.empty
  peerConnections := Dict.empty
  pendingConnections := Dict.empty
  reconnecting := ∅
  messageQueue := MessageQueue.init maxSize
  running := false
  connections := []
  reconnects := []
  tasks := []
  dispatched := []
  sent := []

/-- `readyState` -/
def stateOf (n : Delivery P E) : Ws → Option SocketState
  | .connection i => n.connections[i]?.map Connection.state
  | .reconnect i j => n.reconnects[i]?.bind fun r => r.sockets[j]?

/-- `ws.close()` -/
def close (n : Delivery P E) : Ws → Delivery P E
  | .connection i =>
    { n with connections := n.connections.modify i fun c => { c with state := c.state.close } }
  | .reconnect i j =>
    { n with reconnects := n.reconnects.modify i fun r =>
        { r with sockets := r.sockets.modify j SocketState.close } }

/-- Record an envelope that `ws.send` took. -/
def transmit (n : Delivery P E) (targetId : P) (envelope : E) : Delivery P E :=
  { n with sent := n.sent ++ [(targetId, envelope)] }

/-! ### `_reconnectAndDrain` -/

/-- `attempt()`; the constructor of the socket throws where `validUrl` fails. -/
def attempt (validUrl : String → Bool) (n : Delivery P E) (r : Reconnect P) :
    Delivery P E × Reconnect P :=
  if !n.running || !n.messageQueue.hasMessages r.targetId then
    ({ n with reconnecting := n.reconnecting.erase r.targetId }, r)
  else if r.retries ≥ 10 then ({ n with reconnecting := n.reconnecting.erase r.targetId }, r)
  else
    (n, { r with
      retries := r.retries + 1
      sockets := if validUrl r.address then r.sockets ++ [.connecting] else r.sockets })

/-- `_reconnectAndDrain(targetId)` -/
def reconnectAndDrain (validUrl : String → Bool) (n : Delivery P E) (targetId : P) :
    Delivery P E :=
  if targetId ∈ n.reconnecting then n
  else
    let n := { n with reconnecting := insert targetId n.reconnecting }
    match n.peerRegistry.get? targetId with
    | none => { n with reconnecting := n.reconnecting.erase targetId }
    | some address =>
      let (n, r) := n.attempt validUrl ⟨targetId, address, 1000, 0, [], []⟩
      { n with reconnects := n.reconnects ++ [r] }

/-- `drainNext()`, where `sends` calls of `ws.send` return before one throws. -/
def drainNext (targetId : P) : ℕ → Delivery P E → Delivery P E
  | sends, n =>
    match n.messageQueue.dequeueOne targetId with
    | (_, none) => { n with reconnecting := n.reconnecting.erase targetId }
    | (q, some msg) =>
      match sends with
      | 0 => { n with
          messageQueue := q.enqueueFront targetId msg
          reconnecting := n.reconnecting.erase targetId }
      | sends + 1 =>
        let n := { n with messageQueue := q }.transmit targetId msg
        if n.messageQueue.hasMessages targetId then drainNext targetId sends n
        else { n with reconnecting := n.reconnecting.erase targetId }

/-- The handlers of the `j`-th socket of the `i`-th reconnect. -/
def onReconnect (n : Delivery P E) (i j : ℕ) (r : Reconnect P) (state : SocketState)
    (event : SocketEvent) (sends : ℕ) : Delivery P E :=
  let r := { r with sockets := r.sockets.set j state }
  match event with
  | .opened =>
    drainNext r.targetId sends { n with
      peerConnections := n.peerConnections.set r.targetId (.reconnect i j)
      reconnects := n.reconnects.set i { r with backoff := 1000 } }
  | .errored =>
    { n with reconnects := n.reconnects.set i { r with
        timers := r.timers ++ [r.backoff]
        backoff := min (r.backoff * 2) 60000 } }
  | .closing | .closed => { n with reconnects := n.reconnects.set i r }

/-! ### `_dispatchEnvelope` -/

/-- The last part of `_getOrCreateConnection`: join a pending connection or create one. -/
def createConnection (validUrl : String → Bool) (n : Delivery P E) (targetId : P)
    (address : String) (envelope : E) : Delivery P E × Dispatch P E :=
  match n.pendingConnections.get? targetId with
  | some i => (n, .joining targetId i envelope)
  | none =>
    if validUrl address then
      ({ n with
        connections := n.connections ++ [⟨targetId, .connecting, none⟩]
        pendingConnections := n.pendingConnections.set targetId n.connections.length },
        .creating targetId n.connections.length envelope)
    else (n, .failing targetId envelope)

/-- `_dispatchEnvelope` up to its first await. -/
def dispatchEnvelope (validUrl : String → Bool) (n : Delivery P E) (targetId : P) (envelope : E) :
    Delivery P E × Dispatch P E :=
  match n.peerRegistry.get? targetId with
  | none => ({ n with messageQueue := n.messageQueue.enqueue targetId envelope }, .done)
  | some address =>
    match n.peerConnections.get? targetId with
    | some existing =>
      if n.stateOf existing = some .open then (n, .sending targetId existing envelope)
      else n.createConnection validUrl targetId address envelope
    | none => n.createConnection validUrl targetId address envelope

/-- The `catch` of `_dispatchEnvelope`. -/
def fail (validUrl : String → Bool) (n : Delivery P E) (targetId : P) (envelope : E) :
    Delivery P E :=
  { n with
    peerConnections := n.peerConnections.erase targetId
    messageQueue := n.messageQueue.enqueue targetId envelope }.reconnectAndDrain validUrl targetId

/-- Whether the promise of a connection was resolved or rejected. -/
def settled (n : Delivery P E) (i : ℕ) : Option Bool := n.connections[i]?.bind Connection.settled

/-- What a dispatch does with a settled connection. -/
def settle (targetId : P) (i : ℕ) (envelope : E) (resolved : Bool) : Dispatch P E :=
  if resolved then .sending targetId (.connection i) envelope else .failing targetId envelope

/-- Run a dispatch from its await to the next one; nothing while its promise is not settled. -/
def resume (validUrl : String → Bool) (n : Delivery P E) (ok : Bool) :
    Dispatch P E → Option (Delivery P E × Dispatch P E)
  | .creating targetId i envelope => (n.settled i).map fun resolved =>
    ({ n with pendingConnections := n.pendingConnections.erase targetId },
      settle targetId i envelope resolved)
  | .joining targetId i envelope => (n.settled i).map fun resolved =>
    (n, settle targetId i envelope resolved)
  | .sending targetId _ envelope =>
    some (if ok then n.transmit targetId envelope else n.fail validUrl targetId envelope, .done)
  | .failing targetId envelope => some (n.fail validUrl targetId envelope, .done)
  | .done => none

/-- The handlers of the socket of the `i`-th connection. -/
def onConnection (n : Delivery P E) (i : ℕ) (c : Connection P) (state : SocketState)
    (event : SocketEvent) : Delivery P E :=
  match event with
  | .opened => { n with
      connections := n.connections.set i { c with state, settled := c.settled.or (some true) }
      peerConnections := n.peerConnections.set c.peerId (.connection i) }
  | .errored => { n with
      connections := n.connections.set i { c with state, settled := c.settled.or (some false) } }
  | .closing => { n with connections := n.connections.set i { c with state } }
  | .closed => { n with
      connections := n.connections.set i { c with state }
      peerConnections := n.peerConnections.erase c.peerId }

/-! ### Events -/

/-- The node after an event; nothing where the event is not possible. -/
def next (validUrl : String → Bool) (n : Delivery P E) : DeliveryEvent P E → Option (Delivery P E)
  | .dispatch targetId envelope =>
    let (n, task) := n.dispatchEnvelope validUrl targetId envelope
    some { n with
      tasks := n.tasks ++ [task]
      dispatched := n.dispatched ++ [(targetId, envelope)] }
  | .resume i ok =>
    n.tasks[i]?.bind fun task => (n.resume validUrl ok task).map fun (n, task) =>
      { n with tasks := n.tasks.set i task }
  | .connection i event =>
    n.connections[i]?.bind fun c => (c.state.next event).map fun state =>
      n.onConnection i c state event
  | .reconnect i j event sends =>
    n.reconnects[i]?.bind fun r => r.sockets[j]?.bind fun socket =>
      (socket.next event).map fun state => n.onReconnect i j r state event sends
  | .timeout i k =>
    n.reconnects[i]?.bind fun r =>
      if k < r.timers.length then
        let (n, r) := n.attempt validUrl { r with timers := r.timers.eraseIdx k }
        some { n with reconnects := n.reconnects.set i r }
      else none
  | .registerPeer agentId address =>
    some { n with peerRegistry := n.peerRegistry.set agentId address }
  | .handshake agentId => some { n with peerRegistry := n.peerRegistry.set agentId "" }
  | .removePeer agentId =>
    let n := { n with peerRegistry := n.peerRegistry.erase agentId }
    match n.peerConnections.get? agentId with
    | some ws =>
      let n := n.close ws
      some { n with peerConnections := n.peerConnections.erase agentId }
    | none => some n
  | .startListening => some { n with running := true }
  | .stopListening =>
    let n := { n with running := false }
    let n := (n.peerConnections.items.map Prod.snd).foldl close n
    some { n with peerConnections := Dict.empty }

/-! ### What the parts of the code change -/

variable {validUrl : String → Bool} {n m : Delivery P E} {event : DeliveryEvent P E}

/-- An attempt gives up, or opens a socket, or throws. -/
theorem attempt_cases (validUrl : String → Bool) (n : Delivery P E) (r : Reconnect P) :
    (n.attempt validUrl r = ({ n with reconnecting := n.reconnecting.erase r.targetId }, r) ∧
        (n.running = true → n.messageQueue.hasMessages r.targetId = true → 10 ≤ r.retries)) ∨
      (validUrl r.address = true ∧ n.attempt validUrl r =
        (n, { r with retries := r.retries + 1, sockets := r.sockets ++ [.connecting] })) ∨
      (n.running = true ∧ validUrl r.address = false ∧
        n.attempt validUrl r = (n, { r with retries := r.retries + 1 })) := by
  unfold attempt
  cases running : n.running with
  | false => exact .inl (by simp)
  | true =>
    cases queued : n.messageQueue.hasMessages r.targetId with
    | false => exact .inl (by simp)
    | true =>
      by_cases last : r.retries ≥ 10
      · exact .inl (by simp [last])
      · cases valid : validUrl r.address with
        | true => exact .inr (.inl (by simp [last]))
        | false => exact .inr (.inr (by simp [last]))

/-- A drain ends with the peer out of `_reconnecting`, whatever it sent, and has no part in the
queues of other peers. -/
theorem drainNext_eq (targetId : P) (sends : ℕ) (n : Delivery P E) :
    ∃ q sent, drainNext targetId sends n = { n with
        messageQueue := q
        sent := sent
        reconnecting := n.reconnecting.erase targetId } ∧
      q.maxSize = n.messageQueue.maxSize ∧
      ∀ other, other ≠ targetId → q.contents other = n.messageQueue.contents other := by
  induction sends generalizing n with
  | zero =>
    unfold drainNext
    rcases taken : n.messageQueue.dequeueOne targetId with ⟨q, _ | msg⟩
    · exact ⟨_, _, rfl, rfl, fun _ _ => rfl⟩
    · have bound := MessageQueue.maxSize_of_dequeueOne taken
      refine ⟨_, _, rfl, bound, fun other ne => ?_⟩
      rw [MessageQueue.contents_enqueueFront, if_neg ne]
      exact (MessageQueue.contents_of_dequeueOne taken).2 other ne
  | succ sends ih =>
    unfold drainNext
    rcases taken : n.messageQueue.dequeueOne targetId with ⟨q, _ | msg⟩
    · exact ⟨_, _, rfl, rfl, fun _ _ => rfl⟩
    · have bound := MessageQueue.maxSize_of_dequeueOne taken
      have others := (MessageQueue.contents_of_dequeueOne taken).2
      dsimp only
      split_ifs
      · obtain ⟨q', sent, eq, bound', others'⟩ :=
          ih (transmit { n with messageQueue := q } targetId msg)
        exact ⟨q', sent, eq, bound'.trans bound,
          fun other ne => (others' other ne).trans (others other ne)⟩
      · exact ⟨_, _, rfl, bound, others⟩

/-- A call of `_reconnectAndDrain` returns at once, or makes an attempt that gives up, opens a
socket or throws. -/
theorem reconnectAndDrain_cases (validUrl : String → Bool) (n : Delivery P E) (targetId : P) :
    (n.reconnectAndDrain validUrl targetId = n ∧
        (targetId ∈ n.reconnecting ∨ n.peerRegistry.get? targetId = none)) ∨
      (targetId ∉ n.reconnecting ∧ ∃ address, n.peerRegistry.get? targetId = some address ∧
        ((¬ (n.running = true ∧ n.messageQueue.hasMessages targetId = true) ∧
            n.reconnectAndDrain validUrl targetId = { n with
              reconnects := n.reconnects ++ [⟨targetId, address, 1000, 0, [], []⟩] }) ∨
          (validUrl address = true ∧ n.reconnectAndDrain validUrl targetId = { n with
            reconnecting := insert targetId n.reconnecting
            reconnects := n.reconnects ++ [⟨targetId, address, 1000, 1, [.connecting], []⟩] }) ∨
          (n.running = true ∧ validUrl address = false ∧
            n.reconnectAndDrain validUrl targetId = { n with
              reconnecting := insert targetId n.reconnecting
              reconnects := n.reconnects ++ [⟨targetId, address, 1000, 1, [], []⟩] }))) := by
  unfold reconnectAndDrain
  split_ifs with already
  · exact .inl ⟨rfl, .inl already⟩
  · cases registered : n.peerRegistry.get? targetId with
    | none =>
      refine .inl ⟨?_, .inr rfl⟩
      simp only [registered, Finset.erase_insert already]
    | some address =>
      refine .inr ⟨already, address, rfl, ?_⟩
      rcases attempt_cases validUrl { n with reconnecting := insert targetId n.reconnecting }
        ⟨targetId, address, 1000, 0, [], []⟩ with
          ⟨attempted, idle⟩ | ⟨valid, attempted⟩ | ⟨running, invalid, attempted⟩
      · refine .inl ⟨fun both => absurd (idle both.1 both.2) (by simp), ?_⟩
        simp only [registered, attempted, Finset.erase_insert already]
      · exact .inr (.inl ⟨valid, by simp only [registered, attempted]; rfl⟩)
      · exact .inr (.inr ⟨running, invalid, by simp only [registered, attempted]⟩)

theorem reconnectAndDrain_eq (validUrl : String → Bool) (n : Delivery P E) (targetId : P) :
    ∃ reconnecting reconnects, n.reconnectAndDrain validUrl targetId =
      { n with reconnecting := reconnecting, reconnects := reconnects } := by
  rcases reconnectAndDrain_cases validUrl n targetId with
    ⟨eq, -⟩ | ⟨-, _, -, ⟨-, eq⟩ | ⟨-, eq⟩ | ⟨-, -, eq⟩⟩
  · exact ⟨_, _, eq⟩
  · exact ⟨_, _, eq⟩
  · exact ⟨_, _, eq⟩
  · exact ⟨_, _, eq⟩

omit [DecidableEq P] in
theorem close_eq (n : Delivery P E) (ws : Ws) :
    ∃ connections reconnects, n.close ws =
      { n with connections := connections, reconnects := reconnects } := by
  cases ws with
  | connection => exact ⟨_, _, rfl⟩
  | reconnect => exact ⟨_, _, rfl⟩

omit [DecidableEq P] in
theorem foldl_close_eq (ws : List Ws) (n : Delivery P E) :
    ∃ connections reconnects, ws.foldl close n =
      { n with connections := connections, reconnects := reconnects } := by
  induction ws generalizing n with
  | nil => exact ⟨_, _, rfl⟩
  | cons first ws ih =>
    obtain ⟨connections, reconnects, closed⟩ := n.close_eq first
    obtain ⟨connections', reconnects', eq⟩ := ih (n.close first)
    refine ⟨connections', reconnects', eq.trans ?_⟩
    rw [closed]

/-! ### The outbox of a peer -/

/-- The envelopes dispatched to a peer. -/
def dispatchedTo (n : Delivery P E) (p : P) : List E :=
  AgentTelepathy.Delivery.forPeer n.dispatched p

/-- The envelopes that a socket took for a peer. -/
def sentTo (n : Delivery P E) (p : P) : List E := AgentTelepathy.Delivery.forPeer n.sent p

end Delivery

/-- The envelope that a dispatch to a peer holds. -/
def Dispatch.held {P E : Type*} [DecidableEq P] (p : P) : Dispatch P E → Multiset E
  | .creating targetId _ envelope | .joining targetId _ envelope | .sending targetId _ envelope
  | .failing targetId envelope => if targetId = p then {envelope} else 0
  | .done => 0

/-- The envelope that an event dispatches, with its peer. -/
def DeliveryEvent.entry {P E : Type*} : DeliveryEvent P E → Option (P × E)
  | .dispatch targetId envelope => some (targetId, envelope)
  | _ => none

/-- The envelope that an event dispatches to a peer. -/
def DeliveryEvent.accepts {P E : Type*} [DecidableEq P] (p : P) (event : DeliveryEvent P E) :
    Option E :=
  event.entry.bind fun entry => if entry.1 = p then some entry.2 else none

namespace Delivery

variable {P E : Type*} [DecidableEq P] {validUrl : String → Bool} {n m : Delivery P E}
  {event : DeliveryEvent P E}

/-- The envelopes for a peer held by running dispatches. -/
def heldFor (n : Delivery P E) (p : P) : Multiset E := (n.tasks.map (Dispatch.held p)).sum

/-- A peer's view of delivery. No envelope is in the hands of a drain between two events. -/
def outbox (n : Delivery P E) (p : P) : Outbox E where
  accepted := n.dispatchedTo p
  completed := n.sentTo p
  stored := n.messageQueue.contents p
  fresh := n.heldFor p
  taken := 0

/-- The messages that the queue has room for. -/
def capacity (n : Delivery P E) : ℕ := max n.messageQueue.maxSize 1

/-- The outbox of a peer makes moves to another state, and accepts `accepted` at most, at once. -/
def Moves (capacity : ℕ) (accepted : Option E) (s t : Outbox E) : Prop :=
  ∃ moves, Run (Guarded (Outbox.Step capacity) fun r move => ∀ envelope, move = .accept envelope →
    accepted = some envelope ∧ r = s) s moves t

theorem Moves.refl {capacity : ℕ} {accepted : Option E} (s : Outbox E) :
    Moves capacity accepted s s := ⟨[], .nil⟩

/-- Moves without an acceptance go on. -/
theorem Moves.trans {capacity : ℕ} {accepted : Option E} {s r t : Outbox E}
    (moves : Moves capacity accepted s r) (more : Moves capacity none r t) :
    Moves capacity accepted s t := by
  obtain ⟨moves, run⟩ := moves
  obtain ⟨more, run'⟩ := more
  exact ⟨_, run.append (run'.mono fun _ _ _ step =>
    ⟨step.1, fun envelope same => absurd (step.2 envelope same).1 (by simp)⟩)⟩

/-- A move that is no acceptance goes on. -/
theorem Moves.snoc {capacity : ℕ} {accepted : Option E} {s r t : Outbox E} {move : Outbox.Move E}
    (moves : Moves capacity accepted s r) (step : Outbox.Step capacity r move t)
    (other : ∀ envelope, move ≠ .accept envelope) : Moves capacity accepted s t := by
  obtain ⟨moves, run⟩ := moves
  exact ⟨_, run.snoc ⟨step, fun envelope same => absurd same (other envelope)⟩⟩

section Outboxes

variable {q : MessageQueue P E} {targetId p : P} {envelope : E} {s : Outbox E}
  {accepted : Option E} {fresh : Multiset E}

theorem outbox_take (taken : n.messageQueue.dequeueOne targetId = (q, some envelope)) :
    Moves n.capacity accepted (n.outbox p) { n.outbox p with
      stored := q.contents p
      taken := if targetId = p then {envelope} else 0 } := by
  obtain ⟨array, others⟩ := MessageQueue.contents_of_dequeueOne taken
  split_ifs with own
  · subst own
    exact (Moves.refl _).snoc (.take array) (by simp)
  · rw [others p (Ne.symm own)]
    exact .refl _

theorem outbox_putBack (bound : q.maxSize = n.messageQueue.maxSize)
    (moves : Moves n.capacity accepted s { n.outbox p with
      stored := q.contents p
      taken := if targetId = p then {envelope} else 0 }) :
    Moves n.capacity accepted s { n.outbox p with
      stored := (q.enqueueFront targetId envelope).contents p } := by
  rw [MessageQueue.contents_enqueueFront, bound]
  split_ifs at moves ⊢ with own own' own'
  · subst own
    exact moves.snoc (.putBack rfl) (by simp)
  · exact absurd own.symm own'
  · exact absurd own'.symm own
  · exact moves

theorem outbox_complete (moves : Moves n.capacity accepted s { n.outbox p with
      stored := q.contents p
      taken := if targetId = p then {envelope} else 0 }) :
    Moves n.capacity accepted s
      ((transmit { n with messageQueue := q } targetId envelope).outbox p) := by
  have sent : (transmit { n with messageQueue := q } targetId envelope).outbox p =
      { n.outbox p with
        stored := q.contents p
        completed := n.sentTo p ++ if targetId = p then [envelope] else [] } := by
    simp [outbox, transmit, sentTo, dispatchedTo, heldFor]
  rw [sent]
  split_ifs at moves ⊢ with own
  · exact moves.snoc (.completeTaken rfl) (by simp)
  · rw [List.append_nil]
    exact moves

end Outboxes

/-- A drain sends the oldest messages and puts back the one that it cannot send. -/
theorem drainNext_moves (targetId : P) (sends : ℕ) (n : Delivery P E) (p : P) :
    Moves n.capacity none (n.outbox p) ((drainNext targetId sends n).outbox p) := by
  induction sends generalizing n with
  | zero =>
    unfold drainNext
    rcases taken : n.messageQueue.dequeueOne targetId with ⟨q, _ | msg⟩
    · exact .refl _
    · exact outbox_putBack (MessageQueue.maxSize_of_dequeueOne taken) (outbox_take taken)
  | succ sends ih =>
    unfold drainNext
    rcases taken : n.messageQueue.dequeueOne targetId with ⟨q, _ | msg⟩
    · exact .refl _
    · have bound := MessageQueue.maxSize_of_dequeueOne taken
      have sent : Moves n.capacity none (n.outbox p)
          ((transmit { n with messageQueue := q } targetId msg).outbox p) :=
        outbox_complete (outbox_take taken)
      dsimp only
      split_ifs
      · have later := ih (transmit { n with messageQueue := q } targetId msg)
        rw [show (transmit { n with messageQueue := q } targetId msg).capacity = n.capacity from
          congrArg (max · 1) bound] at later
        exact sent.trans later
      · exact sent

/-- The outbox of a peer with what dispatches hold for it given. -/
def outboxWith (n : Delivery P E) (p : P) (fresh : Multiset E) : Outbox E :=
  { n.outbox p with fresh }

theorem fail_moves (validUrl : String → Bool) (n : Delivery P E) (targetId : P) (envelope : E)
    (p : P) (others : Multiset E) :
    Moves n.capacity none
      (n.outboxWith p (others + if targetId = p then {envelope} else 0))
      ((n.fail validUrl targetId envelope).outboxWith p others) := by
  obtain ⟨reconnecting, reconnects, eq⟩ := reconnectAndDrain_eq validUrl { n with
    peerConnections := n.peerConnections.erase targetId
    messageQueue := n.messageQueue.enqueue targetId envelope } targetId
  have after : (n.fail validUrl targetId envelope).outboxWith p others =
      { n.outboxWith p others with
        stored := (n.messageQueue.enqueue targetId envelope).contents p } := by
    rw [fail, eq]
    rfl
  rw [after, MessageQueue.contents_enqueue]
  split_ifs with own own' own'
  · subst own
    exact (Moves.refl _).snoc (.store (add_comm others {envelope})) (by simp)
  · exact absurd own.symm own'
  · exact absurd own'.symm own
  · rw [add_zero]
    exact .refl _

theorem fail_eq (validUrl : String → Bool) (n : Delivery P E) (targetId : P) (envelope : E) :
    (n.fail validUrl targetId envelope).tasks = n.tasks ∧
      (n.fail validUrl targetId envelope).capacity = n.capacity := by
  obtain ⟨reconnecting, reconnects, eq⟩ := reconnectAndDrain_eq validUrl { n with
    peerConnections := n.peerConnections.erase targetId
    messageQueue := n.messageQueue.enqueue targetId envelope } targetId
  rw [fail, eq]
  exact ⟨rfl, rfl⟩

theorem held_settle (targetId : P) (i : ℕ) (envelope : E) (resolved : Bool) (p : P) :
    (settle targetId i envelope resolved).held p = if targetId = p then {envelope} else 0 := by
  cases resolved <;> rfl

/-- A dispatch that goes on keeps its envelope, or hands it to a socket or the queue. -/
theorem resume_moves {ok : Bool} {task task' : Dispatch P E}
    (resumed : n.resume validUrl ok task = some (m, task')) (p : P) (others : Multiset E) :
    Moves n.capacity none (n.outboxWith p (others + task.held p))
        (m.outboxWith p (others + task'.held p)) ∧
      m.tasks = n.tasks ∧ m.capacity = n.capacity := by
  cases task with
  | creating targetId i envelope =>
    obtain ⟨resolved, -, same⟩ := Option.map_eq_some_iff.mp resumed
    obtain ⟨rfl, rfl⟩ := Prod.mk.inj same
    rw [held_settle]
    exact ⟨.refl _, rfl, rfl⟩
  | joining targetId i envelope =>
    obtain ⟨resolved, -, same⟩ := Option.map_eq_some_iff.mp resumed
    obtain ⟨rfl, rfl⟩ := Prod.mk.inj same
    rw [held_settle]
    exact ⟨.refl _, rfl, rfl⟩
  | sending targetId ws envelope =>
    obtain ⟨rfl, rfl⟩ := Prod.mk.inj (Option.some.inj resumed)
    rw [Dispatch.held, Dispatch.held, add_zero]
    cases ok with
    | true =>
      refine ⟨?_, rfl, rfl⟩
      have sent : (n.transmit targetId envelope).outboxWith p others = { n.outboxWith p others with
          completed := n.sentTo p ++ if targetId = p then [envelope] else [] } := by
        simp [outboxWith, outbox, transmit, sentTo, dispatchedTo]
      rw [if_pos rfl, sent]
      split_ifs with own
      · exact (Moves.refl _).snoc (.completeFresh (add_comm others {envelope})) (by simp)
      · rw [add_zero, List.append_nil]
        exact .refl _
    | false => exact ⟨fail_moves validUrl n targetId envelope p others, fail_eq _ _ _ _⟩
  | failing targetId envelope =>
    obtain ⟨rfl, rfl⟩ := Prod.mk.inj (Option.some.inj resumed)
    rw [Dispatch.held, Dispatch.held, add_zero]
    exact ⟨fail_moves validUrl n targetId envelope p others, fail_eq _ _ _ _⟩
  | done => cases resumed

/-- A dispatch to an unregistered peer is over at once; any other one starts with its envelope. -/
theorem dispatchEnvelope_cases (validUrl : String → Bool) (n : Delivery P E) (targetId : P)
    (envelope : E) :
    n.dispatchEnvelope validUrl targetId envelope =
        ({ n with messageQueue := n.messageQueue.enqueue targetId envelope }, .done) ∨
      ∃ connections pending task, n.dispatchEnvelope validUrl targetId envelope =
          ({ n with connections := connections, pendingConnections := pending }, task) ∧
        ∀ p, task.held p = if targetId = p then {envelope} else 0 := by
  have created (address : String) : ∃ connections pending task,
      n.createConnection validUrl targetId address envelope =
          ({ n with connections := connections, pendingConnections := pending }, task) ∧
        ∀ p, task.held p = if targetId = p then {envelope} else 0 := by
    unfold createConnection
    split
    · exact ⟨_, _, _, rfl, fun _ => rfl⟩
    · split_ifs
      · exact ⟨_, _, _, rfl, fun _ => rfl⟩
      · exact ⟨_, _, _, rfl, fun _ => rfl⟩
  unfold dispatchEnvelope
  split
  · exact .inl rfl
  · refine .inr ?_
    split
    · split_ifs
      · exact ⟨_, _, _, rfl, fun _ => rfl⟩
      · exact created _
    · exact created _

theorem dispatch_moves (validUrl : String → Bool) (n : Delivery P E) (targetId : P) (envelope : E)
    (step : n.next validUrl (.dispatch targetId envelope) = some m) (p : P) :
    Moves n.capacity (if targetId = p then some envelope else none) (n.outbox p) (m.outbox p) ∧
      m.capacity = n.capacity := by
  have accepts : Moves n.capacity (if targetId = p then some envelope else none) (n.outbox p)
      { n.outbox p with
        accepted := n.dispatchedTo p ++ if targetId = p then [envelope] else []
        fresh := n.heldFor p + if targetId = p then {envelope} else 0 } := by
    split_ifs with own
    · rw [add_comm, Multiset.singleton_add]
      refine ⟨[.accept envelope], Run.single ⟨.accept _ _, ?_⟩⟩
      rintro _ ⟨⟩
      exact ⟨rfl, rfl⟩
    · rw [List.append_nil, add_zero]
      exact .refl _
  rcases dispatchEnvelope_cases validUrl n targetId envelope with
    eq | ⟨connections, pending, task, eq, held⟩
  · rw [next, eq] at step
    obtain rfl := Option.some.inj step
    refine ⟨?_, rfl⟩
    have after : outbox { n with
          messageQueue := n.messageQueue.enqueue targetId envelope
          tasks := n.tasks ++ [.done]
          dispatched := n.dispatched ++ [(targetId, envelope)] } p =
        { n.outbox p with
          accepted := n.dispatchedTo p ++ if targetId = p then [envelope] else []
          stored := (n.messageQueue.enqueue targetId envelope).contents p } := by
      simp [outbox, dispatchedTo, heldFor, sentTo, Dispatch.held]
    refine after ▸ ?_
    rw [MessageQueue.contents_enqueue]
    split_ifs at accepts ⊢ with own own' own'
    · subst own
      exact accepts.snoc (.store (add_comm _ {envelope})) (by simp)
    · exact absurd own.symm own'
    · exact absurd own'.symm own
    · rwa [add_zero] at accepts
  · rw [next, eq] at step
    obtain rfl := Option.some.inj step
    refine ⟨?_, rfl⟩
    have after : outbox { n with
          connections := connections
          pendingConnections := pending
          tasks := n.tasks ++ [task]
          dispatched := n.dispatched ++ [(targetId, envelope)] } p =
        { n.outbox p with
          accepted := n.dispatchedTo p ++ if targetId = p then [envelope] else []
          fresh := n.heldFor p + if targetId = p then {envelope} else 0 } := by
      simp [outbox, dispatchedTo, heldFor, sentTo, held]
    exact after ▸ accepts

/-- Every event makes moves of the outbox of each peer; only a dispatch is accepted. -/
theorem next_moves (step : n.next validUrl event = some m) (p : P) :
    Moves n.capacity (event.accepts p) (n.outbox p) (m.outbox p) ∧ m.capacity = n.capacity := by
  have still : Moves n.capacity (event.accepts p) (n.outbox p) (n.outbox p) := .refl _
  cases event with
  | dispatch targetId envelope => exact dispatch_moves validUrl n targetId envelope step p
  | resume i ok =>
    obtain ⟨task, running, rest⟩ := Option.bind_eq_some_iff.mp step
    obtain ⟨⟨n', task'⟩, resumed, rfl⟩ := Option.map_eq_some_iff.mp rest
    obtain ⟨others, before, after⟩ := Outbox.exists_sum_set (Dispatch.held p) running
    obtain ⟨moves, tasks, capacity⟩ := resume_moves resumed p others
    refine ⟨?_, capacity⟩
    have here : n.outbox p = n.outboxWith p (others + task.held p) := by
      rw [outboxWith, outbox, heldFor, before]
    have there : outbox { n' with tasks := n'.tasks.set i task' } p =
        n'.outboxWith p (others + task'.held p) := by
      rw [outboxWith, outbox, heldFor, tasks, after]
      rfl
    rw [here]
    exact there ▸ moves
  | connection i socketEvent =>
    obtain ⟨c, -, rest⟩ := Option.bind_eq_some_iff.mp step
    obtain ⟨state, -, rfl⟩ := Option.map_eq_some_iff.mp rest
    cases socketEvent <;> exact ⟨still, rfl⟩
  | reconnect i j socketEvent sends =>
    obtain ⟨r, -, rest⟩ := Option.bind_eq_some_iff.mp step
    obtain ⟨socket, -, rest⟩ := Option.bind_eq_some_iff.mp rest
    obtain ⟨state, -, rfl⟩ := Option.map_eq_some_iff.mp rest
    cases socketEvent with
    | opened =>
      let opened : Delivery P E := { n with
        peerConnections := n.peerConnections.set r.targetId (.reconnect i j)
        reconnects := n.reconnects.set i
          { r with sockets := r.sockets.set j state, backoff := 1000 } }
      have moves : Moves n.capacity none (n.outbox p)
          ((drainNext r.targetId sends opened).outbox p) :=
        drainNext_moves r.targetId sends opened p
      refine ⟨moves, ?_⟩
      obtain ⟨q, sent, eq, bound, -⟩ := drainNext_eq r.targetId sends opened
      have capacity : (drainNext r.targetId sends opened).capacity = n.capacity := by
        rw [eq]
        exact congrArg (max · 1) bound
      exact capacity
    | closing | errored | closed => exact ⟨still, rfl⟩
  | timeout i k =>
    obtain ⟨r, -, rest⟩ := Option.bind_eq_some_iff.mp step
    dsimp only at rest
    split_ifs at rest
    obtain rfl := Option.some.inj rest
    rcases attempt_cases validUrl n { r with timers := r.timers.eraseIdx k } with
      ⟨eq, -⟩ | ⟨-, eq⟩ | ⟨-, -, eq⟩
    all_goals
      rw [eq]
      exact ⟨still, rfl⟩
  | registerPeer | handshake | startListening =>
    obtain rfl := Option.some.inj step
    exact ⟨still, rfl⟩
  | removePeer agentId =>
    unfold next at step
    dsimp only at step
    split at step
    · rename_i ws _
      obtain ⟨connections, reconnects, closed⟩ :=
        close_eq { n with peerRegistry := n.peerRegistry.erase agentId } ws
      rw [closed] at step
      obtain rfl := Option.some.inj step
      exact ⟨still, rfl⟩
    · obtain rfl := Option.some.inj step
      exact ⟨still, rfl⟩
  | stopListening =>
    obtain ⟨connections, reconnects, closed⟩ :=
      foldl_close_eq (n.peerConnections.items.map Prod.snd) { n with running := false }
    unfold next at step
    dsimp only at step
    rw [closed] at step
    obtain rfl := Option.some.inj step
    exact ⟨still, rfl⟩

/-- A run of delivery is a run of the outbox of each peer, which accepts what the events
dispatch. -/
theorem run_outbox {maxSize : ℕ} {guard : Delivery P E → DeliveryEvent P E → Prop}
    {events : List (DeliveryEvent P E)} (p : P)
    (run : Run (Guarded (OfPartial (next validUrl)) guard) (init maxSize) events n) :
    n.capacity = max maxSize 1 ∧
      ∃ moves, Run (Guarded (Outbox.Step (max maxSize 1)) fun s move => ∀ envelope,
        move = .accept envelope → ∃ m event, guard m event ∧ m.capacity = max maxSize 1 ∧
          event.accepts p = some envelope ∧ s = m.outbox p)
        ((init maxSize).outbox p) moves (n.outbox p) := by
  induction run with
  | nil => exact ⟨rfl, [], .nil⟩
  | @snoc events n n' event before last ih =>
    obtain ⟨capacity, moves, matched⟩ := ih
    obtain ⟨⟨more, moved⟩, same⟩ := next_moves last.1 p
    rw [capacity] at moved
    refine ⟨same.trans capacity, _, matched.append (moved.mono ?_)⟩
    intro s move t step
    refine ⟨step.1, fun envelope accepted => ?_⟩
    obtain ⟨accepts, rfl⟩ := step.2 envelope accepted
    exact ⟨n, event, last.2, capacity, accepts, rfl⟩

/-- An envelope is dispatched only while fewer of those for its peer than the queue holds are
outstanding, in the queue or held by dispatches. -/
def Roomy (n : Delivery P E) (event : DeliveryEvent P E) : Prop :=
  ∀ entry ∈ event.entry,
    (n.dispatchedTo entry.1).length < (n.sentTo entry.1).length + n.capacity

/-- In every interleaving of dispatches, sockets and timers, the envelopes for a peer that a socket
took, that wait in its queue and that running dispatches hold are envelopes dispatched to it, each
as often as it was dispatched at most. They are all of them as long as no more envelopes for a peer
are outstanding than its queue holds. -/
theorem dispatches_conserved {maxSize : ℕ} {events : List (DeliveryEvent P E)}
    (run : Run (OfPartial (next validUrl)) (init maxSize) events n) (p : P) :
    (n.sentTo p + n.messageQueue.contents p + n.heldFor p : Multiset E) ≤ n.dispatchedTo p ∧
      (Run (Guarded (OfPartial (next validUrl)) Roomy) (init maxSize) events n →
        (n.sentTo p + n.messageQueue.contents p + n.heldFor p : Multiset E) =
          n.dispatchedTo p) := by
  constructor
  · have unguarded : Run (Guarded (OfPartial (next validUrl)) fun _ _ => True) (init maxSize)
        events n := run.mono fun _ _ _ step => ⟨step, trivial⟩
    obtain ⟨-, moves, matched⟩ := run_outbox p unguarded
    have start : Outbox.Honest ((init maxSize : Delivery P E).outbox p) := le_refl _
    have honest : Outbox.Honest (n.outbox p) := start.run matched.of_guarded
    rwa [Outbox.Honest, outbox, add_zero] at honest
  · intro roomy
    obtain ⟨-, moves, matched⟩ := run_outbox p roomy
    have start : Outbox.Balanced ((init maxSize : Delivery P E).outbox p) := rfl
    have fits : Outbox.Bounded (max maxSize 1) ((init maxSize : Delivery P E).outbox p) :=
      Nat.zero_le _
    -- What is accepted was dispatched while there was room for it.
    have within : Run (Guarded (Outbox.Step (max maxSize 1)) (Outbox.Roomy (max maxSize 1)))
        ((init maxSize).outbox p) moves (n.outbox p) := by
      refine matched.mono fun s move t step => ⟨step.1, ?_⟩
      cases move with
      | accept envelope =>
        obtain ⟨m, event, room, capacity, accepts, rfl⟩ := step.2 envelope rfl
        obtain ⟨entry, dispatched, own⟩ := Option.bind_eq_some_iff.mp accepts
        split_ifs at own with same
        subst same
        rw [← capacity]
        exact room entry dispatched
      | completeFresh | store | take | completeTaken | putBack => trivial
    have balanced := (start.run_roomy fits within).1
    rw [Outbox.Balanced, outbox, add_zero] at balanced
    exact balanced.symm

instance (n : Delivery P E) (event : DeliveryEvent P E) : Decidable (Roomy n event) :=
  inferInstanceAs (Decidable (∀ entry ∈ event.entry, _))

/-- The first connection fails; the second envelope takes a new one while a reconnect drains the
first. -/
def restored : List (DeliveryEvent Bool ℕ) :=
  [.registerPeer true "ws://peer", .startListening, .dispatch true 1, .connection 0 .errored,
    .resume 0 true, .resume 0 true, .dispatch true 2, .reconnect 0 0 .opened 5,
    .connection 1 .opened, .resume 1 true, .dispatch true 3]

theorem dispatches_conserved_restored :
    let n := (runPartial (checked (next (· ≠ "")) Roomy) (init 2) restored).get (by decide)
    n.sentTo true = [1] ∧ n.heldFor true = {2, 3} ∧
      (n.sentTo true + n.messageQueue.contents true + n.heldFor true : Multiset ℕ) =
        n.dispatchedTo true := by
  intro n
  have run : Run (Guarded (OfPartial (next (· ≠ ""))) Roomy) (init 2) restored n :=
    run_get_checked (by decide)
  exact ⟨by decide, by decide, (dispatches_conserved run.of_guarded true).2 run⟩

end Delivery

end AgentTelepathy.TypeScript
