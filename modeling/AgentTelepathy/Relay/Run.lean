import AgentTelepathy.Foundation.Transition
import AgentTelepathy.Relay.Server

/-!
# Runs of the relay

The relay with its connections and everything that can happen to it: agents
connect, send frames of any content, lose their connections, and sign data with
the keys they hold; the handlers' awaits return in any order. A frame is
transmitted when `send` is called, if the connection is open; the await then
ends as the network decides. Only logged signatures verify. Sends, and those of
them that raised, are recorded.
-/

namespace AgentTelepathy

open Foundation Foundation.Transition

/-- The await at which the handler of a connection is suspended. -/
inductive HandlerTask
  /-- At the next message of the loop. -/
  | receiving
  /-- At a send to a connection; whether the frame was transmitted. -/
  | sending (purpose : Purpose) (target : ℕ) (transmitted : Bool)
  /-- At the closing of its own connection. -/
  | closing (leaving : Bool)
  | exited
deriving DecidableEq

/-- A connection with its remote address and its handler. -/
structure Connection where
  ip : String
  isOpen : Bool
  task : HandlerTask
deriving DecidableEq

/-- A call of `send`. -/
structure Send where
  target : ℕ
  purpose : Purpose
  frame : Json
  transmitted : Bool
deriving DecidableEq

/-- What can happen. -/
inductive RelayEvent
  | connect (ws : ℕ) (ip : String) (now : ℚ)
  | message (ws : ℕ) (m : Message) (readings : Readings) (entropy : Entropy)
  /-- The send that the handler of a connection awaits ends. -/
  | sent (ws : ℕ) (outcome : SendOutcome)
  /-- The closing that the handler of a connection awaits ends. -/
  | closed (ws : ℕ)
  /-- A connection is closed, by its peer or because it broke. -/
  | lose (ws : ℕ)
  /-- The message loop of a closed connection ends. -/
  | finish (ws : ℕ)
  /-- The holder of some key signs some data. -/
  | sign (signing : Signing)

/-- The relay server with its connections, the signatures made so far and the
time. A failure names the agent and the connection of a send that raised. -/
structure Relay where
  server : ADNSRelayServer
  connections : Dict ℕ Connection
  log : SignatureLog
  clock : ℚ
  sends : List Send
  failures : List (Key × ℕ)

/-- The agent that a send is for. -/
def Purpose.peer : Purpose → Key
  | .challenge senderId | .confirm senderId => senderId
  | .forward _ target => target
  | .broadcast _ peer _ _ => peer

/-- The forwarding that a send is part of. -/
def Purpose.routing? : Purpose → Option Routing
  | .challenge _ | .confirm _ => none
  | .forward routing _ | .broadcast routing _ _ _ => some routing

namespace Relay

/-- A relay without connections. -/
def init (rateLimit burstLimit : ℚ) : Relay where
  server := .init rateLimit burstLimit
  connections := Dict.empty
  log := []
  clock := 0
  sends := []
  failures := []

/-- The await at which a handler is. -/
def task? (r : Relay) (ws : ℕ) : Option HandlerTask := (r.connections.get? ws).map Connection.task

/-- Whether a connection is open. -/
def isOpen (r : Relay) (ws : ℕ) : Bool := ((r.connections.get? ws).map Connection.isOpen).getD false

/-- Whether the handler of a connection is running. -/
def Running (r : Relay) (ws : ℕ) : Prop := ∃ task, r.task? ws = some task ∧ task ≠ .exited

/-- Change a connection. -/
def update (r : Relay) (ws : ℕ) (change : Connection → Connection) : Relay :=
  match r.connections.get? ws with
  | none => r
  | some connection => { r with connections := r.connections.set ws (change connection) }

/-- Move a handler to an await. -/
def suspend (r : Relay) (ws : ℕ) (task : HandlerTask) : Relay :=
  r.update ws fun connection => { connection with task }

/-- A connection is no longer open. -/
def lose (r : Relay) (ws : ℕ) : Relay :=
  r.update ws fun connection => { connection with isOpen := false }

/-- A handler goes on to its next await. -/
def perform (r : Relay) (ws : ℕ) : Action → Relay
  | .receive => r.suspend ws .receiving
  | .send purpose target frame =>
    { r.suspend ws (.sending purpose target (r.isOpen target)) with
      sends := r.sends ++ [⟨target, purpose, frame, r.isOpen target⟩] }
  | .close leaving => (r.lose ws).suspend ws (.closing leaving)

/-- A handler ends. -/
def exit (r : Relay) (ws : ℕ) : Relay :=
  { r with server := r.server.disconnect ws }.suspend ws .exited

/-- Sends on a closed connection do not return, and `ConnectionClosed` is raised
on closed connections only. -/
def Possible (r : Relay) (target : ℕ) (transmitted : Bool) : SendOutcome → Prop
  | .ok => transmitted = true
  | .closed => r.isOpen target = false
  | .raised => True

instance (r : Relay) (target : ℕ) (transmitted : Bool) (outcome : SendOutcome) :
    Decidable (r.Possible target transmitted outcome) := by
  cases outcome <;> unfold Possible <;> infer_instance

/-- Process a message. -/
def receive (r : Relay) (ws : ℕ) (ip : String) (m : Message) (readings : Readings)
    (entropy : Entropy) : Relay :=
  let (server, action) :=
    r.server.handleMessage r.log.verify ws ip m readings entropy.hex
  let r := { r with server := server, clock := readings.stamp }
  match action with
  | none => r.exit ws
  | some action => r.perform ws action

/-- Go on after a send. -/
def resume (r : Relay) (ws : ℕ) (purpose : Purpose) (target : ℕ) (outcome : SendOutcome) : Relay :=
  let (server, action) := r.server.resumeSend outcome purpose
  { r with
    server := server
    failures := if outcome = SendOutcome.ok then r.failures else r.failures ++
      [(purpose.peer, target)] }.perform
    ws action

/-- The state after an event, if the event is possible. -/
def next (r : Relay) : RelayEvent → Option Relay
  | .connect ws ip now =>
    if r.connections.get? ws = none ∧ r.clock ≤ now then
      some { r with
        server := r.server.connect ws now
        connections := r.connections.set ws ⟨ip, true, .receiving⟩
        clock := now }
    else none
  | .message ws m readings entropy =>
    match r.connections.get? ws with
    | some ⟨ip, _, .receiving⟩ =>
      if r.clock ≤ readings.consume ∧ readings.Ordered then
        some (r.receive ws ip m readings entropy)
      else none
    | _ => none
  | .sent ws outcome =>
    match r.task? ws with
    | some (.sending purpose target transmitted) =>
      if r.Possible target transmitted outcome then some (r.resume ws purpose target outcome)
        else none
    | _ => none
  | .closed ws =>
    match r.task? ws with
    | some (.closing leaving) => some (if leaving then r.exit ws else r.suspend ws .receiving)
    | _ => none
  | .lose ws => if (r.connections.get? ws).isSome then some (r.lose ws) else none
  | .finish ws =>
    match r.connections.get? ws with
    | some ⟨_, false, .receiving⟩ => some (r.exit ws)
    | _ => none
  | .sign signing => some { r with log := r.log ++ [signing] }

/-- The states of a relay in service. -/
def Reachable (r : Relay) : Prop :=
  ∃ rateLimit burstLimit events, Run (OfPartial next) (init rateLimit burstLimit) events r

end Relay

end AgentTelepathy
