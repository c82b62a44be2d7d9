import AgentTelepathy.Core.Adns
import AgentTelepathy.Core.Delivery
import AgentTelepathy.Core.Session

/-!
# The relay-only node

A `RelayTPCPNode` overrides only how a node starts: it opens no server and keeps
a connection to the relay. Everything it sends goes the way of a `TPCPNode`. A
discovery, the answer to a challenge and a broadcast are frames on the relay
connection; `send_message` hands its envelope to `_dispatch_envelope`, which
looks the target up in the peer registry and never at the relay connection. So a
message to a registered peer goes over a direct connection, and a message to
anyone else into the dead-letter queue.
-/

namespace AgentTelepathy

open Foundation Foundation.Transition

/-- The task of `_connect_to_adns`, by the await at which it is suspended. -/
inductive AdnsSession
  /-- At `shared_memory.connect`, in `start_listening`. -/
  | starting
  /-- At `websockets.connect`. -/
  | connecting
  /-- At `_adns_ws.send`, in `broadcast_discovery`. -/
  | greeting (ws : ℕ) (envelope : TPCPEnvelope)
  /-- Waiting for a message. -/
  | listening (ws : ℕ)
  /-- At `ws.send`, with the answer to a challenge. -/
  | answering (ws : ℕ) (response : Json)
  /-- At `asyncio.sleep`. -/
  | sleeping
  | done

/-- The relay connection that a session has open. -/
def AdnsSession.ws? : AdnsSession → Option ℕ
  | .greeting ws _ | .listening ws | .answering ws _ => some ws
  | _ => none

/-- What a call of `send_broadcast` waits for. -/
inductive Broadcasting
  /-- `_adns_ws.send`. -/
  | relaying (ws : ℕ) (envelope : TPCPEnvelope)
  /-- The dispatch to a peer, by its task; then it is the turn of the others. -/
  | fanningOut (peers : List UUID) (dispatch : Option ℕ)
  | done

/-- A call that sends. Waiting for an acknowledgement is left out. -/
inductive OutboundCall
  /-- `send_message`, with the task of its dispatch; none if signing raised. -/
  | message (dispatch : Option ℕ)
  | broadcast (intent : Intent) (payload : Payload) (signature : String) (state : Broadcasting)
  /-- `send_multicast`, with the peers whose turn comes. -/
  | multicast (intent : Intent) (payload : Payload) (peers : List UUID) (dispatch : Option ℕ)

/-- Whether a call is one of `send_message`. -/
def OutboundCall.isMessage : OutboundCall → Bool
  | .message _ => true
  | _ => false

/-- A frame transmitted on a relay connection, and the call that sent it; none
for the frames of the connection's own task. -/
structure RelayFrame where
  ws : ℕ
  call : Option ℕ
  data : Json

/-- A relay-only node. It has the URL of a relay. Relay connections and calls are
named by the order in which they were made, and frames recorded as they are
transmitted. -/
structure RelayTPCPNode (M : Type) where
  adns : AdnsNode M
  adnsUrl : String
  hasUrl : adnsUrl ≠ ""
  adnsWs : Option ℕ
  opened : ℕ
  sessions : List AdnsSession
  delivery : Delivery UUID TPCPEnvelope
  calls : List OutboundCall
  frames : List RelayFrame

/-- What can happen to a relay-only node. A pooled connection to the peer that a
dispatch is for may be open or not; what is awaited may raise. -/
inductive RelayNodeEvent (M : Type)
  | startListening
  /-- Resume a task of `_connect_to_adns`. -/
  | session (i : ℕ) (ambient : Ambient) (signature : Bytes) (ok : Bool)
  /-- A message arrives on the connection of a session. -/
  | message (i : ℕ) (context : Context M) (data : Option Json) (isOpen : Bool)
  /-- The connection of a session is closed, in the regular way or not. -/
  | closed (i : ℕ) (regular : Bool)
  | sendMessage (request : Request) (isOpen : Bool)
  | sendMulticast (tag : String) (intent : Intent) (payload : Payload)
  | sendBroadcast (ambient : Ambient) (signature : Bytes) (intent : Intent) (payload : Payload)
  /-- Resume a call. -/
  | advance (i : ℕ) (ambient : Ambient) (signature : Bytes) (isOpen ok : Bool)
  /-- Resume a task of delivery. -/
  | resume (i : ℕ) (ok : Bool)
  | registerPeer (identity : AgentIdentity) (address : String)
  | removePeer (agentId : UUID)
  | registerHandler (intent : Intent) (handler : Handler)
  /-- The start of `stop_listening`. -/
  | stopListening
  /-- `stop_listening` forgets the pooled connections. -/
  | clearConnections

namespace RelayTPCPNode

variable {M : Type} {n m : RelayTPCPNode M}

/-- The receiver of a broadcast. -/
def broadcastUuid : UUID := UUID.nil

/-- `RelayTPCPNode(identity, adns_url, auto_ack=..., acl_policy=...)`. -/
def init (identity : AgentIdentity) (adnsUrl : Option String) (autoAck : Bool)
    (aclPolicy : Option ACLPolicy) (memory : M) : Except String (RelayTPCPNode M) :=
  let url := adnsUrl.getD ""
  if missing : url = "" then
    .error ("RelayTPCPNode requires adns_url — the relay is this node's only transport. " ++
      "Provide the URL of a running A-DNS relay server.")
  else .ok
    { adns := ⟨TPCPNode.init identity autoAck aclPolicy memory, false⟩
      adnsUrl := url
      hasUrl := missing
      adnsWs := none
      opened := 0
      sessions := []
      delivery := Delivery.init 500
      calls := []
      frames := [] }

/-- The addresses of a node's peers. -/
def addresses (node : TPCPNode M) : Dict UUID String := node.peerRegistry.map Prod.snd

/-- Replace the node; delivery uses its registry. -/
def withNode (n : RelayTPCPNode M) (node : TPCPNode M) : RelayTPCPNode M :=
  { n with
    adns := { n.adns with node := node }
    delivery := { n.delivery with peerRegistry := addresses node } }

/-- Record a frame that was transmitted. -/
def transmit (n : RelayTPCPNode M) (ws : ℕ) (call : Option ℕ) (data : Json) : RelayTPCPNode M :=
  { n with frames := n.frames ++ [⟨ws, call, data⟩] }

/-- Call `_dispatch_envelope`; the task is the last one of delivery. -/
def dispatch (n : RelayTPCPNode M) (target : UUID) (e : TPCPEnvelope) (isOpen : Bool) :
    RelayTPCPNode M :=
  let (delivery, task) := n.delivery.dispatchEnvelope target e isOpen
  { n with
    delivery :=
      { delivery with
        tasks := delivery.tasks ++ [task]
        dispatched := delivery.dispatched ++ [(target, e)] } }

/-! ### The relay connection -/

/-- The envelope of `broadcast_discovery()`. -/
def discovery (node : TPCPNode M) (ambient : Ambient) (signature : Bytes) :
    Except TypeError TPCPEnvelope :=
  let payload := Payload.text
    ⟨String.ofList (JsonText.render JsonText.compactStyle node.identity.toJson), "en"⟩
  (AgentIdentityManager.signPayload (fun _ => signature) (.json payload.modelDump)).map
    fun signature =>
      { header := node.createHeader ambient UUID.nil .handshake
        payload := payload
        signature := some signature
        ackInfo := none
        chunkInfo := none }

/-- The head of the loop of `_connect_to_adns`. -/
def reconnect (n : RelayTPCPNode M) : AdnsSession :=
  if n.delivery.running then .connecting else .done

/-- The exception handler of `_connect_to_adns`. -/
def lose (n : RelayTPCPNode M) : RelayTPCPNode M × AdnsSession :=
  ({ n with adnsWs := none, adns := { n.adns with adnsRegistered := false } },
    if n.delivery.running then .sleeping else .done)

/-- Run a session from its await to the next one. -/
def resumeSession (n : RelayTPCPNode M) (ambient : Ambient) (signature : Bytes) (ok : Bool) :
    AdnsSession → RelayTPCPNode M × AdnsSession
  | .starting =>
    if ok then ({ n with delivery := { n.delivery with running := true } }, .connecting)
    else (n, .done)
  | .connecting =>
    if ok then
      let ws := n.opened
      let n := { n with
        opened := ws + 1
        adnsWs := some ws
        adns := { n.adns with adnsRegistered := false } }
      match discovery n.adns.node ambient signature with
      | .error _ => n.lose
      | .ok e => (n, .greeting ws e)
    else n.lose
  | .greeting ws e =>
    -- A send that raises is logged, and the session goes on to listen.
    if ok then (n.transmit ws none e.toJson, .listening ws) else (n, .listening ws)
  | .answering ws response =>
    if ok then (n.transmit ws none response, .listening ws) else (n, .listening ws)
  | .sleeping => (n, n.reconnect)
  | .listening ws => (n, .listening ws)
  | .done => (n, .done)

/-- Dispatch what the node replied since it had dispatched so many envelopes. -/
def reply (n : RelayTPCPNode M) (earlier : ℕ) (isOpen : Bool) : RelayTPCPNode M :=
  (n.adns.node.dispatched.drop earlier).foldl (fun n entry => n.dispatch entry.1 entry.2 isOpen) n

/-- Process a message from the relay. -/
def receive (n : RelayTPCPNode M) (ws : ℕ) (c : Context M) (data : Option Json) (isOpen : Bool) :
    RelayTPCPNode M × AdnsSession :=
  let (adns, reaction) := n.adns.processAdnsMessage c data
  let m := ({ n with adns := adns }.withNode adns.node).reply n.adns.node.dispatched.length isOpen
  match reaction with
  | .challenged _ _ response => (m, .answering ws response)
  | _ => (m, .listening ws)

/-! ### Calls that send -/

/-- `send_message` up to the first await of its dispatch. -/
def sendMessage (n : RelayTPCPNode M) (request : Request) (isOpen : Bool) :
    RelayTPCPNode M × Option ℕ :=
  match n.adns.node.sendMessage request.ambient (fun _ => request.signature) request.target
      request.intent request.payload request.requireAck request.chunkInfo with
  | .error _ => (n, none)
  | .ok (node, e) => ((n.withNode node).dispatch request.target e isOpen,
      some n.delivery.tasks.length)

/-- `send_multicast` up to its first dispatch. -/
def sendMulticast (n : RelayTPCPNode M) (tag : String) (intent : Intent) (payload : Payload) :
    OutboundCall :=
  .multicast intent payload
    ((n.adns.node.peerRegistry.items.filter fun entry => tag ∈ entry.2.1.capabilities).map Prod.fst)
    none

/-- An envelope of `send_broadcast`. -/
def broadcastEnvelope (n : RelayTPCPNode M) (ambient : Ambient) (receiver : UUID) (intent : Intent)
    (payload : Payload) (signature : String) : TPCPEnvelope where
  header := n.adns.node.createHeader ambient receiver intent
  payload := payload
  signature := some signature
  ackInfo := none
  chunkInfo := none

/-- `send_broadcast` up to its first await. -/
def sendBroadcast (n : RelayTPCPNode M) (ambient : Ambient) (signature : Bytes) (intent : Intent)
    (payload : Payload) : OutboundCall :=
  match AgentIdentityManager.signPayload (fun _ => signature) (.json payload.modelDump) with
  | .error _ => .broadcast intent payload "" .done
  | .ok signature => .broadcast intent payload signature <|
    match n.adnsWs with
    | some ws => .relaying ws (n.broadcastEnvelope ambient broadcastUuid intent payload signature)
    | none => .fanningOut n.adns.node.peerRegistry.keys none

/-- Whether a dispatch has returned. -/
def returned (n : RelayTPCPNode M) (dispatch : Option ℕ) : Bool :=
  dispatch.all fun i => match n.delivery.tasks[i]? with
    | some .done => true
    | _ => false

/-- Resume the `i`-th call; not while it waits for a dispatch. -/
def advance (n : RelayTPCPNode M) (i : ℕ) (ambient : Ambient) (signature : Bytes)
    (isOpen ok : Bool) : OutboundCall → Option (RelayTPCPNode M × OutboundCall)
  | .message _ => none
  | .broadcast intent payload signed (.relaying ws e) =>
    if ok then some (n.transmit ws (some i) e.toJson, .broadcast intent payload signed .done)
    else some (n, .broadcast intent payload signed (.fanningOut n.adns.node.peerRegistry.keys none))
  | .broadcast intent payload signed (.fanningOut peers current) =>
    if n.returned current then
      match peers with
      | [] => some (n, .broadcast intent payload signed .done)
      | peer :: peers =>
        some (n.dispatch peer (n.broadcastEnvelope ambient peer intent payload signed) isOpen,
          .broadcast intent payload signed (.fanningOut peers (some n.delivery.tasks.length)))
    else none
  | .broadcast _ _ _ .done => none
  | .multicast intent payload peers current =>
    if n.returned current then
      match peers with
      | [] => none
      | peer :: peers =>
        let (m, current) :=
          n.sendMessage ⟨ambient, signature, peer, intent, payload, false, none⟩ isOpen
        some (m, .multicast intent payload peers current)
    else none

/-! ### Steps -/

/-- Put a session in its next state. -/
def setSession (i : ℕ) : RelayTPCPNode M × AdnsSession → RelayTPCPNode M
  | (n, session) => { n with sessions := n.sessions.set i session }

/-- One event, if it is possible. -/
def next (n : RelayTPCPNode M) : RelayNodeEvent M → Option (RelayTPCPNode M)
  | .startListening => some { n with sessions := n.sessions ++ [.starting] }
  | .session i ambient signature ok =>
    n.sessions[i]?.map fun session => setSession i (n.resumeSession ambient signature ok session)
  | .message i c data isOpen =>
    match n.sessions[i]? with
    | some (.listening ws) => some (setSession i (n.receive ws c data isOpen))
    | _ => none
  | .closed i regular =>
    match n.sessions[i]? with
    | some (.listening _) => some (setSession i (if regular then (n, n.reconnect) else n.lose))
    | _ => none
  | .sendMessage request isOpen =>
    let (m, current) := n.sendMessage request isOpen
    some { m with calls := m.calls ++ [.message current] }
  | .sendMulticast tag intent payload =>
    some { n with calls := n.calls ++ [n.sendMulticast tag intent payload] }
  | .sendBroadcast ambient signature intent payload =>
    some { n with calls := n.calls ++ [n.sendBroadcast ambient signature intent payload] }
  | .advance i ambient signature isOpen ok =>
    (n.calls[i]?.bind (n.advance i ambient signature isOpen ok)).map fun (m, call) =>
      { m with calls := m.calls.set i call }
  | .resume i ok => (n.delivery.next (.resume i ok)).map fun delivery =>
      { n with delivery := delivery }
  | .registerPeer identity address => some (n.withNode (n.adns.node.registerPeer identity address))
  | .removePeer agentId =>
    let m := n.withNode (n.adns.node.removePeer agentId)
    some { m with
      delivery := { m.delivery with peerConnections := m.delivery.peerConnections.erase agentId } }
  | .registerHandler intent handler =>
      some (n.withNode (n.adns.node.registerHandler intent handler))
  | .stopListening =>
    let m := n.withNode n.adns.node.stopListening
    some { m with delivery := { m.delivery with running := false } }
  | .clearConnections =>
    some { n with delivery := { n.delivery with peerConnections := Dict.empty } }

theorem next_sendMessage (n : RelayTPCPNode M) (request : Request) (isOpen : Bool) :
    n.next (.sendMessage request isOpen) = some
      { (n.sendMessage request isOpen).1 with
        calls := (n.sendMessage request isOpen).1.calls ++
          [.message (n.sendMessage request isOpen).2] } := rfl

/-- The relay connection is open and the relay has confirmed the registration. -/
def Ready (n : RelayTPCPNode M) : Prop :=
  n.adns.adnsRegistered = true ∧ ∃ session ∈ n.sessions, session.ws?.isSome ∧ session.ws? = n.adnsWs

/-! ### Who transmits on the relay connection -/

/-- Delivery uses the addresses of the node's registry. -/
def Synced (n : RelayTPCPNode M) : Prop := n.delivery.peerRegistry = addresses n.adns.node

/-- Nothing was called and nothing transmitted on a relay connection. -/
structure Quiet (n m : RelayTPCPNode M) : Prop where
  calls : m.calls = n.calls
  frames : m.frames = n.frames
  synced : n.Synced → m.Synced

theorem Quiet.refl (n : RelayTPCPNode M) : Quiet n n := ⟨rfl, rfl, id⟩

theorem Quiet.trans {r : RelayTPCPNode M} (first : Quiet n m) (second : Quiet m r) : Quiet n r :=
  ⟨second.calls.trans first.calls, second.frames.trans first.frames,
    fun synced => second.synced (first.synced synced)⟩

theorem quiet_withNode (n : RelayTPCPNode M) (node : TPCPNode M) : Quiet n (n.withNode node) :=
  ⟨rfl, rfl, fun _ => rfl⟩

theorem quiet_dispatch (n : RelayTPCPNode M) (target : UUID) (e : TPCPEnvelope) (isOpen : Bool) :
    Quiet n (n.dispatch target e isOpen) := by
  obtain ⟨connections, task, started, -⟩ := n.delivery.dispatchEnvelope_spec target e isOpen
  refine ⟨rfl, rfl, fun synced => ?_⟩
  have registry : (n.dispatch target e isOpen).delivery.peerRegistry = n.delivery.peerRegistry := by
    simp only [dispatch, started]
  exact registry.trans synced

theorem quiet_reply (n : RelayTPCPNode M) (earlier : ℕ) (isOpen : Bool) :
    Quiet n (n.reply earlier isOpen) := by
  have folded (entries : List (UUID × TPCPEnvelope)) (m : RelayTPCPNode M) :
      Quiet m (entries.foldl (fun n entry => n.dispatch entry.1 entry.2 isOpen) m) := by
    induction entries generalizing m with
    | nil => exact .refl m
    | cons entry entries ih => exact (m.quiet_dispatch entry.1 entry.2 isOpen).trans (ih _)
  exact folded _ n

theorem quiet_sendMessage (n : RelayTPCPNode M) (request : Request) (isOpen : Bool) :
    Quiet n (n.sendMessage request isOpen).1 := by
  unfold sendMessage
  split
  · exact .refl n
  · exact (n.quiet_withNode _).trans (quiet_dispatch _ _ _ _)

theorem quiet_lose (n : RelayTPCPNode M) : Quiet n n.lose.1 := ⟨rfl, rfl, id⟩

theorem quiet_receive (n : RelayTPCPNode M) (ws : ℕ) (c : Context M) (data : Option Json)
    (isOpen : Bool) : Quiet n (n.receive ws c data isOpen).1 := by
  have replied (adns : AdnsNode M) : Quiet n
      (({ n with adns := adns }.withNode adns.node).reply n.adns.node.dispatched.length
        isOpen) := by
    have adopted : Quiet n ({ n with adns := adns }.withNode adns.node) := ⟨rfl, rfl, fun _ => rfl⟩
    exact adopted.trans (quiet_reply _ _ _)
  unfold receive
  rcases n.adns.processAdnsMessage c data with ⟨adns, reaction⟩
  cases reaction <;> exact replied adns

/-- What a step leaves behind: calls keep their kind, and a new frame is not one
of a call of `send_message`. -/
structure Extends (n m : RelayTPCPNode M) : Prop where
  calls : n.calls.map OutboundCall.isMessage <+: m.calls.map OutboundCall.isMessage
  frames : ∀ frame ∈ m.frames, frame ∈ n.frames ∨
    ∀ k, frame.call = some k → (m.calls.map OutboundCall.isMessage)[k]? = some false
  synced : n.Synced → m.Synced

theorem Quiet.extends (quiet : Quiet n m) : Extends n m where
  calls := quiet.calls ▸ List.prefix_rfl
  frames _ member := .inl (quiet.frames ▸ member)
  synced := quiet.synced

/-- One more call. -/
theorem Quiet.extends_call (quiet : Quiet n m) (call : OutboundCall) :
    Extends n { m with calls := m.calls ++ [call] } where
  calls := by
    rw [← quiet.calls, List.map_append]
    exact List.prefix_append _ _
  frames _ member := .inl (quiet.frames ▸ member)
  synced := quiet.synced

theorem map_set_isMessage {calls : List OutboundCall} {i : ℕ} {call call' : OutboundCall}
    (found : calls[i]? = some call) (same : call'.isMessage = call.isMessage) :
    (calls.set i call').map OutboundCall.isMessage = calls.map OutboundCall.isMessage := by
  rw [List.map_set, same]
  have here : (calls.map OutboundCall.isMessage)[i]? = some call.isMessage := by
    rw [List.getElem?_map, found]
    rfl
  obtain ⟨bound, value⟩ := List.getElem?_eq_some_iff.mp here
  rw [← value, List.set_getElem_self]

/-- A resumed call keeps its kind, and only a broadcast transmits a frame. -/
theorem advance_spec {i : ℕ} {ambient : Ambient} {signature : Bytes} {isOpen ok : Bool}
    {call call' : OutboundCall}
    (advanced : n.advance i ambient signature isOpen ok call = some (m, call')) :
    call'.isMessage = call.isMessage ∧
      (Quiet n m ∨ call.isMessage = false ∧ ∃ ws data, m = n.transmit ws (some i) data) := by
  -- Only a broadcast that relays transmits; a message has nothing left to do.
  cases call with
  | message dispatch => cases advanced
  | broadcast intent payload signed state =>
    cases state with
    | done => cases advanced
    | relaying ws e =>
      cases ok with
      | true =>
        cases advanced
        exact ⟨rfl, .inr ⟨rfl, ws, e.toJson, rfl⟩⟩
      | false =>
        cases advanced
        exact ⟨rfl, .inl (.refl n)⟩
    | fanningOut peers current =>
      obtain ⟨-, advanced⟩ := Option.ite_none_right_eq_some.mp advanced
      cases peers with
      | nil =>
        cases advanced
        exact ⟨rfl, .inl (.refl n)⟩
      | cons peer peers =>
        cases advanced
        exact ⟨rfl, .inl (quiet_dispatch _ _ _ _)⟩
  | multicast intent payload peers current =>
    obtain ⟨-, advanced⟩ := Option.ite_none_right_eq_some.mp advanced
    cases peers with
    | nil => cases advanced
    | cons peer peers =>
      cases advanced
      exact ⟨rfl, .inl
        (n.quiet_sendMessage ⟨ambient, signature, peer, intent, payload, false, none⟩ isOpen)⟩

/-- A session transmits only in its own name. -/
theorem resumeSession_spec (n : RelayTPCPNode M) (ambient : Ambient) (signature : Bytes) (ok : Bool)
    (session : AdnsSession) :
    Quiet n (n.resumeSession ambient signature ok session).1 ∨
      ∃ ws data, (n.resumeSession ambient signature ok session).1 = n.transmit ws none data := by
  cases session with
  | starting =>
    -- Only the greeting and an answer are written to the connection of the relay.
    rw [resumeSession]
    split_ifs
    · exact .inl ⟨rfl, rfl, id⟩
    · exact .inl (.refl n)
  | connecting =>
    rw [resumeSession]
    split_ifs
    · dsimp only
      split
      · exact .inl ⟨rfl, rfl, id⟩
      · exact .inl ⟨rfl, rfl, id⟩
    · exact .inl n.quiet_lose
  | greeting ws e =>
    rw [resumeSession]
    split_ifs
    · exact .inr ⟨ws, e.toJson, rfl⟩
    · exact .inl (.refl n)
  | answering ws response =>
    rw [resumeSession]
    split_ifs
    · exact .inr ⟨ws, response, rfl⟩
    · exact .inl (.refl n)
  | listening | sleeping | done => exact .inl (.refl n)

theorem Extends.setSession {p : RelayTPCPNode M × AdnsSession} (h : Extends n p.1) (i : ℕ) :
    Extends n (setSession i p) := ⟨h.calls, h.frames, h.synced⟩

/-- A frame that a session transmits in its own name. -/
theorem extends_transmit (n : RelayTPCPNode M) (ws : ℕ) (data : Json) :
    Extends n (n.transmit ws none data) where
  calls := List.prefix_rfl
  frames frame member := by
    rcases List.mem_append.mp member with old | new
    · exact .inl old
    · obtain rfl := List.mem_singleton.mp new
      exact .inr fun k call => nomatch call
  synced := id

/-- A resumed call transmits in its own name, and not if it is `send_message`. -/
theorem extends_advance {i : ℕ} {ambient : Ambient} {signature : Bytes} {isOpen ok : Bool}
    {call call' : OutboundCall} (found : n.calls[i]? = some call)
    (advanced : n.advance i ambient signature isOpen ok call = some (m, call')) :
    Extends n { m with calls := m.calls.set i call' } := by
  obtain ⟨kind, quiet | ⟨broadcast, ws, data, rfl⟩⟩ := advance_spec advanced
  · have calls : (m.calls.set i call').map OutboundCall.isMessage =
        n.calls.map OutboundCall.isMessage := by
      rw [quiet.calls, map_set_isMessage found kind]
    exact ⟨calls ▸ List.prefix_rfl, fun frame member => .inl (quiet.frames ▸ member), quiet.synced⟩
  · have calls : (n.calls.set i call').map OutboundCall.isMessage =
        n.calls.map OutboundCall.isMessage := map_set_isMessage found kind
    refine ⟨calls ▸ List.prefix_rfl, fun frame member => ?_, id⟩
    rcases List.mem_append.mp member with old | new
    · exact .inl old
    · obtain rfl := List.mem_singleton.mp new
      right
      rintro k sender
      obtain rfl : i = k := Option.some.inj sender
      have here : (n.calls.map OutboundCall.isMessage)[i]? = some call.isMessage := by
        rw [List.getElem?_map, found]
        rfl
      rw [← broadcast, ← here, ← calls]
      rfl

theorem extends_next {event : RelayNodeEvent M} (step : n.next event = some m) : Extends n m := by
  cases event with
  | startListening =>
    cases step
    exact ⟨List.prefix_rfl, fun _ => .inl, id⟩
  | session i ambient signature ok =>
    obtain ⟨session, -, rfl⟩ := Option.map_eq_some_iff.mp step
    refine Extends.setSession ?_ i
    rcases n.resumeSession_spec ambient signature ok session with quiet | ⟨ws, data, sent⟩
    · exact quiet.extends
    · rw [sent]
      exact n.extends_transmit ws data
  | message i c data isOpen =>
    rw [next] at step
    split at step
    · cases step
      exact (n.quiet_receive _ c data isOpen).extends.setSession i
    · cases step
  | closed i regular =>
    rw [next] at step
    split at step
    · cases step
      refine Extends.setSession ?_ i
      split_ifs
      · exact (Quiet.refl n).extends
      · exact n.quiet_lose.extends
    · cases step
  | sendMessage request isOpen =>
    cases step
    exact (n.quiet_sendMessage request isOpen).extends_call _
  | sendMulticast tag intent payload =>
    cases step
    exact (Quiet.refl n).extends_call _
  | sendBroadcast ambient signature intent payload =>
    cases step
    exact (Quiet.refl n).extends_call _
  | advance i ambient signature isOpen ok =>
    obtain ⟨⟨r, call'⟩, advanced, rfl⟩ := Option.map_eq_some_iff.mp step
    obtain ⟨call, found, advanced⟩ := Option.bind_eq_some_iff.mp advanced
    exact extends_advance found advanced
  | resume i ok =>
    obtain ⟨delivery, resumed, rfl⟩ := Option.map_eq_some_iff.mp step
    obtain ⟨task, -, rfl⟩ := Option.map_eq_some_iff.mp resumed
    refine ⟨List.prefix_rfl, fun _ => .inl, fun synced => ?_⟩
    exact (n.delivery.unchanged_resume ok task).2.1.trans synced
  | registerPeer identity address =>
    cases step
    exact (n.quiet_withNode _).extends
  | removePeer agentId =>
    cases step
    exact ⟨List.prefix_rfl, fun _ => .inl, fun _ => rfl⟩
  | registerHandler intent handler =>
    cases step
    exact (n.quiet_withNode _).extends
  | stopListening =>
    cases step
    exact ⟨List.prefix_rfl, fun _ => .inl, fun _ => rfl⟩
  | clearConnections =>
    cases step
    exact ⟨List.prefix_rfl, fun _ => .inl, id⟩

/-! ### `send_message` never uses the relay -/

/-- A frame that carries a call's name is one of a call other than `send_message`. -/
def Attributed (n : RelayTPCPNode M) : Prop :=
  ∀ frame ∈ n.frames, ∀ k, frame.call = some k → (n.calls.map OutboundCall.isMessage)[k]? =
    some false

theorem getElem?_of_extends {α : Type*} {before after : List α} (grows : before <+: after) {k : ℕ}
    {a : α} (found : before[k]? = some a) : after[k]? = some a := by
  obtain ⟨rest, rfl⟩ := grows
  rw [List.getElem?_append_left (List.getElem?_eq_some_iff.mp found).1, found]

theorem attributed_next {event : RelayNodeEvent M} (attributed : n.Attributed)
    (step : n.next event = some m) : m.Attributed := by
  intro frame member k sender
  rcases (extends_next step).frames frame member with old | new
  · exact getElem?_of_extends (extends_next step).calls (attributed frame old k sender)
  · exact new k sender

/-- What holds of a node in every state it reaches. -/
theorem reachable {n₀ : RelayTPCPNode M} {identity : AgentIdentity} {adnsUrl : Option String}
    {autoAck : Bool} {aclPolicy : Option ACLPolicy} {memory : M} {events : List (RelayNodeEvent M)}
    (start : init identity adnsUrl autoAck aclPolicy memory = .ok n₀)
    (run : Run (OfPartial next) n₀ events n) : n.Attributed ∧ n.Synced := by
  have preserved : ∀ (n : RelayTPCPNode M) (event : RelayNodeEvent M) (m : RelayTPCPNode M),
      n.Attributed ∧ n.Synced → n.next event = some m → m.Attributed ∧ m.Synced := by
    intro n event m ⟨attributed, synced⟩ step
    exact ⟨attributed_next attributed step, (extends_next step).synced synced⟩
  have initially : n₀.Attributed ∧ n₀.Synced := by
    rw [init] at start
    split_ifs at start
    cases start
    exact ⟨fun _ member => absurd member List.not_mem_nil, rfl⟩
  have reached := run.invariant preserved initially
  exact reached

/-- A run keeps the kinds of the calls. -/
theorem calls_of_run {events : List (RelayNodeEvent M)} (run : Run (OfPartial next) n events m) :
    n.calls.map OutboundCall.isMessage <+: m.calls.map OutboundCall.isMessage := by
  have preserved : ∀ (k : RelayTPCPNode M) (event : RelayNodeEvent M) (m : RelayTPCPNode M),
      n.calls.map OutboundCall.isMessage <+: k.calls.map OutboundCall.isMessage →
      k.next event = some m →
      n.calls.map OutboundCall.isMessage <+: m.calls.map OutboundCall.isMessage :=
    fun _ _ _ grows step => grows.trans (extends_next step).calls
  have reached := run.invariant preserved List.prefix_rfl
  exact reached

/-- A message first connects to an address exactly if it can be signed, the
address is registered for its target and no connection from the pool is open. -/
theorem address?_sendMessage (request : Request) (isOpen : Bool) (address : String) :
    (n.sendMessage request isOpen).1.delivery.tasks[n.delivery.tasks.length]?.bind Task.address? =
        some address ↔
      request.chunkInfo = none ∧
        (∃ peer, n.adns.node.peerRegistry.get? request.target = some (peer, address)) ∧
          (isOpen = true → n.delivery.peerConnections.get? request.target = none) := by
  unfold sendMessage
  -- A send that raises, as one with chunk info does, dispatches nothing.
  cases chunk : request.chunkInfo with
  | some info => simp [Session.sendMessage_of_chunkInfo]
  | none =>
    cases sent : n.adns.node.sendMessage request.ambient (fun _ => request.signature) request.target
        request.intent request.payload request.requireAck none with
    | error error => cases sent
    | ok result =>
      obtain ⟨node, e⟩ := result
      have registry : node.peerRegistry = n.adns.node.peerRegistry := by
        rw [(Session.sendMessage_ok sent).2]
        split_ifs <;> rfl
      obtain ⟨connections, task, started, -⟩ :=
        (n.withNode node).delivery.dispatchEnvelope_spec request.target e isOpen
      have last : ((n.withNode node).dispatch request.target e isOpen).delivery.tasks[
          n.delivery.tasks.length]? = some task := by
        simp only [dispatch, started]
        exact List.getElem?_concat_length
      have connects := (n.withNode node).delivery.address?_dispatchEnvelope request.target e isOpen
        address
      rw [started] at connects
      have registered : (addresses node).get? request.target = some address ↔
          ∃ peer, n.adns.node.peerRegistry.get? request.target = some (peer, address) := by
        rw [addresses, registry, Dict.get?_map, Option.map_eq_some_iff]
        simp
      simp only [last, Option.bind_some, true_and]
      exact connects.trans (and_congr_left' registered)

/-- Whether or not the relay connection is open and registered, `send_message`
never transmits a frame on it, at once or later, and it opens a direct connection
to every registered peer to which none from the pool is open. -/
theorem send_message_bypasses_relay {identity : AgentIdentity} {adnsUrl : Option String}
    {autoAck : Bool} {aclPolicy : Option ACLPolicy} {memory : M} {n₀ r : RelayTPCPNode M}
    {earlier later : List (RelayNodeEvent M)} {request : Request} {isOpen : Bool}
    (start : init identity adnsUrl autoAck aclPolicy memory = .ok n₀)
    (before : Run (OfPartial next) n₀ earlier n)
    (sent : n.next (.sendMessage request isOpen) = some m)
    (after : Run (OfPartial next) m later r) :
    (∀ frame ∈ r.frames, frame.call ≠ some n.calls.length) ∧
      ∀ address, m.delivery.tasks[n.delivery.tasks.length]?.bind Task.address? = some address ↔
        request.chunkInfo = none ∧
          (∃ peer, n.adns.node.peerRegistry.get? request.target = some (peer, address)) ∧
            (isOpen = true → n.delivery.peerConnections.get? request.target = none) := by
  obtain rfl := Option.some.inj ((n.next_sendMessage request isOpen).symm.trans sent)
  constructor
  -- No later event turns the call of a message into one that transmits.
  · intro frame member sender
    have whole : Run (OfPartial next) n₀ (earlier ++ ([.sendMessage request isOpen] ++ later)) r :=
      before.append ((Run.single sent).append after)
    have other := (reachable start whole).1 frame member _ sender
    have message : (((n.sendMessage request isOpen).1.calls ++
        [OutboundCall.message (n.sendMessage request isOpen).2]).map
          OutboundCall.isMessage)[n.calls.length]? = some true := by
      rw [(n.quiet_sendMessage request isOpen).calls, List.map_append,
        List.getElem?_append_right (by simp)]
      simp [OutboundCall.isMessage]
    rw [getElem?_of_extends (calls_of_run after) message] at other
    cases other
  · exact n.address?_sendMessage request isOpen

/-! ### A registered client -/

/-- A client of a relay. -/
def client : RelayTPCPNode Unit where
  adns := ⟨.init ⟨⟨4, 0, 0, 0, 0⟩, "CrewAI", [], "", []⟩ false none (), false⟩
  adnsUrl := "ws://relay.tpcp.io:9000"
  hasUrl := by decide
  adnsWs := none
  opened := 0
  sessions := []
  delivery := Delivery.init 500
  calls := []
  frames := []

theorem client_init : init ⟨⟨4, 0, 0, 0, 0⟩, "CrewAI", [], "", []⟩ (some "ws://relay.tpcp.io:9000")
    false none () = .ok client := rfl

/-- What the client consults. -/
def clientAmbient : Ambient := .strict UUID.nil ⟨2026, 3, 1, 12, 0, 0, 0, DateTime.valid_noon⟩

/-- The same, for a message from the relay. -/
def clientContext : Context Unit where
  ambient := clientAmbient
  verify := fun _ _ _ => false
  sign := fun _ => []
  backend := ⟨fun m _ => (m, none), fun m _ _ => (m, none), fun _ m _ => (m, none)⟩
  now := 0
  host := none

/-- A peer whose address the client knows. -/
def neighbour : AgentIdentity := ⟨⟨5, 0, 0, 0, 0⟩, "LangGraph", [], "", []⟩

/-- The client starts, connects to the relay, answers its challenge and is
registered; then the application registers a peer. -/
def joining : List (RelayNodeEvent Unit) :=
  [.startListening, .session 0 clientAmbient [] true, .session 0 clientAmbient [] true,
    .session 0 clientAmbient [] true,
    .message 0 clientContext (some (.obj [("type", .str "ADNS_CHALLENGE"),
      ("nonce", .str "c0ffee")])) false,
    .session 0 clientAmbient [] true,
    .message 0 clientContext (some (.obj [("type", .str "ADNS_REGISTERED")])) false,
    .registerPeer neighbour "ws://10.0.0.7:8000"]

theorem joining_follows : (runPartial next client joining).isSome = true := by rfl

/-- The client after that. -/
def joined : RelayTPCPNode Unit := (runPartial next client joining).get joining_follows

theorem joined_ready : joined.Ready :=
  ⟨rfl, .listening 0, List.mem_cons_self, rfl, rfl⟩

/-- A message to the peer. -/
def letter : Request where
  ambient := clientAmbient
  signature := []
  target := neighbour.agentId
  intent := .taskRequest
  payload := .text ⟨"hello", "en"⟩
  requireAck := false
  chunkInfo := none

/-- The client after it sent the message. -/
def posted : RelayTPCPNode Unit :=
  { (joined.sendMessage letter false).1 with
    calls := (joined.sendMessage letter false).1.calls ++
      [.message (joined.sendMessage letter false).2] }

theorem send_message_bypasses_relay_letter :
    joined.Ready ∧ (∀ frame ∈ posted.frames, frame.call ≠ some 0) ∧
      posted.delivery.tasks[0]?.bind Task.address? = some "ws://10.0.0.7:8000" := by
  have bypasses := send_message_bypasses_relay client_init (run_get joining_follows)
    (joined.next_sendMessage letter false) .nil
  refine ⟨joined_ready, bypasses.1, (bypasses.2 _).mpr ⟨rfl, ⟨neighbour, rfl⟩, fun isOpen => ?_⟩⟩
  cases isOpen

/-- The peer gets the message over a direct connection, and the relay only what
the client sent to register. -/
theorem relay_bypassed :
    ∃ n m r : RelayTPCPNode Unit, Run (OfPartial next) client joining n ∧ n.Ready ∧
      n.next (.sendMessage letter false) = some m ∧
      Run (OfPartial next) m [.resume 0 true, .resume 0 true] r ∧
      r.delivery.connections = 1 ∧ r.delivery.sent.map Prod.fst = [letter.target] ∧
      r.frames.map RelayFrame.call = [none, none] := by
  have follows : (runPartial next posted [.resume 0 true, .resume 0 true]).isSome = true := by rfl
  exact ⟨joined, posted, _, run_get joining_follows, joined_ready,
    joined.next_sendMessage letter false, run_get follows, rfl, rfl, rfl⟩

end RelayTPCPNode

end AgentTelepathy
