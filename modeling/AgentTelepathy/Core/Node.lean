import Mathlib.Algebra.Order.Ring.Rat
import AgentTelepathy.Foundation.JsonRead
import AgentTelepathy.Schemas.Validate
import AgentTelepathy.Security.Acl
import AgentTelepathy.Security.Crypto

/-!
# The node

How a `TPCPNode` treats an inbound frame and sends a message. A frame passes
parsing, the hop count, the replay cache, the signature check and the access
policy, in this order, and then reaches the handler of its intent. Everything
from the frame to the end of a built-in handler happens without an await, so it
is one step here; what the application's handlers, the shared memory and the
vector bank do with an envelope is given by a backend.
-/

namespace AgentTelepathy

open Foundation

/-- The future of a call that waits for an acknowledgement. -/
inductive Future
  | pending
  | result (envelope : TPCPEnvelope)
  | exception (message : String)
  | cancelled
deriving DecidableEq

/-- `fut.done()`. -/
def Future.done : Future → Bool
  | .pending => false
  | _ => true

/-- What can be registered for an intent: a method of the node, or a function of
the application. -/
inductive Handler
  | handleHandshake
  | handleStateSync
  | handleVectorSync
  | handleAck
  | handleNack
  | custom (name : ℕ)
deriving DecidableEq

/-- What handlers do outside the node's own tables, and the text of the exception
if they raise. -/
structure Backend (M : Type) where
  /-- `shared_memory.merge(state)`. -/
  merge : M → Dict String Json → M × Option String
  /-- `vector_bank.store_vector(...)` for the payload of a message. -/
  storeVector : M → UUID → VectorEmbeddingPayload → M × Option String
  /-- A handler of the application. -/
  custom : ℕ → M → TPCPEnvelope → M × Option String

/-- A node. The identity and address of each peer are in the registry; a pending
acknowledgement names its future by the order of creation; `dispatched` records
the envelopes handed to `_dispatch_envelope`. -/
structure TPCPNode (M : Type) where
  identity : AgentIdentity
  autoAck : Bool
  aclPolicy : Option ACLPolicy
  peerRegistry : Dict UUID (AgentIdentity × String)
  seenMessages : Dict UUID ℚ
  pendingAcks : Dict UUID ℕ
  futures : List Future
  handlers : Dict Intent Handler
  memory : M
  dispatched : List (UUID × TPCPEnvelope)

/-- What a node uses while it handles one event: defaults and coercions of
validation, signatures, the backend, the monotonic clock and the remote host. -/
structure Context (M : Type) where
  ambient : Ambient
  verify : Verifier
  sign : Bytes → Bytes
  backend : Backend M
  now : ℚ
  host : Option String

/-- What became of an inbound frame. -/
inductive Outcome
  | undecodable
  | invalid (error : ValidationError)
  | expired
  | duplicate
  | unregistered
  | unsigned
  | invalidSignature
  | denied
  | noHandler
  | handled (handler : Handler) (raised : Option String)
deriving DecidableEq

/-- The handlers a node starts with. -/
def defaultHandlers : Dict Intent Handler :=
  Dict.ofItems [(.handshake, .handleHandshake), (.stateSync, .handleStateSync),
    (.stateSyncVector, .handleVectorSync), (.ack, .handleAck), (.nack, .handleNack)]

/-- The signature of an envelope, unless it is missing or empty. -/
def TPCPEnvelope.signature? (e : TPCPEnvelope) : Option String := e.signature.filter (· ≠ "")

namespace TPCPNode

variable {M : Type}

/-- A new node. -/
def init (identity : AgentIdentity) (autoAck : Bool) (aclPolicy : Option ACLPolicy) (memory : M) :
    TPCPNode M where
  identity := identity
  autoAck := autoAck
  aclPolicy := aclPolicy
  peerRegistry := Dict.empty
  seenMessages := Dict.empty
  pendingAcks := Dict.empty
  futures := []
  handlers := defaultHandlers
  memory := memory
  dispatched := []

/-- `register_peer(identity, address)`. -/
def registerPeer (n : TPCPNode M) (identity : AgentIdentity) (address : String) : TPCPNode M :=
  { n with peerRegistry := n.peerRegistry.set identity.agentId (identity, address) }

/-- `remove_peer(agent_id)`. -/
def removePeer (n : TPCPNode M) (agentId : UUID) : TPCPNode M :=
  { n with peerRegistry := n.peerRegistry.erase agentId }

/-- `register_handler(intent, handler)`. -/
def registerHandler (n : TPCPNode M) (intent : Intent) (handler : Handler) : TPCPNode M :=
  { n with handlers := n.handlers.set intent handler }

/-- Hand an envelope to `_dispatch_envelope`. -/
def dispatchEnvelope (n : TPCPNode M) (target : UUID) (e : TPCPEnvelope) : TPCPNode M :=
  { n with dispatched := n.dispatched ++ [(target, e)] }

/-- `_create_header(receiver_id, intent)`, with a new message id and the current time. -/
def createHeader (n : TPCPNode M) (ambient : Ambient) (receiverId : UUID) (intent : Intent) :
    MessageHeader where
  messageId := ambient.uuid4
  timestamp := ambient.now
  senderId := n.identity.agentId
  receiverId := receiverId
  intent := intent
  ttl := 30
  protocolVersion := protocolVersion

/-! ### Handlers -/

/-- The identity that a handshake announces in the text of its payload. -/
def announcedIdentity (ambient : Ambient) (e : TPCPEnvelope) : Option AgentIdentity :=
  match e.payload with
  | .text p =>
    (JsonText.loads p.content).bind fun data =>
      (AgentIdentity.modelValidate ambient data).toOption
  | _ => none

/-- `verify_signature(public_key, envelope.signature, payload_dict)`. -/
def verifies (verify : Verifier) (publicKey signature : String) (e : TPCPEnvelope) : Bool :=
  AgentIdentityManager.verifySignature verify publicKey signature e.payload.modelDump

/-- `_handle_handshake`: the announced key verifies the handshake. -/
def handleHandshake (n : TPCPNode M) (c : Context M) (e : TPCPEnvelope) : TPCPNode M :=
  match announcedIdentity c.ambient e, e.signature? with
  | some identity, some signature =>
    if verifies c.verify identity.publicKey signature e then
      n.registerPeer identity ("ws://" ++ c.host.getD "unknown")
    else n
  | _, _ => n

/-- Complete a future, if it is not done. -/
def complete (n : TPCPNode M) (fut : ℕ) (value : Future) : TPCPNode M :=
  { n with
    futures :=
      if (n.futures[fut]?.map Future.done).getD true then n.futures else n.futures.set fut value }

/-- The common part of `_handle_ack` and `_handle_nack`: take the future of the
acknowledged message out of the pending ones and complete it. -/
def settle (n : TPCPNode M) (e : TPCPEnvelope) (value : UUID → Future) : TPCPNode M :=
  match e.ackInfo with
  | none => n
  | some info =>
    match n.pendingAcks.get? info.ackedMessageId with
    | none => n
    | some fut =>
      { n with pendingAcks := n.pendingAcks.erase info.ackedMessageId }.complete fut
        (value info.ackedMessageId)

/-- `_handle_ack`. -/
def handleAck (n : TPCPNode M) (e : TPCPEnvelope) : TPCPNode M := n.settle e fun _ => .result e

/-- `_handle_nack`. -/
def handleNack (n : TPCPNode M) (e : TPCPEnvelope) : TPCPNode M :=
  n.settle e fun id => .exception ("NACK received for message " ++ id.toText)

/-- Call a handler; the text of its exception if it raises. -/
def runHandler (n : TPCPNode M) (c : Context M) (e : TPCPEnvelope) :
    Handler → TPCPNode M × Option String
  | .handleHandshake => (n.handleHandshake c e, none)
  | .handleStateSync =>
    match e.payload with
    | .crdtSync p =>
      if p.crdtType = "LWW-Map" then
        let (memory, raised) := c.backend.merge n.memory p.state
        ({ n with memory }, raised)
      else (n, none)
    | _ => (n, none)
  | .handleVectorSync =>
    match e.payload with
    | .vectorEmbedding p =>
      let (memory, raised) := c.backend.storeVector n.memory e.header.messageId p
      ({ n with memory }, raised)
    | _ => (n, none)
  | .handleAck => (n.handleAck e, none)
  | .handleNack => (n.handleNack e, none)
  | .custom name =>
    let (memory, raised) := c.backend.custom name n.memory e
    ({ n with memory }, raised)

/-! ### Replies -/

/-- The common part of `_create_ack_envelope` and `_create_nack_envelope`. -/
def createReply (n : TPCPNode M) (c : Context M) (original : TPCPEnvelope) (intent : Intent)
    (content : String) : Except TypeError TPCPEnvelope :=
  let payload : Payload := .text ⟨content, "en"⟩
  let ackInfo : AckInfo := ⟨original.header.messageId⟩
  let signable : PyValue := .dict
    (payload.modelDumpItems.map (fun item => (item.1, PyValue.json item.2)) ++
      [("ack_info", ackInfo.modelDump)])
  (AgentIdentityManager.signPayload c.sign signable).map fun signature =>
    { header := n.createHeader c.ambient original.header.senderId intent
      payload := payload
      signature := some signature
      ackInfo := some ackInfo
      chunkInfo := none }

/-- `_create_ack_envelope(original_envelope)`. -/
def createAckEnvelope (n : TPCPNode M) (c : Context M) (original : TPCPEnvelope) :
    Except TypeError TPCPEnvelope := n.createReply c original .ack "OK"

/-- `_create_nack_envelope(original_envelope, reason)`. -/
def createNackEnvelope (n : TPCPNode M) (c : Context M) (original : TPCPEnvelope)
    (reason : String) : Except TypeError TPCPEnvelope := n.createReply c original .nack reason

/-- Send a NACK; an exception ends the processing of the frame. -/
def refuse (n : TPCPNode M) (c : Context M) (e : TPCPEnvelope) (reason : String) : TPCPNode M :=
  match n.createNackEnvelope c e reason with
  | .ok nack => n.dispatchEnvelope e.header.senderId nack
  | .error _ => n

/-- What follows a handler: an ACK if it returned, and a NACK if it or the
creation of the ACK raised. -/
def acknowledge (n : TPCPNode M) (c : Context M) (e : TPCPEnvelope) (raised : Option String) :
    TPCPNode M :=
  if n.autoAck && e.header.intent ∉ [Intent.ack, Intent.nack] then
    match raised with
    | none =>
      match n.createAckEnvelope c e with
      | .ok ack => n.dispatchEnvelope e.header.senderId ack
      | .error error => n.refuse c e error.message
    | some reason => n.refuse c e reason
  else n

/-! ### Inbound frames -/

/-- Forget messages that were seen 300 seconds ago or earlier, oldest first. -/
def expireSeen (n : TPCPNode M) (now : ℚ) : TPCPNode M :=
  { n with seenMessages := n.seenMessages.dropWhile fun entry => entry.2 ≤ now - 300 }

/-- Remember a message. -/
def recordSeen (n : TPCPNode M) (e : TPCPEnvelope) (now : ℚ) : TPCPNode M :=
  { n with seenMessages := n.seenMessages.set e.header.messageId now }

/-- The security middleware: all intents but handshakes need a registered sender
and a signature by the registered key. -/
def authenticate (n : TPCPNode M) (verify : Verifier) (e : TPCPEnvelope) : Except Outcome Unit :=
  if e.header.intent ≠ .handshake then
    match n.peerRegistry.get? e.header.senderId with
    | none => .error .unregistered
    | some (peer, _) =>
      match e.signature? with
      | none => .error .unsigned
      | some signature =>
        if verifies verify peer.publicKey signature e then .ok ()
        else .error .invalidSignature
  else .ok ()

/-- The access policy of the node; without one everything is allowed. -/
def isAllowed (n : TPCPNode M) (e : TPCPEnvelope) : Bool :=
  match n.aclPolicy with
  | none => true
  | some policy => policy.isAllowed e.header.senderId e.header.intent

/-- Access policy and handler. -/
def route (n : TPCPNode M) (c : Context M) (e : TPCPEnvelope) : TPCPNode M × Outcome :=
  if n.isAllowed e then
    match n.handlers.get? e.header.intent with
    | none => (n, .noHandler)
    | some handler =>
      let (n, raised) := n.runHandler c e handler
      (n.acknowledge c e raised, .handled handler raised)
  else (if n.autoAck then n.refuse c e "ACL denied" else n, .denied)

/-- A validated envelope from the hop count on. -/
def processEnvelope (n : TPCPNode M) (c : Context M) (e : TPCPEnvelope) : TPCPNode M × Outcome :=
  if e.header.ttl ≤ 0 then (n, .expired)
  else
    let n := n.expireSeen c.now
    if n.seenMessages.contains e.header.messageId then (n, .duplicate)
    else
      let n := n.recordSeen e c.now
      match n.authenticate c.verify e with
      | .error outcome => (n, outcome)
      | .ok () => n.route c e

/-- `_process_inbound`, from what `json.loads` returned; nothing if it raised. -/
def processInbound (n : TPCPNode M) (c : Context M) (data : Option Json) : TPCPNode M × Outcome :=
  match data with
  | none => (n, .undecodable)
  | some data =>
    match TPCPEnvelope.modelValidate c.ambient data with
    | .error error => (n, .invalid error)
    | .ok e => n.processEnvelope c e

/-! ### Sending -/

/-- What `send_message` signs: the payload, with the chunk metadata if there is any. -/
def signedPayload (payload : Payload) (chunkInfo : Option ChunkInfo) : PyValue :=
  match chunkInfo with
  | none => .json payload.modelDump
  | some info => .dict
    (payload.modelDumpItems.map (fun item => (item.1, PyValue.json item.2)) ++
      [("chunk_info", info.modelDump)])

/-- `send_message` up to the wait for an acknowledgement. -/
def sendMessage (n : TPCPNode M) (ambient : Ambient) (sign : Bytes → Bytes) (target : UUID)
    (intent : Intent) (payload : Payload) (requireAck : Bool) (chunkInfo : Option ChunkInfo) :
    Except TypeError (TPCPNode M × TPCPEnvelope) :=
  (AgentIdentityManager.signPayload sign (signedPayload payload chunkInfo)).map fun signature =>
    let e : TPCPEnvelope :=
      { header := n.createHeader ambient target intent
        payload := payload
        signature := some signature
        ackInfo := none
        chunkInfo := chunkInfo }
    let waiting :=
      if requireAck then
        { n with
          futures := n.futures ++ [.pending]
          pendingAcks := n.pendingAcks.set e.header.messageId n.futures.length }
      else n
    (waiting.dispatchEnvelope target e, e)

/-- What `send_message` does when its wait times out: the future is cancelled and
the message is no longer pending. -/
def timeOut (n : TPCPNode M) (fut : ℕ) (messageId : UUID) : TPCPNode M :=
  { n.complete fut .cancelled with pendingAcks := n.pendingAcks.erase messageId }

/-- The part of `stop_listening` that is about pending acknowledgements. -/
def stopListening (n : TPCPNode M) : TPCPNode M :=
  { n.pendingAcks.items.foldl (fun n entry => n.complete entry.2 .cancelled) n with
    pendingAcks := Dict.empty }

end TPCPNode

end AgentTelepathy
