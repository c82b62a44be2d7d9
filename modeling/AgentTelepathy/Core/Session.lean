import AgentTelepathy.Core.Inbound
import AgentTelepathy.Foundation.Transition
import AgentTelepathy.Schemas.Wire

/-!
# Sessions of a node

A node together with everything that can happen to it: frames of any content,
signatures made by the holder of any key, its own calls of `send_message` and
the ways they end, and what the application does to the node's tables. Only
logged signatures verify. The envelopes that were received, the handler calls
and the calls that wait for an acknowledgement are recorded.
-/

namespace AgentTelepathy

open Foundation Foundation.Transition

/-- A handler call. -/
structure Invocation where
  handler : Handler
  envelope : TPCPEnvelope
  time : ℚ
deriving DecidableEq

/-- A call of `send_message` that waits for an acknowledgement. -/
structure Call where
  target : UUID
  messageId : UUID
deriving DecidableEq

/-- A frame, with what the node consults while it processes it. -/
structure Frame (M : Type) where
  ambient : Ambient
  backend : Backend M
  now : ℚ
  host : Option String
  data : Option Json

/-- A call of `send_message`, with the signature the node's key makes for it. -/
structure Request where
  ambient : Ambient
  signature : Bytes
  target : UUID
  intent : Intent
  payload : Payload
  requireAck : Bool
  chunkInfo : Option ChunkInfo

/-- What can happen to a node. -/
inductive SessionEvent (M : Type)
  /-- The holder of some key signs some data. -/
  | sign (signing : Signing)
  | inbound (frame : Frame M)
  | send (request : Request)
  /-- The wait of the `i`-th call times out. -/
  | timeOut (i : ℕ)
  /-- The task of the `i`-th call is cancelled. -/
  | cancel (i : ℕ)
  | stopListening
  | registerPeer (identity : AgentIdentity) (address : String)
  | removePeer (agentId : UUID)
  | registerHandler (intent : Intent) (handler : Handler)
  | setPolicy (policy : Option ACLPolicy)

/-- A node with its public key, the signatures made so far, the time of the last
frame, and what was received, handled and called. The `i`-th call waits for the
`i`-th future. -/
structure Session (M : Type) where
  node : TPCPNode M
  key : Bytes
  log : SignatureLog
  clock : ℚ
  received : List TPCPEnvelope
  handled : List Invocation
  calls : List Call

namespace Session

variable {M : Type} {s t : Session M} {event : SessionEvent M} {frame : Frame M} {e : TPCPEnvelope}

/-- A node to which nothing has happened. -/
def init (node : TPCPNode M) (key : Bytes) : Session M := ⟨node, key, [], 0, [], [], []⟩

/-- What the node consults while it processes a frame. As no reply is ever
signed, the signing function does not matter. -/
def context (s : Session M) (frame : Frame M) : Context M :=
  ⟨frame.ambient, s.log.verify, fun _ => [], frame.backend, frame.now, frame.host⟩

/-- The handler call of a frame, if there is one. -/
def invocation? (frame : Frame M) : Outcome → Option Invocation
  | .handled handler _ =>
    (TPCPNode.parsed frame.ambient frame.data).map fun e => ⟨handler, e, frame.now⟩
  | _ => none

/-- Log a signature. -/
def sign (s : Session M) (signing : Signing) : Session M := { s with log := s.log ++ [signing] }

/-- Process a frame. -/
def receive (s : Session M) (frame : Frame M) : Session M :=
  let (node, outcome) := s.node.processInbound (s.context frame) frame.data
  { s with
    node := node
    clock := frame.now
    received := s.received ++ (TPCPNode.parsed frame.ambient frame.data).toList
    handled := s.handled ++ (invocation? frame outcome).toList }

/-- Send a message; the signature goes to the log. A call that raises has no effect. -/
def send (s : Session M) (request : Request) : Session M :=
  match s.node.sendMessage request.ambient (fun _ => request.signature) request.target
      request.intent request.payload request.requireAck request.chunkInfo with
  | .error _ => s
  | .ok (node, e) =>
    { s with
      node := node
      log := s.log ++ [⟨s.key, canonical e.payload.modelDump, request.signature⟩]
      calls :=
        if request.requireAck then s.calls ++ [⟨request.target, e.header.messageId⟩]
        else s.calls }

/-- The state after an event, if the event is possible: the clock does not go
back, and only a call that was made can end. -/
def next (s : Session M) : SessionEvent M → Option (Session M)
  | .sign signing => some (s.sign signing)
  | .inbound frame => if s.clock ≤ frame.now then some (s.receive frame) else none
  | .send request => some (s.send request)
  | .timeOut i => s.calls[i]?.map fun call => { s with node := s.node.timeOut i call.messageId }
  | .cancel i => s.calls[i]?.map fun _ => { s with node := s.node.complete i .cancelled }
  | .stopListening => some { s with node := s.node.stopListening }
  | .registerPeer identity address =>
    some { s with node := s.node.registerPeer identity address }
  | .removePeer agentId => some { s with node := s.node.removePeer agentId }
  | .registerHandler intent handler =>
    some { s with node := s.node.registerHandler intent handler }
  | .setPolicy policy => some { s with node := { s.node with aclPolicy := policy } }

/-- A frame reaches a handler. -/
def Accepted (s : Session M) (frame : Frame M) (e : TPCPEnvelope) (handler : Handler) : Prop :=
  s.node.Accepted (s.context frame) frame.data e handler

/-- The key registered for an agent. -/
def registeredKey? (s : Session M) (agentId : UUID) : Option String :=
  (s.node.peerRegistry.get? agentId).map fun entry => entry.1.publicKey

@[simp] theorem node_sign (s : Session M) (signing : Signing) :
    (s.sign signing).node = s.node := rfl

@[simp] theorem log_sign (s : Session M) (signing : Signing) :
    (s.sign signing).log = s.log ++ [signing] := rfl

@[simp] theorem handled_sign (s : Session M) (signing : Signing) :
    (s.sign signing).handled = s.handled := rfl

@[simp] theorem registeredKey?_sign (s : Session M) (signing : Signing) (agentId : UUID) :
    (s.sign signing).registeredKey? agentId = s.registeredKey? agentId := rfl

/-! ### When a frame is accepted -/

/-- A message with a logged signature under the registered key is authentic. -/
theorem authenticate_of_logged {publicBytes signature : Bytes}
    (registered : s.registeredKey? e.header.senderId = some (Base64.encode publicBytes))
    (length : publicBytes.length = 32)
    (signed : e.signature? = some (Base64.encode signature))
    (logged : ⟨publicBytes, canonical e.payload.modelDump, signature⟩ ∈ s.log) :
    s.node.authenticate s.log.verify e = .ok () := by
  obtain ⟨⟨peer, address⟩, entry, same⟩ := Option.map_eq_some_iff.mp registered
  have verified : TPCPNode.verifies s.log.verify peer.publicKey (Base64.encode signature) e =
      true := by
    rw [show peer.publicKey = Base64.encode publicBytes from same, TPCPNode.verifies,
      AgentIdentityManager.verifySignature, AgentIdentityManager.verifyBytes_encode length]
    exact decide_eq_true logged
  exact TPCPNode.authenticate_of_verifies entry signed verified

/-- A frame with the text of an envelope that passes every check is accepted. -/
theorem accepted_of_toJson {handler : Handler} (data : frame.data = some e.toJson)
    (finite : allFinite e.payload.modelDump = true) (live : 0 < e.header.ttl)
    (fresh : s.node.seenMessages.get? e.header.messageId = none)
    (authentic : s.node.authenticate s.log.verify e = .ok ())
    (allowed : s.node.isAllowed e = true)
    (routed : s.node.handlers.get? e.header.intent = some handler) :
    s.Accepted frame e handler := by
  refine ⟨?_, ⟨live, ?_, authentic⟩, allowed, routed⟩
  · rw [data, TPCPNode.parsed, Option.bind_some, TPCPEnvelope.modelValidate_toJson finite]
    rfl
  · -- Expiry only forgets, so an identifier that is not in the cache stays out of it.
    rw [Dict.contains_eq_false_iff, Option.eq_none_iff_forall_ne_some]
    intro time seen
    have before := Dict.get?_of_get?_dropWhile seen
    rw [fresh] at before
    cases before

/-! ### What a frame does -/

theorem next_inbound (later : s.clock ≤ frame.now) :
    s.next (.inbound frame) = some (s.receive frame) :=
  if_pos later

/-- An accepted frame runs its handler and is recorded. -/
theorem receive_of_accepted {handler : Handler} (accepted : s.Accepted frame e handler) :
    s.receive frame =
      { s with
        node := ((s.node.remember e frame.now).runHandler (s.context frame) e handler).1
        clock := frame.now
        received := s.received ++ [e]
        handled := s.handled ++ [⟨handler, e, frame.now⟩] } := by
  have parsed : TPCPNode.parsed frame.ambient frame.data = some e := accepted.parsed
  rw [receive, TPCPNode.processInbound_of_accepted accepted]
  simp only [invocation?, parsed]
  rfl

theorem invocation?_eq_none {outcome : Outcome}
    (unhandled : ∀ handler raised, outcome ≠ .handled handler raised) :
    invocation? frame outcome = none := by
  cases outcome with
  | handled handler raised => exact absurd rfl (unhandled handler raised)
  | _ => rfl

/-- Any other frame leaves all but the replay cache as it was. -/
theorem receive_of_not_accepted (refused : ∀ e handler, ¬ s.Accepted frame e handler) :
    ∃ m, TPCPNode.Cached s.node frame.now m ∧ s.receive frame =
      { s with
        node := m
        clock := frame.now
        received := s.received ++ (TPCPNode.parsed frame.ambient frame.data).toList } := by
  obtain ⟨m, outcome, cached, result, unhandled⟩ := TPCPNode.processInbound_of_not_accepted refused
  refine ⟨m, cached, ?_⟩
  rw [receive, result]
  simp [invocation?_eq_none unhandled]

/-! ### What stays -/

theorem stopListening_eq (n : TPCPNode M) :
    ∃ futures, n.stopListening = { n with futures := futures, pendingAcks := Dict.empty } := by
  have folded (entries : List (UUID × ℕ)) (m : TPCPNode M) :
      ∃ futures, entries.foldl (fun n entry => n.complete entry.2 .cancelled) m =
        { m with futures := futures } := by
    induction entries generalizing m with
    | nil => exact ⟨m.futures, rfl⟩
    | cons entry entries ih =>
      obtain ⟨futures, same⟩ := ih (m.complete entry.2 .cancelled)
      exact ⟨futures, same⟩
  obtain ⟨futures, same⟩ := folded n.pendingAcks.items n
  exact ⟨futures, by rw [TPCPNode.stopListening, same]⟩

/-- Signing chunk metadata raises. -/
theorem sendMessage_of_chunkInfo (n : TPCPNode M) (ambient : Ambient) (sign : Bytes → Bytes)
    (target : UUID) (intent : Intent) (payload : Payload) (requireAck : Bool) (info : ChunkInfo) :
    n.sendMessage ambient sign target intent payload requireAck (some info) =
      .error uuidNotSerializable := by
  have refused : AgentIdentityManager.signPayload sign (TPCPNode.signedPayload payload info) =
      .error uuidNotSerializable :=
    AgentIdentityManager.signPayload_dict_of_error info.toJson_modelDump _
  rw [TPCPNode.sendMessage, refused]
  rfl

/-- A message that is sent has no chunk metadata, and its signature is over the
payload alone. -/
theorem sendMessage_ok {n n' : TPCPNode M} {ambient : Ambient} {sign : Bytes → Bytes}
    {target : UUID} {intent : Intent} {payload : Payload} {requireAck : Bool}
    {chunkInfo : Option ChunkInfo}
    (sent : n.sendMessage ambient sign target intent payload requireAck chunkInfo = .ok (n', e)) :
    e = ⟨n.createHeader ambient target intent, payload,
        some (AgentIdentityManager.signBytes sign (canonical payload.modelDump)), none, none⟩ ∧
      n' = (if requireAck then
        { n with
          futures := n.futures ++ [.pending]
          pendingAcks := n.pendingAcks.set ambient.uuid4 n.futures.length }
        else n).dispatchEnvelope target e := by
  cases chunkInfo with
  | none =>
    cases sent
    exact ⟨rfl, rfl⟩
  | some info =>
    rw [sendMessage_of_chunkInfo] at sent
    cases sent

/-- `send_message` adds to the futures, the envelopes handed out, the log and the calls. -/
theorem send_eq (s : Session M) (request : Request) :
    ∃ futures pendingAcks dispatched signings calls, s.send request =
      { s with
        node :=
          { s.node with futures := futures, pendingAcks := pendingAcks, dispatched := dispatched }
        log := s.log ++ signings
        calls := calls } := by
  unfold send
  split
  · exact ⟨s.node.futures, s.node.pendingAcks, s.node.dispatched, [],
      s.calls, by rw [List.append_nil]⟩
  · rename_i node e sent
    obtain ⟨-, rfl⟩ := sendMessage_ok sent
    -- Only a call that asks for an acknowledgement gets a future.
    split_ifs
    · exact ⟨_, _, _, _, _, rfl⟩
    · exact ⟨s.node.futures, s.node.pendingAcks, _, _, _, rfl⟩

theorem peerRegistry_send (s : Session M) (request : Request) :
    (s.send request).node.peerRegistry = s.node.peerRegistry := by
  obtain ⟨_, _, _, _, _, same⟩ := s.send_eq request
  rw [same]

/-- Signatures are never forgotten. -/
theorem log_subset_of_next (step : s.next event = some t) : s.log ⊆ t.log := by
  cases event with
  | sign signing =>
    cases step
    exact List.subset_append_left _ _
  | inbound frame =>
    obtain ⟨-, step⟩ := Option.ite_none_right_eq_some.mp step
    cases step
    exact List.Subset.refl _
  | send request =>
    cases step
    obtain ⟨_, _, _, _, _, same⟩ := s.send_eq request
    rw [same]
    exact List.subset_append_left _ _
  | timeOut i | cancel i =>
    obtain ⟨call, -, rfl⟩ := Option.map_eq_some_iff.mp step
    exact List.Subset.refl _
  | stopListening | registerPeer | removePeer | registerHandler | setPolicy =>
    cases step
    exact List.Subset.refl _

/-- What only frames change. -/
structure Unchanged (s t : Session M) : Prop where
  seenMessages : t.node.seenMessages = s.node.seenMessages
  clock : t.clock = s.clock
  received : t.received = s.received
  handled : t.handled = s.handled

theorem unchanged_send (s : Session M) (request : Request) : Unchanged s (s.send request) := by
  obtain ⟨_, _, _, _, _, same⟩ := s.send_eq request
  rw [same]
  exact ⟨rfl, rfl, rfl, rfl⟩

/-- The replay cache, the clock and the records of frames are for frames only. -/
theorem unchanged_of_next (step : s.next event = some t)
    (notInbound : ∀ frame, event ≠ .inbound frame) : Unchanged s t := by
  cases event with
  | inbound frame => exact absurd rfl (notInbound frame)
  | send request =>
    cases step
    exact unchanged_send s request
  | timeOut i | cancel i =>
    obtain ⟨call, -, rfl⟩ := Option.map_eq_some_iff.mp step
    exact ⟨rfl, rfl, rfl, rfl⟩
  | stopListening =>
    cases step
    obtain ⟨futures, same⟩ := stopListening_eq s.node
    have kept : s.node.stopListening.seenMessages = s.node.seenMessages := by rw [same]
    exact ⟨kept, rfl, rfl, rfl⟩
  | sign | registerPeer | removePeer | registerHandler | setPolicy =>
    cases step
    exact ⟨rfl, rfl, rfl, rfl⟩

end Session

end AgentTelepathy
