import AgentTelepathy.Core.Session

/-!
# Pinned keys

A node checks a message against the key that is registered for its sender. The
registry is written by handshakes, which anyone can sign under the key they
announce. While no accepted handshake announces an agent under another key, the
agent's key stays, and every message that reaches a handler in the agent's name
was signed by the holder of that key. A handshake under another key replaces it.
-/

namespace AgentTelepathy

open Foundation Foundation.Transition

namespace Session

variable {M : Type} {s t : Session M} {agentId : UUID} {key : String} {event : SessionEvent M}

/-- The application leaves the key of an agent alone. -/
def Undisturbed (agentId : UUID) (key : String) : SessionEvent M → Prop
  | .registerPeer identity _ => identity.agentId = agentId → identity.publicKey = key
  | .removePeer removed => removed ≠ agentId
  | _ => True

/-- No accepted handshake announces an agent under another key. -/
def Unchallenged (agentId : UUID) (key : String) (s : Session M) : SessionEvent M → Prop
  | .inbound frame => ∀ e identity, s.Accepted frame e .handleHandshake →
      TPCPNode.Registers s.log.verify frame.ambient e identity →
        identity.agentId = agentId → identity.publicKey = key
  | _ => True

/-- The key of an agent is registered, and what reached a handler in the agent's
name after the first `earlier` handler calls was signed by its holder. -/
structure Pinned (agentId : UUID) (key : String) (earlier : ℕ) (s : Session M) : Prop where
  registered : s.registeredKey? agentId = some key
  counted : earlier ≤ s.handled.length
  authentic : ∀ i ∈ s.handled.drop earlier, i.envelope.header.senderId = agentId →
    i.envelope.header.intent ≠ .handshake →
      s.log.Signed key (canonical i.envelope.payload.modelDump)

/-! ### Steps -/

/-- An undisturbed key stays through every event but a frame. -/
theorem registeredKey?_of_next (step : s.next event = some t)
    (notInbound : ∀ frame, event ≠ .inbound frame) (undisturbed : Undisturbed agentId key event)
    (registered : s.registeredKey? agentId = some key) : t.registeredKey? agentId = some key := by
  -- Only the host itself registers and removes peers without a frame.
  cases event with
  | inbound frame => exact absurd rfl (notInbound frame)
  | send request =>
    cases step
    rw [registeredKey?, peerRegistry_send]
    exact registered
  | timeOut i | cancel i =>
    obtain ⟨call, -, rfl⟩ := Option.map_eq_some_iff.mp step
    exact registered
  | stopListening =>
    cases step
    obtain ⟨futures, same⟩ := stopListening_eq s.node
    rw [registeredKey?, same]
    exact registered
  | registerPeer identity address =>
    cases step
    rw [registeredKey?, TPCPNode.registerPeer, Dict.get?_set]
    split_ifs with same
    · exact congrArg some (undisturbed same.symm)
    · exact registered
  | removePeer removed =>
    cases step
    rw [registeredKey?, TPCPNode.removePeer, Dict.get?_erase_of_ne (Ne.symm undisturbed)]
    exact registered
  | sign | registerHandler | setPolicy =>
    cases step
    exact registered

/-- A frame leaves an unchallenged key in place. -/
theorem registeredKey?_receive {frame : Frame M}
    (unchallenged : Unchallenged agentId key s (.inbound frame))
    (registered : s.registeredKey? agentId = some key) :
    (s.receive frame).registeredKey? agentId = some key := by
  by_cases accepted : ∃ e handler, s.Accepted frame e handler
  · obtain ⟨e, handler, accepted⟩ := accepted
    rw [receive_of_accepted accepted, registeredKey?]
    rcases (s.node.remember e frame.now).get?_runHandler (s.context frame) e handler agentId with
      same | ⟨rfl, identity, registers, ofAgent, entry⟩
    · rw [same]
      exact registered
    · obtain ⟨address, entry⟩ := entry
      rw [entry]
      exact congrArg some (unchallenged e identity accepted registers ofAgent)
  · obtain ⟨m, cached, same⟩ :=
      receive_of_not_accepted fun e handler h => accepted ⟨e, handler, h⟩
    obtain ⟨seen, rfl⟩ := cached.eq
    rw [same]
    exact registered

/-- A message that reaches a handler in the agent's name verified under the
registered key, so its holder had signed it. -/
theorem signed_of_accepted {frame : Frame M} {e : TPCPEnvelope} {handler : Handler}
    (accepted : s.Accepted frame e handler) (registered : s.registeredKey? agentId = some key)
    (sender : e.header.senderId = agentId) (message : e.header.intent ≠ .handshake) :
    s.log.Signed key (canonical e.payload.modelDump) := by
  obtain ⟨peer, address, signature, entry, -, verified⟩ :=
    TPCPNode.authenticate_ok accepted.admitted.2.2 message
  have same : peer.publicKey = key := by
    rw [registeredKey?, ← sender, entry] at registered
    exact Option.some.inj registered
  rw [same] at verified
  exact SignatureLog.signed_of_verifySignature verified

theorem Pinned.receive {earlier : ℕ} {frame : Frame M} (pinned : Pinned agentId key earlier s)
    (unchallenged : Unchallenged agentId key s (.inbound frame)) :
    Pinned agentId key earlier (s.receive frame) := by
  have registered := registeredKey?_receive unchallenged pinned.registered
  by_cases accepted : ∃ e handler, s.Accepted frame e handler
  · obtain ⟨e, handler, accepted⟩ := accepted
    have signed := signed_of_accepted accepted pinned.registered
    rw [receive_of_accepted accepted] at registered ⊢
    refine ⟨registered, ?_, ?_⟩
    · exact pinned.counted.trans (List.length_append ▸ Nat.le_add_right _ _)
    · intro i late sender message
      rw [List.drop_append_of_le_length pinned.counted] at late
      rcases List.mem_append.mp late with before | now
      · exact pinned.authentic i before sender message
      · -- The call that this frame makes.
        obtain rfl : i = ⟨handler, e, frame.now⟩ := List.mem_singleton.mp now
        exact signed sender message
  · obtain ⟨m, -, same⟩ :=
      receive_of_not_accepted fun e handler h => accepted ⟨e, handler, h⟩
    rw [same] at registered ⊢
    exact ⟨registered, pinned.counted, pinned.authentic⟩

theorem Pinned.next {earlier : ℕ} (pinned : Pinned agentId key earlier s)
    (step : s.next event = some t) (undisturbed : Undisturbed agentId key event)
    (unchallenged : Unchallenged agentId key s event) : Pinned agentId key earlier t := by
  by_cases inbound : ∃ frame, event = .inbound frame
  · obtain ⟨frame, rfl⟩ := inbound
    obtain ⟨-, step⟩ := Option.ite_none_right_eq_some.mp step
    cases step
    exact pinned.receive unchallenged
  · have notInbound : ∀ frame, event ≠ .inbound frame := fun frame same => inbound ⟨frame, same⟩
    have calls := (unchanged_of_next step notInbound).handled
    refine ⟨registeredKey?_of_next step notInbound undisturbed pinned.registered,
      calls ▸ pinned.counted, ?_⟩
    intro i late sender message
    rw [calls] at late
    exact (pinned.authentic i late sender message).mono (log_subset_of_next step)

/-! ### Runs -/

/-- In every run in which no accepted handshake announces the agent under another
key, the agent's key stays registered, and every message that reached a handler
in the agent's name was signed by the holder of the key. -/
theorem key_pinned {events : List (SessionEvent M)}
    (run : Run (Guarded (OfPartial Session.next) fun s event =>
      Undisturbed agentId key event ∧ Unchallenged agentId key s event) s events t)
    (registered : s.registeredKey? agentId = some key) : Pinned agentId key s.handled.length t := by
  refine run.invariant ?_ ⟨registered, le_rfl, fun i late => by simp at late⟩
  intro u event v pinned step
  exact pinned.next step.1 step.2.1 step.2.2

/-! ### Replacing a key -/

/-- An accepted handshake registers the key it announces, whatever was registered. -/
theorem registeredKey?_of_handshake {frame : Frame M} {e : TPCPEnvelope} {identity : AgentIdentity}
    (accepted : s.Accepted frame e .handleHandshake)
    (registers : TPCPNode.Registers s.log.verify frame.ambient e identity) :
    (s.receive frame).registeredKey? identity.agentId = some identity.publicKey := by
  obtain ⟨announced, signature, signed, verified⟩ := registers
  rw [receive_of_accepted accepted]
  simp only [registeredKey?, TPCPNode.runHandler, TPCPNode.handleHandshake, context, announced,
    signed, verified, if_true, TPCPNode.registerPeer, Dict.get?_set_self, Option.map_some]

/-- A frame that reaches another handler challenges no key. -/
theorem unchallenged_of_accepted {frame : Frame M} {e : TPCPEnvelope} {handler : Handler}
    (accepted : s.Accepted frame e handler) (other : handler ≠ .handleHandshake) :
    Unchallenged agentId key s (.inbound frame) := by
  intro e' identity handshake
  have same : e = e' := Option.some.inj (accepted.parsed.symm.trans handshake.parsed)
  have routed := handshake.routed
  rw [← same, accepted.routed] at routed
  exact absurd (Option.some.inj routed) other

/-- An agent. -/
def peer : AgentIdentity :=
  ⟨⟨1, 0, 0, 0, 0⟩, "LangGraph", [], Base64.encode (List.replicate 32 1), []⟩

/-- The same agent, announced under the key of someone else. -/
def impostor : AgentIdentity := { peer with publicKey := Base64.encode (List.replicate 32 2) }

/-- A node that has registered the agent and handles task requests. -/
def host : Session Unit :=
  init (((TPCPNode.init ⟨⟨2, 0, 0, 0, 0⟩, "CrewAI", [], Base64.encode (List.replicate 32 3), []⟩
    false none ()).registerPeer peer "ws://10.0.0.1").registerHandler .taskRequest (.custom 0))
    (List.replicate 32 3)

/-- A text message in the name of the agent, with a signature of one byte. -/
def message (id : Fin (2 ^ 32)) (intent : Intent) (content : String) (signature : UInt8) :
    TPCPEnvelope where
  header := ⟨⟨id, 0, 0, 0, 0⟩, ⟨2026, 3, 1, 12, 0, 0, 0, DateTime.valid_noon⟩, peer.agentId,
    UUID.nil, intent, 30, protocolVersion⟩
  payload := .text ⟨content, "en"⟩
  signature := some (Base64.encode [signature])
  ackInfo := none
  chunkInfo := none

/-- A frame with the text of an envelope. -/
def deliver (now : ℚ) (e : TPCPEnvelope) : Frame Unit where
  ambient := Ambient.strict UUID.nil ⟨2026, 3, 1, 12, 0, 0, 0, DateTime.valid_noon⟩
  backend := ⟨fun m _ => (m, none), fun m _ _ => (m, none), fun _ m _ => (m, none)⟩
  now := now
  host := some "10.0.0.9"
  data := some e.toJson

/-- A task request that the agent signed. -/
def genuine : List (SessionEvent Unit) :=
  let task := message 10 .taskRequest "summarize" 1
  [.sign ⟨List.replicate 32 1, canonical task.payload.modelDump, [1]⟩, .inbound (deliver 1 task)]

/-- The agent is announced under another key. -/
def announcement : TPCPEnvelope :=
  message 10 .handshake (TPCPEnvelope.emitCompact impostor.toJson) 1

/-- A task request in the agent's name. -/
def order : TPCPEnvelope := message 11 .taskRequest "wire the funds" 2

/-- Both are signed under the announced key and sent. -/
def forged : List (SessionEvent Unit) :=
  [.sign ⟨List.replicate 32 2, canonical announcement.payload.modelDump, [1]⟩,
    .inbound (deliver 1 announcement),
    .sign ⟨List.replicate 32 2, canonical order.payload.modelDump, [2]⟩, .inbound (deliver 2 order)]

theorem host_registeredKey? : host.registeredKey? peer.agentId = some peer.publicKey := by
  decide

theorem announcedIdentity_announcement (ambient : Ambient) :
    TPCPNode.announcedIdentity ambient announcement = some impostor := by
  have reads : JsonText.loads (TPCPEnvelope.emitCompact impostor.toJson) =
      some impostor.toJson := by
    rw [TPCPEnvelope.emitCompact, JsonText.loads_ofList]
    decide +kernel
  simp only [TPCPNode.announcedIdentity, announcement, message, reads, Option.bind_some,
    AgentIdentity.modelValidate_toJson]
  rfl

theorem signature?_message (id : Fin (2 ^ 32)) (intent : Intent) (content : String) (b : UInt8) :
    (message id intent content b).signature? = some (Base64.encode [b]) :=
  TPCPNode.signature?_eq_some rfl (Base64.encode_ne_empty (List.cons_ne_nil b []))

theorem allFinite_message (id : Fin (2 ^ 32)) (intent : Intent) (content : String) (b : UInt8) :
    allFinite (message id intent content b).payload.modelDump = true := rfl

theorem parsed_deliver (now : ℚ) (id : Fin (2 ^ 32)) (intent : Intent) (content : String)
    (b : UInt8) :
    TPCPNode.parsed (deliver now (message id intent content b)).ambient
      (deliver now (message id intent content b)).data = some (message id intent content b) := by
  rw [deliver, TPCPNode.parsed, Option.bind_some,
    TPCPEnvelope.modelValidate_toJson (allFinite_message id intent content b)]
  rfl

/-- A message signed by its registered sender reaches the handler of its intent. -/
theorem accepted_message {s : Session Unit} {now : ℚ} {id : Fin (2 ^ 32)} {intent : Intent}
    {content : String} {b : UInt8} {publicBytes : Bytes} {handler : Handler}
    (registered : s.registeredKey? peer.agentId = some (Base64.encode publicBytes))
    (length : publicBytes.length = 32)
    (logged : ⟨publicBytes, canonical (message id intent content b).payload.modelDump, [b]⟩ ∈ s.log)
    (fresh : s.node.seenMessages.get? ⟨id, 0, 0, 0, 0⟩ = none) (open_ : s.node.aclPolicy = none)
    (routed : s.node.handlers.get? intent = some handler) :
    s.Accepted (deliver now (message id intent content b))
      (message id intent content b) handler := by
  refine accepted_of_toJson rfl (allFinite_message id intent content b) ?_ fresh ?_ ?_ routed
  · exact Nat.zero_lt_succ 29
  · exact authenticate_of_logged registered length (signature?_message id intent content b) logged
  · rw [TPCPNode.isAllowed, open_]

theorem key_pinned_genuine :
    ∃ t, Run (OfPartial next) host genuine t ∧ t.handled.length = 1 ∧
      Pinned peer.agentId peer.publicKey 0 t := by
  let task := message 10 .taskRequest "summarize" 1
  let signed := host.sign ⟨List.replicate 32 1, canonical task.payload.modelDump, [1]⟩
  have accepted : signed.Accepted (deliver 1 task) task (.custom 0) :=
    accepted_message host_registeredKey? (by decide) (List.mem_singleton.mpr rfl) rfl rfl rfl
  have run : Run (Guarded (OfPartial next) fun s event =>
      Undisturbed peer.agentId peer.publicKey event ∧
        Unchallenged peer.agentId peer.publicKey s event) host genuine
      (signed.receive (deliver 1 task)) := by
    refine .snoc (.single ⟨rfl, trivial, trivial⟩) ⟨next_inbound zero_le_one, trivial, ?_⟩
    exact unchallenged_of_accepted accepted (by simp)
  refine ⟨_, run.of_guarded, ?_, key_pinned run host_registeredKey?⟩
  rw [receive_of_accepted accepted]
  rfl

/-- The node once the announcement is signed. -/
def announced : Session Unit :=
  host.sign ⟨List.replicate 32 2, canonical announcement.payload.modelDump, [1]⟩

theorem announcement_accepted :
    announced.Accepted (deliver 1 announcement) announcement .handleHandshake := by
  refine accepted_of_toJson rfl (allFinite_message _ _ _ _) ?_ rfl rfl rfl rfl
  exact Nat.zero_lt_succ 29

theorem announcement_replaces :
    (announced.receive (deliver 1 announcement)).registeredKey? peer.agentId =
      some impostor.publicKey := by
  refine registeredKey?_of_handshake announcement_accepted
    ⟨announcedIdentity_announcement _, _, signature?_message _ _ _ _, ?_⟩
  rw [TPCPNode.verifies, AgentIdentityManager.verifySignature, impostor,
    AgentIdentityManager.verifyBytes_encode (by decide)]
  exact decide_eq_true (List.mem_singleton.mpr rfl)

/-- The node once the announcement was received and the order is signed. -/
def ordered : Session Unit :=
  (announced.receive (deliver 1 announcement)).sign
    ⟨List.replicate 32 2, canonical order.payload.modelDump, [2]⟩

theorem ordered_registeredKey? : ordered.registeredKey? peer.agentId = some impostor.publicKey := by
  rw [ordered, registeredKey?_sign, announcement_replaces]

theorem order_accepted : ordered.Accepted (deliver 2 order) order (.custom 0) := by
  obtain ⟨registry, handshake⟩ := TPCPNode.handleHandshake_eq
    (announced.node.remember announcement (deliver 1 announcement).now)
    (announced.context (deliver 1 announcement)) announcement
  have node : ordered.node =
      { announced.node.remember announcement (deliver 1 announcement).now with
        peerRegistry := registry } := by
    rw [ordered, node_sign, receive_of_accepted announcement_accepted,
      TPCPNode.runHandler_handleHandshake]
    dsimp only
    rw [handshake]
  refine accepted_message ordered_registeredKey? (by decide) ?_ ?_ ?_ ?_
  · rw [ordered, log_sign]
    exact List.mem_append_right _ (List.mem_singleton.mpr rfl)
  · rw [node]
    rfl
  · rw [node]
    rfl
  · rw [node]
    rfl

/-- The announcement replaces the key of the agent, and a request that the agent
did not sign reaches a handler in its name. The agent's key signs nothing at all. -/
theorem key_replaced :
    ∃ t, Run (OfPartial next) host forged t ∧ host.registeredKey? peer.agentId =
      some peer.publicKey ∧
      (∀ signing ∈ t.log, Base64.decode false peer.publicKey ≠ some signing.publicKey) ∧
      t.registeredKey? peer.agentId ≠ some peer.publicKey ∧
      ∃ i ∈ t.handled, i.envelope.header.senderId = peer.agentId ∧
        i.envelope.header.intent = .taskRequest ∧
        ¬ t.log.Signed peer.publicKey (canonical i.envelope.payload.modelDump) := by
  have received := receive_of_accepted announcement_accepted
  have obeyed := receive_of_accepted order_accepted
  have run : Run (OfPartial next) host forged (ordered.receive (deliver 2 order)) := by
    have clock : ordered.clock ≤ 2 := by
      rw [ordered, received]
      exact one_le_two
    exact .snoc (.snoc (.snoc (.single rfl) (next_inbound zero_le_one)) rfl) (next_inbound clock)
  -- Nothing was signed under the key of the peer.
  have foreign : ∀ signing ∈ (ordered.receive (deliver 2 order)).log,
      Base64.decode false peer.publicKey ≠ some signing.publicKey := by
    rw [obeyed, ordered, log_sign, received, announced, log_sign]
    have others : Base64.decode false peer.publicKey ≠ some (List.replicate 32 2) := by decide
    intro signing logged
    simp only [host, init, List.nil_append, List.cons_append, List.mem_cons, List.not_mem_nil,
      or_false] at logged
    rcases logged with rfl | rfl <;> exact others
  -- The order was accepted under the key that the impostor announced.
  have replaced : (ordered.receive (deliver 2 order)).registeredKey? peer.agentId =
      some impostor.publicKey := by
    rw [obeyed, registeredKey?, TPCPNode.peerRegistry_runHandler_of_ne (by simp),
      TPCPNode.peerRegistry_remember, ← registeredKey?, ordered_registeredKey?]
  have other : some impostor.publicKey ≠ some peer.publicKey := by decide
  refine ⟨_, run, host_registeredKey?, foreign, replaced ▸ other, ⟨.custom 0, order, 2⟩, ?_, rfl,
    rfl, ?_⟩
  · rw [obeyed]
    exact List.mem_append_right _ (List.mem_singleton.mpr rfl)
  · rintro ⟨publicBytes, signature, decoded, logged⟩
    exact foreign _ logged decoded

end Session

end AgentTelepathy
