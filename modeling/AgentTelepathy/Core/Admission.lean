import AgentTelepathy.Core.Pinning

/-!
# Access control and registration

The access policy is asked about the sender in the header of a frame. A handshake
registers the identity in its payload, and nothing compares the two. So an agent
whose handshakes the policy denies is registered by a handshake that is sent under
the id of another agent, and only by such a handshake.
-/

namespace AgentTelepathy

open Foundation Foundation.Transition

namespace Session

variable {M : Type} {s t : Session M} {agentId : UUID} {event : SessionEvent M}

/-- The policy of the node denies the handshakes of an agent. -/
def Denies (agentId : UUID) (s : Session M) : Prop :=
  ∃ policy, s.node.aclPolicy = some policy ∧ policy.isAllowed agentId .handshake = false

/-- A policy that is set denies the handshakes of an agent, too. -/
def KeepsDenying (agentId : UUID) (_ : Session M) (event : SessionEvent M) : Prop :=
  ∀ policy, event = .setPolicy policy →
    ∃ p, policy = some p ∧ p.isAllowed agentId .handshake = false

/-- No inbound handshake brings the agent into the registry. -/
def Excludes (agentId : UUID) (s : Session M) (event : SessionEvent M) : Prop :=
  ∀ frame e, event = .inbound frame → TPCPNode.parsed frame.ambient frame.data = some e →
    e.header.intent = .handshake → s.node.peerRegistry.get? agentId = none →
      (s.receive frame).node.peerRegistry.get? agentId = none

/-- A handshake that is accepted and announces the agent, while it is not registered,
has the agent's id in its header. -/
def Candid (agentId : UUID) (s : Session M) (event : SessionEvent M) : Prop :=
  ∀ frame e identity, event = .inbound frame → e.header.intent = .handshake →
    s.node.peerRegistry.get? agentId = none → s.Accepted frame e .handleHandshake →
      TPCPNode.Registers s.log.verify frame.ambient e identity → identity.agentId = agentId →
        e.header.senderId = agentId

/-! ### The policy stays -/

theorem aclPolicy_receive (s : Session M) (frame : Frame M) :
    (s.receive frame).node.aclPolicy = s.node.aclPolicy := by
  by_cases accepted : ∃ e handler, s.Accepted frame e handler
  · obtain ⟨e, handler, accepted⟩ := accepted
    obtain ⟨registry, pending, futures, memory, ran⟩ := TPCPNode.runHandler_eq
      (s.node.remember e frame.now) (s.context frame) e handler
    rw [receive_of_accepted accepted, ran]
    rfl
  · obtain ⟨m, cached, same⟩ :=
      receive_of_not_accepted fun e handler h => accepted ⟨e, handler, h⟩
    obtain ⟨seen, rfl⟩ := cached.eq
    rw [same]

theorem aclPolicy_send (s : Session M) (request : Request) :
    (s.send request).node.aclPolicy = s.node.aclPolicy := by
  obtain ⟨_, _, _, _, _, same⟩ := s.send_eq request
  rw [same]

/-- Only `setPolicy` changes the policy. -/
theorem Denies.next (denies : Denies agentId s) (step : s.next event = some t)
    (keeps : KeepsDenying agentId s event) : Denies agentId t := by
  obtain ⟨policy, set, denied⟩ := denies
  -- Only a new policy could stop denying the agent.
  cases event with
  | setPolicy policy' =>
    cases step
    obtain ⟨p, rfl, denied'⟩ := keeps policy' rfl
    exact ⟨p, rfl, denied'⟩
  | inbound frame =>
    obtain ⟨-, step⟩ := Option.ite_none_right_eq_some.mp step
    cases step
    exact ⟨policy, (aclPolicy_receive s frame).trans set, denied⟩
  | send request =>
    cases step
    exact ⟨policy, (aclPolicy_send s request).trans set, denied⟩
  | timeOut i | cancel i =>
    obtain ⟨call, -, rfl⟩ := Option.map_eq_some_iff.mp step
    exact ⟨policy, set, denied⟩
  | stopListening =>
    cases step
    obtain ⟨futures, same⟩ := stopListening_eq s.node
    exact ⟨policy, by rw [same]; exact set, denied⟩
  | sign | registerPeer | removePeer | registerHandler =>
    cases step
    exact ⟨policy, set, denied⟩

/-! ### Who is registered -/

/-- A handshake in the name of a denied agent is not accepted. -/
theorem Denies.not_accepted (denies : Denies agentId s) {frame : Frame M} {e : TPCPEnvelope}
    {handler : Handler} (handshake : e.header.intent = .handshake)
    (sender : e.header.senderId = agentId) : ¬ s.Accepted frame e handler := by
  intro accepted
  obtain ⟨policy, set, denied⟩ := denies
  have allowed := accepted.allowed
  rw [TPCPNode.isAllowed, set, sender, handshake] at allowed
  exact absurd (denied.symm.trans allowed) Bool.false_ne_true

/-- While an agent is denied, handshakes leave it out of the registry exactly when
those that announce it are candid. -/
theorem Denies.excludes_iff (denies : Denies agentId s) :
    Excludes agentId s event ↔ Candid agentId s event := by
  constructor
  · intro excludes frame e identity inbound handshake absent accepted registers announced
    have out := excludes frame e inbound accepted.parsed handshake absent
    have entered := registeredKey?_of_handshake accepted registers
    rw [announced, registeredKey?, out] at entered
    cases entered
  · intro candid frame e inbound parsed handshake absent
    -- Only a frame that is accepted can register an agent.
    by_cases accepted : ∃ handler, s.Accepted frame e handler
    · obtain ⟨handler, accepted⟩ := accepted
      rw [receive_of_accepted accepted]
      rcases (s.node.remember e frame.now).get?_runHandler (s.context frame) e handler agentId with
        same | ⟨rfl, identity, registers, announced, -⟩
      · exact same.trans absent
      · -- The announced agent would be the sender, and the policy denies it.
        have sender := candid frame e identity inbound handshake absent accepted registers announced
        exact absurd accepted (denies.not_accepted handshake sender)
    · have refused : ∀ e handler, ¬ s.Accepted frame e handler := by
        intro e' handler accepted'
        obtain rfl := Option.some.inj (parsed.symm.trans accepted'.parsed)
        exact accepted ⟨handler, accepted'⟩
      obtain ⟨m, cached, same⟩ := receive_of_not_accepted refused
      obtain ⟨seen, rfl⟩ := cached.eq
      rw [same]
      exact absent

/-- Under policies that deny the handshakes of an agent, no inbound handshake of a
run brings the agent into the registry exactly when every accepted handshake that
announces the agent is sent under its id. -/
theorem acl_covers_registration_iff {events : List (SessionEvent M)} (denies : Denies agentId s)
    (run : Run (Guarded (OfPartial Session.next) (KeepsDenying agentId)) s events t) :
    Run (Guarded (OfPartial Session.next) (Excludes agentId)) s events t ↔
      Run (Guarded (OfPartial Session.next) (Candid agentId)) s events t :=
  run.guarded_congr (fun _ _ _ denies step => denies.next step.1 step.2) denies
    fun _ _ _ denies _ => denies.excludes_iff

/-- An agent whose handshakes are denied. -/
def banned : AgentIdentity :=
  ⟨⟨7, 0, 0, 0, 0⟩, "LangGraph", [], Base64.encode (List.replicate 32 2), []⟩

/-- A node that denies the handshakes of one agent. -/
def guarded : Session Unit :=
  init (TPCPNode.init ⟨⟨2, 0, 0, 0, 0⟩, "CrewAI", [], Base64.encode (List.replicate 32 3), []⟩ false
    (some ((ACLPolicy.init true).deny banned.agentId .handshake)) ()) (List.replicate 32 3)

/-- A handshake that announces the denied agent under the id of another one. -/
def disguise : TPCPEnvelope := message 10 .handshake (TPCPEnvelope.emitCompact banned.toJson) 1

/-- The denied agent signs the handshake and sends it. -/
def disguised : List (SessionEvent Unit) :=
  [.sign ⟨List.replicate 32 2, canonical disguise.payload.modelDump, [1]⟩,
    .inbound (deliver 1 disguise)]

theorem guarded_denies : Denies banned.agentId guarded :=
  ⟨_, rfl, by decide⟩

/-- The denied agent announces itself under its own id. -/
def plea : TPCPEnvelope :=
  { disguise with header := { disguise.header with senderId := banned.agentId } }

/-- It signs the handshake and sends it. -/
def pleaded : List (SessionEvent Unit) :=
  [.sign ⟨List.replicate 32 2, canonical plea.payload.modelDump, [1]⟩,
    .inbound (deliver 1 plea)]

theorem parsed_plea :
    TPCPNode.parsed (deliver 1 plea).ambient (deliver 1 plea).data = some plea := by
  rw [deliver, TPCPNode.parsed, Option.bind_some, TPCPEnvelope.modelValidate_toJson rfl]
  rfl

/-- The handshakes of the denied agent are candid, and it stays out. -/
theorem acl_covers_registration_own :
    ∃ t, Run (Guarded (OfPartial Session.next) (Excludes banned.agentId)) guarded pleaded t ∧
      t.node.peerRegistry.get? banned.agentId = none := by
  let signed := guarded.sign ⟨List.replicate 32 2, canonical plea.payload.modelDump, [1]⟩
  have step : signed.next (.inbound (deliver 1 plea)) = some (signed.receive (deliver 1 plea)) :=
    next_inbound zero_le_one
  have run : Run (Guarded (OfPartial Session.next) (KeepsDenying banned.agentId)) guarded pleaded
      (signed.receive (deliver 1 plea)) :=
    .snoc (.single ⟨rfl, by simp [KeepsDenying]⟩) ⟨step, by simp [KeepsDenying]⟩
  have candid : Run (Guarded (OfPartial Session.next) (Candid banned.agentId)) guarded pleaded
      (signed.receive (deliver 1 plea)) := by
    refine .snoc (.single ⟨rfl, fun frame e identity inbound => ?_⟩) ⟨step, ?_⟩
    · intro frame e identity inbound _ _ accepted _ _
      cases inbound
      obtain rfl : plea = e := Option.some.inj (parsed_plea.symm.trans accepted.parsed)
      rfl
    · cases inbound
  have excludes := (acl_covers_registration_iff guarded_denies run).mpr candid
  obtain ⟨u, signs, -, out⟩ := Run.last
    (show Run _ guarded ([SessionEvent.sign _] ++ [SessionEvent.inbound (deliver 1 plea)]) _ from
      excludes)
  obtain rfl : u = signed := signs.of_guarded.unique (.single rfl)
  exact ⟨_, excludes, out (deliver 1 plea) plea rfl parsed_plea rfl rfl⟩

/-- The policy denies the agent's handshakes, and a handshake registers the agent. -/
theorem acl_evaded :
    ∃ t, Run (OfPartial Session.next) guarded disguised t ∧
      (∀ event ∈ disguised, ∀ policy, event ≠ .setPolicy policy) ∧
      Denies banned.agentId guarded ∧
      guarded.node.peerRegistry.get? banned.agentId = none ∧
      t.node.peerRegistry.get? banned.agentId ≠ none := by
  let signed := guarded.sign ⟨List.replicate 32 2, canonical disguise.payload.modelDump, [1]⟩
  have accepted : signed.Accepted (deliver 1 disguise) disguise .handleHandshake := by
    refine accepted_of_toJson rfl (allFinite_message _ _ _ _) ?_ rfl rfl ?_ rfl
    · exact Nat.zero_lt_succ 29
    · decide
  -- The handshake announces the banned agent under the id of another sender.
  have announced (ambient : Ambient) :
      TPCPNode.announcedIdentity ambient disguise = some banned := by
    have reads : JsonText.loads (TPCPEnvelope.emitCompact banned.toJson) = some banned.toJson := by
      rw [TPCPEnvelope.emitCompact, JsonText.loads_ofList]
      decide +kernel
    simp only [TPCPNode.announcedIdentity, disguise, message, reads, Option.bind_some,
      AgentIdentity.modelValidate_toJson]
    rfl
  have verified : TPCPNode.verifies signed.log.verify banned.publicKey (Base64.encode [1])
      disguise = true := by
    rw [TPCPNode.verifies, AgentIdentityManager.verifySignature, banned,
      AgentIdentityManager.verifyBytes_encode (by decide)]
    exact decide_eq_true (List.mem_singleton.mpr rfl)
  have registered := registeredKey?_of_handshake accepted
    ⟨announced _, _, signature?_message _ _ _ _, verified⟩
  refine ⟨_, .snoc (.single rfl) (next_inbound zero_le_one), by simp [disguised], guarded_denies,
    rfl, ?_⟩
  intro absent
  rw [registeredKey?, absent] at registered
  cases registered

end Session

end AgentTelepathy
