import AgentTelepathy.Core.Node

/-!
# What an inbound frame can do to a node

A frame that is accepted reaches one handler, and every other frame leaves a
node as it was except for the replay cache. No frame is ever answered: the
metadata of a reply holds an identifier, which the encoder refuses before there
is anything to sign. The peer registry changes only by a handshake whose
announced key verifies it, and pending acknowledgements only by an ACK or NACK.
-/

namespace AgentTelepathy

open Foundation

/-! ### Metadata cannot be signed -/

theorem PyValue.toMembers_map_append (members : List (String × Json))
    (rest : List (String × PyValue)) :
    toMembers (members.map (fun item => (item.1, PyValue.json item.2)) ++ rest) =
      (toMembers rest).map fun l => members ++ l := by
  induction members with
  | nil =>
    rw [List.map_nil, List.nil_append]
    cases toMembers rest <;> rfl
  | cons item members ih =>
    rw [List.map_cons, List.cons_append, toMembers, ih]
    cases toMembers rest <;> rfl

/-- A dictionary with a value that is not JSON at its end cannot be signed. -/
theorem AgentIdentityManager.signPayload_dict_of_error {sign : Bytes → Bytes} {key : String}
    {value : PyValue} {error : TypeError} (refused : value.toJson = .error error)
    (members : List (String × Json)) :
    signPayload sign (.dict
      (members.map (fun item => (item.1, PyValue.json item.2)) ++ [(key, value)])) =
        .error error := by
  have last : PyValue.toMembers [(key, value)] = .error error := by
    rw [PyValue.toMembers, refused]
    rfl
  rw [signPayload, PyValue.toJson, PyValue.toMembers_map_append, last]
  rfl

/-- The error of `json.dumps` on an identifier. -/
def uuidNotSerializable : TypeError := ⟨"Object of type UUID is not JSON serializable"⟩

theorem AckInfo.toJson_modelDump (info : AckInfo) :
    info.modelDump.toJson = .error uuidNotSerializable := rfl

theorem ChunkInfo.toJson_modelDump (info : ChunkInfo) :
    info.modelDump.toJson = .error uuidNotSerializable := rfl

/-- Parsing, the hop count, the replay cache or the signature check refused the frame. -/
def Outcome.isRejected : Outcome → Bool
  | .denied | .noHandler | .handled _ _ => false
  | _ => true

namespace TPCPNode

variable {M : Type} {n : TPCPNode M} {c : Context M} {data : Option Json} {e : TPCPEnvelope}

theorem createReply_eq (n : TPCPNode M) (c : Context M) (original : TPCPEnvelope)
    (intent : Intent) (content : String) :
    n.createReply c original intent content = .error uuidNotSerializable := by
  rw [createReply, AgentIdentityManager.signPayload_dict_of_error (AckInfo.toJson_modelDump _)]
  rfl

/-- No NACK is ever sent. -/
@[simp] theorem refuse_eq (n : TPCPNode M) (c : Context M) (e : TPCPEnvelope) (reason : String) :
    n.refuse c e reason = n := by
  rw [refuse, createNackEnvelope, createReply_eq]

/-- No ACK is ever sent either. -/
@[simp] theorem acknowledge_eq (n : TPCPNode M) (c : Context M) (e : TPCPEnvelope)
    (raised : Option String) : n.acknowledge c e raised = n := by
  unfold acknowledge
  split_ifs
  · cases raised with
    | none =>
      simp only [createAckEnvelope, createReply_eq]
      exact refuse_eq n c e _
    | some reason => exact refuse_eq n c e reason
  · rfl

/-! ### Accepted frames -/

/-- The envelope of a frame that parses and validates. -/
def parsed (ambient : Ambient) (data : Option Json) : Option TPCPEnvelope :=
  data.bind fun data => (TPCPEnvelope.modelValidate ambient data).toOption

/-- An envelope passes hop count, replay cache and signature check. -/
def Admitted (n : TPCPNode M) (c : Context M) (e : TPCPEnvelope) : Prop :=
  0 < e.header.ttl ∧ (n.expireSeen c.now).seenMessages.contains e.header.messageId = false ∧
    n.authenticate c.verify e = .ok ()

/-- A frame reaches a handler. -/
structure Accepted (n : TPCPNode M) (c : Context M) (data : Option Json) (e : TPCPEnvelope)
    (handler : Handler) : Prop where
  parsed : parsed c.ambient data = some e
  admitted : n.Admitted c e
  allowed : n.isAllowed e = true
  routed : n.handlers.get? e.header.intent = some handler

/-- The node once an envelope is in the replay cache. -/
def remember (n : TPCPNode M) (e : TPCPEnvelope) (now : ℚ) : TPCPNode M :=
  (n.expireSeen now).recordSeen e now

/-- What the checks do to a node: they expire the replay cache and record a fresh
identifier, at most. -/
inductive Cached (n : TPCPNode M) (now : ℚ) : TPCPNode M → Prop
  | same : Cached n now n
  | expired : Cached n now (n.expireSeen now)
  | remembered (e : TPCPEnvelope)
      (fresh : (n.expireSeen now).seenMessages.get? e.header.messageId = none) :
      Cached n now (n.remember e now)

theorem Cached.eq {now : ℚ} {m : TPCPNode M} (cached : Cached n now m) :
    ∃ seen, m = { n with seenMessages := seen } := by
  cases cached with
  | same => exact ⟨n.seenMessages, rfl⟩
  | expired => exact ⟨(n.expireSeen now).seenMessages, rfl⟩
  | remembered e fresh => exact ⟨(n.remember e now).seenMessages, rfl⟩

theorem Admitted.fresh (admitted : n.Admitted c e) :
    (n.expireSeen c.now).seenMessages.get? e.header.messageId = none :=
  Dict.contains_eq_false_iff.mp admitted.2.1

@[simp] theorem peerRegistry_remember (n : TPCPNode M) (e : TPCPEnvelope) (now : ℚ) :
    (n.remember e now).peerRegistry = n.peerRegistry := rfl

theorem route_eq (n : TPCPNode M) (c : Context M) (e : TPCPEnvelope) :
    n.route c e = if n.isAllowed e then
        match n.handlers.get? e.header.intent with
        | none => (n, .noHandler)
        | some handler =>
          ((n.runHandler c e handler).1, .handled handler (n.runHandler c e handler).2)
      else (n, .denied) := by
  unfold route
  by_cases allowed : n.isAllowed e = true
  · rw [if_pos allowed, if_pos allowed]
    cases n.handlers.get? e.header.intent with
    | none => rfl
    | some handler => exact congrArg (·, Outcome.handled handler _) (acknowledge_eq ..)
  · rw [if_neg allowed, if_neg allowed, refuse_eq, ite_self]

theorem processInbound_of_parsed (parsed : parsed c.ambient data = some e) :
    n.processInbound c data = n.processEnvelope c e := by
  obtain ⟨json, rfl, valid⟩ := Option.bind_eq_some_iff.mp parsed
  rw [processInbound]
  cases result : TPCPEnvelope.modelValidate c.ambient json with
  | error error => simp [result, Except.toOption] at valid
  | ok envelope =>
    obtain rfl : envelope = e := by simpa [result, Except.toOption] using valid
    rfl

theorem processEnvelope_of_admitted (admitted : n.Admitted c e) :
    n.processEnvelope c e = (n.remember e c.now).route c e := by
  obtain ⟨live, fresh, authentic⟩ := admitted
  have authentic' : (n.remember e c.now).authenticate c.verify e = .ok () := authentic
  rw [processEnvelope, if_neg (by omega)]
  simp only [fresh, Bool.false_eq_true, if_false]
  rw [remember] at authentic'
  rw [authentic', remember]

theorem authenticate_error {verify : Verifier} {outcome : Outcome}
    (failed : n.authenticate verify e = .error outcome) : outcome.isRejected = true := by
  unfold authenticate at failed
  split_ifs at failed with other
  · split at failed
    · cases failed
      rfl
    · split at failed
      · cases failed
        rfl
      · split_ifs at failed
        cases failed
        rfl

/-- A frame whose envelope is not admitted changes at most the replay cache. -/
theorem processInbound_of_rejected
    (rejected : ∀ e, parsed c.ambient data = some e → ¬ n.Admitted c e) :
    ∃ m outcome, Cached n c.now m ∧ n.processInbound c data = (m, outcome) ∧
      outcome.isRejected = true := by
  cases result : parsed c.ambient data with
  | none =>
    cases data with
    | none => exact ⟨n, .undecodable, .same, rfl, rfl⟩
    | some json =>
      cases valid : TPCPEnvelope.modelValidate c.ambient json with
      | error error => exact ⟨n, .invalid error, .same, by simp [processInbound, valid], rfl⟩
      | ok e => simp [parsed, valid, Except.toOption] at result
  | some e =>
    rw [processInbound_of_parsed result, processEnvelope]
    by_cases dead : e.header.ttl ≤ 0
    · exact ⟨n, .expired, .same, if_pos dead, rfl⟩
    rw [if_neg dead]
    by_cases seen : (n.expireSeen c.now).seenMessages.contains e.header.messageId = true
    · exact ⟨n.expireSeen c.now, .duplicate, .expired, if_pos seen, rfl⟩
    -- Alive and fresh, so what is missing is the signature.
    have fresh : (n.expireSeen c.now).seenMessages.contains e.header.messageId = false := by
      simpa using seen
    cases check : n.authenticate c.verify e with
    | ok => exact absurd ⟨by omega, fresh, check⟩ (rejected e result)
    | error outcome =>
      have check' : ((n.expireSeen c.now).recordSeen e c.now).authenticate c.verify e =
          .error outcome := check
      refine ⟨n.remember e c.now, outcome, .remembered e (Dict.contains_eq_false_iff.mp fresh), ?_,
        authenticate_error check⟩
      simp only [if_neg seen, check']
      rfl

theorem processInbound_of_admitted (parsed : parsed c.ambient data = some e)
    (admitted : n.Admitted c e) : n.processInbound c data = (n.remember e c.now).route c e := by
  rw [processInbound_of_parsed parsed, processEnvelope_of_admitted admitted]

/-- An accepted frame is handled, whatever the handler does. -/
theorem processInbound_of_accepted {handler : Handler} (accepted : n.Accepted c data e handler) :
    n.processInbound c data =
      (((n.remember e c.now).runHandler c e handler).1,
        .handled handler ((n.remember e c.now).runHandler c e handler).2) := by
  have allowed : (n.remember e c.now).isAllowed e = true := accepted.allowed
  have routed : (n.remember e c.now).handlers.get? e.header.intent = some handler :=
    accepted.routed
  rw [processInbound_of_admitted accepted.parsed accepted.admitted, route_eq, if_pos allowed,
    routed]

/-- A frame that is not accepted changes at most the replay cache, and no handler
is called for it. -/
theorem processInbound_of_not_accepted (refused : ∀ e handler, ¬ n.Accepted c data e handler) :
    ∃ m outcome, Cached n c.now m ∧ n.processInbound c data = (m, outcome) ∧
      ∀ handler raised, outcome ≠ .handled handler raised := by
  by_cases admitted : ∃ e, parsed c.ambient data = some e ∧ n.Admitted c e
  · obtain ⟨e, parsed, admitted⟩ := admitted
    rw [processInbound_of_admitted parsed admitted, route_eq]
    by_cases allowed : n.isAllowed e = true
    · have allowed' : (n.remember e c.now).isAllowed e = true := allowed
      rw [if_pos allowed']
      cases routed : n.handlers.get? e.header.intent with
      | none =>
        have routed' : (n.remember e c.now).handlers.get? e.header.intent = none := routed
        rw [routed']
        exact ⟨n.remember e c.now, .noHandler, .remembered e admitted.fresh, rfl, by simp⟩
      | some handler => exact absurd ⟨parsed, admitted, allowed, routed⟩ (refused e handler)
    · have denied : ¬ (n.remember e c.now).isAllowed e = true := allowed
      rw [if_neg denied]
      exact ⟨n.remember e c.now, .denied, .remembered e admitted.fresh, rfl, by simp⟩
  · obtain ⟨m, outcome, cached, result, rejected⟩ :=
      processInbound_of_rejected fun e parsed admitted' => admitted ⟨e, parsed, admitted'⟩
    refine ⟨m, outcome, cached, result, ?_⟩
    rintro handler raised rfl
    exact absurd rejected (by simp [Outcome.isRejected])

/-! ### What handlers change -/

/-- A handshake registers the identity it announces, if the announced key
verifies its signature. -/
def Registers (verify : Verifier) (ambient : Ambient) (e : TPCPEnvelope)
    (identity : AgentIdentity) : Prop :=
  announcedIdentity ambient e = some identity ∧
    ∃ signature, e.signature? = some signature ∧
      verifies verify identity.publicKey signature e = true

@[simp] theorem runHandler_handleHandshake (n : TPCPNode M) (c : Context M) (e : TPCPEnvelope) :
    n.runHandler c e .handleHandshake = (n.handleHandshake c e, none) := rfl

theorem handleHandshake_eq (n : TPCPNode M) (c : Context M) (e : TPCPEnvelope) :
    ∃ registry, n.handleHandshake c e = { n with peerRegistry := registry } := by
  unfold handleHandshake
  split
  · split_ifs
    · exact ⟨_, rfl⟩
    · exact ⟨n.peerRegistry, rfl⟩
  · exact ⟨n.peerRegistry, rfl⟩

theorem peerRegistry_settle (n : TPCPNode M) (e : TPCPEnvelope) (value : UUID → Future) :
    (n.settle e value).peerRegistry = n.peerRegistry := by
  unfold settle
  split
  · rfl
  · split <;> rfl

/-- Handlers write the registry, the pending acknowledgements and their futures,
and the memory, and nothing else. -/
theorem runHandler_eq (n : TPCPNode M) (c : Context M) (e : TPCPEnvelope) (handler : Handler) :
    ∃ registry pending futures memory, (n.runHandler c e handler).1 =
      { n with
        peerRegistry := registry
        pendingAcks := pending
        futures := futures
        memory := memory } := by
  -- An acknowledgement or a refusal settles the future that waits for it.
  have settled (value : UUID → Future) : ∃ pending futures, n.settle e value =
      { n with pendingAcks := pending, futures := futures } := by
    unfold settle
    split
    · exact ⟨n.pendingAcks, n.futures, rfl⟩
    · split
      · exact ⟨n.pendingAcks, n.futures, rfl⟩
      · exact ⟨_, _, rfl⟩
  cases handler with
  | handleHandshake =>
    obtain ⟨registry, same⟩ := handleHandshake_eq n c e
    exact ⟨registry, n.pendingAcks, n.futures, n.memory, same⟩
  | handleStateSync =>
    simp only [runHandler]
    split
    · split_ifs
      · exact ⟨n.peerRegistry, n.pendingAcks, n.futures, _, rfl⟩
      · exact ⟨n.peerRegistry, n.pendingAcks, n.futures, n.memory, rfl⟩
    · exact ⟨n.peerRegistry, n.pendingAcks, n.futures, n.memory, rfl⟩
  | handleVectorSync =>
    simp only [runHandler]
    split
    · exact ⟨n.peerRegistry, n.pendingAcks, n.futures, _, rfl⟩
    · exact ⟨n.peerRegistry, n.pendingAcks, n.futures, n.memory, rfl⟩
  | handleAck =>
    obtain ⟨pending, futures, same⟩ := settled fun _ => .result e
    exact ⟨n.peerRegistry, pending, futures, n.memory, same⟩
  | handleNack =>
    obtain ⟨pending, futures, same⟩ :=
      settled fun id => .exception ("NACK received for message " ++ id.toText)
    exact ⟨n.peerRegistry, pending, futures, n.memory, same⟩
  | custom name => exact ⟨n.peerRegistry, n.pendingAcks, n.futures, _, rfl⟩

theorem peerRegistry_runHandler_of_ne {handler : Handler} (other : handler ≠ .handleHandshake) :
    (n.runHandler c e handler).1.peerRegistry = n.peerRegistry := by
  cases handler with
  | handleHandshake => exact absurd rfl other
  | handleStateSync =>
    simp only [runHandler]
    split
    · split_ifs <;> rfl
    · rfl
  | handleVectorSync =>
    simp only [runHandler]
    split <;> rfl
  | handleAck => exact peerRegistry_settle n e _
  | handleNack => exact peerRegistry_settle n e _
  | custom name => rfl

/-- The registry entry of an agent after a handler ran is the old one, or that of
the identity a handshake registered. -/
theorem get?_runHandler (n : TPCPNode M) (c : Context M) (e : TPCPEnvelope) (handler : Handler)
    (agentId : UUID) :
    (n.runHandler c e handler).1.peerRegistry.get? agentId = n.peerRegistry.get? agentId ∨
      handler = .handleHandshake ∧ ∃ identity, Registers c.verify c.ambient e identity ∧
        identity.agentId = agentId ∧
        ∃ address, (n.runHandler c e handler).1.peerRegistry.get? agentId =
          some (identity, address) := by
  by_cases handshake : handler = .handleHandshake
  · subst handshake
    rw [runHandler_handleHandshake]
    unfold handleHandshake
    split
    · rename_i identity signature announced signed
      split_ifs with verified
      · by_cases same : identity.agentId = agentId
        · refine .inr ⟨rfl, identity, ⟨announced, signature, signed, verified⟩, same,
            "ws://" ++ c.host.getD "unknown", ?_⟩
          rw [registerPeer, ← same, Dict.get?_set_self]
        · exact .inl (Dict.get?_set_of_ne (Ne.symm same))
      · exact .inl rfl
    · exact .inl rfl
  · exact .inl (congrArg (Dict.get? · agentId) (peerRegistry_runHandler_of_ne handshake))

theorem pendingAcks_runHandler_of_ne {handler : Handler} (notAck : handler ≠ .handleAck)
    (notNack : handler ≠ .handleNack) :
    (n.runHandler c e handler).1.pendingAcks = n.pendingAcks ∧
      (n.runHandler c e handler).1.futures = n.futures := by
  cases handler with
  | handleHandshake =>
    obtain ⟨registry, same⟩ := handleHandshake_eq n c e
    rw [runHandler_handleHandshake, same]
    exact ⟨rfl, rfl⟩
  | handleStateSync =>
    simp only [runHandler]
    split
    · split_ifs <;> exact ⟨rfl, rfl⟩
    · exact ⟨rfl, rfl⟩
  | handleVectorSync =>
    simp only [runHandler]
    split <;> exact ⟨rfl, rfl⟩
  | handleAck => exact absurd rfl notAck
  | handleNack => exact absurd rfl notNack
  | custom name => exact ⟨rfl, rfl⟩

theorem signature?_eq_some {signature : String} (signed : e.signature = some signature)
    (nonempty : signature ≠ "") : e.signature? = some signature :=
  Option.filter_eq_some_iff.mpr ⟨signed, decide_eq_true nonempty⟩

/-- A message whose signature verifies under the registered key is authentic. -/
theorem authenticate_of_verifies {verify : Verifier} {peer : AgentIdentity}
    {address signature : String}
    (registered : n.peerRegistry.get? e.header.senderId = some (peer, address))
    (signed : e.signature? = some signature)
    (verified : verifies verify peer.publicKey signature e = true) :
    n.authenticate verify e = .ok () := by
  unfold authenticate
  split_ifs
  · simp only [registered, signed, verified, if_true]
  · rfl

/-- The signature check of a message that is no handshake, spelled out. -/
theorem authenticate_ok {verify : Verifier} (authentic : n.authenticate verify e = .ok ())
    (message : e.header.intent ≠ .handshake) :
    ∃ peer address signature, n.peerRegistry.get? e.header.senderId = some (peer, address) ∧
      e.signature? = some signature ∧ verifies verify peer.publicKey signature e = true := by
  rw [authenticate, if_pos message] at authentic
  cases registered : n.peerRegistry.get? e.header.senderId with
  | none => simp [registered] at authentic
  | some entry =>
    cases signed : e.signature? with
    | none => simp [registered, signed] at authentic
    | some signature =>
      simp only [registered, signed] at authentic
      split_ifs at authentic with verified
      exact ⟨entry.1, entry.2, signature, rfl, rfl, verified⟩

end TPCPNode

end AgentTelepathy
