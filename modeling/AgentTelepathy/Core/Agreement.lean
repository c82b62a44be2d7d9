import AgentTelepathy.Core.Pinning
import AgentTelepathy.Core.Replay

/-!
# Agreement between a sender and a receiver

A node sends messages to another one over a network that drops, reorders,
duplicates and edits what it carries. The sender's key signs nothing but the
payloads of its messages. The signature binds the payload and nothing else: each
message that reaches a handler carries the payload of an earlier call, but the
network chooses identifier, intent and receiver. Calls for one identifier are at
least 300 seconds apart.
-/

namespace AgentTelepathy

open Foundation Foundation.Transition

/-- A sender with its public key and the envelopes of its calls of
`send_message`, and the session of the receiver. -/
structure Exchange (N M : Type) where
  sender : TPCPNode N
  key : Bytes
  sent : List TPCPEnvelope
  session : Session M

/-- A call of the sender, or anything that happens to the receiver. -/
inductive ExchangeEvent (M : Type)
  | send (request : Request)
  | receiver (event : SessionEvent M)

namespace Exchange

variable {N M : Type} {x y : Exchange N M} {agentId : UUID} {publicKey : String}
  {event : ExchangeEvent M}

/-- Nothing was sent, and nothing happened to the receiver. -/
def init (sender : TPCPNode N) (key : Bytes) (receiver : TPCPNode M) (receiverKey : Bytes) :
    Exchange N M := ⟨sender, key, [], Session.init receiver receiverKey⟩

/-- The sender calls `send_message`; a call that raises has no effect. -/
def send (x : Exchange N M) (request : Request) : Exchange N M :=
  match x.sender.sendMessage request.ambient (fun _ => request.signature) request.target
      request.intent request.payload request.requireAck request.chunkInfo with
  | .error _ => x
  | .ok (sender, e) =>
    { x with
      sender := sender
      sent := x.sent ++ [e]
      session := x.session.sign ⟨x.key, canonical e.payload.modelDump, request.signature⟩ }

/-- The state after an event, if the event is possible. -/
def next (x : Exchange N M) : ExchangeEvent M → Option (Exchange N M)
  | .send request => some (x.send request)
  | .receiver event => (x.session.next event).map fun session => { x with session := session }

/-- The sender's key is registered and stays so, and signs nothing but the sender's
messages. -/
def Honest (agentId : UUID) (publicKey : String) (x : Exchange N M) : ExchangeEvent M → Prop
  | .send _ => True
  | .receiver event =>
    (Session.Undisturbed agentId publicKey event ∧
      Session.Unchallenged agentId publicKey x.session event) ∧
    match event with
    | .sign signing => signing.publicKey ≠ x.key
    | .send _ => x.session.key ≠ x.key
    | _ => True

/-- What the sender's key signed are payloads of its messages. -/
def Accounted (x : Exchange N M) : Prop :=
  ∀ signing ∈ x.session.log, signing.publicKey = x.key →
    ∃ e ∈ x.sent, signing.data = canonical e.payload.modelDump

/-! ### Steps -/

theorem send_cases (x : Exchange N M) (request : Request) :
    x.send request = x ∨ ∃ sender e, e.payload = request.payload ∧
      x.send request =
        { x with
          sender := sender
          sent := x.sent ++ [e]
          session := x.session.sign
            ⟨x.key, canonical e.payload.modelDump, request.signature⟩ } := by
  unfold send
  split
  · exact .inl rfl
  · rename_i sender e sent
    obtain ⟨payload, -⟩ := Session.sendMessage_ok sent
    refine .inr ⟨sender, e, ?_, rfl⟩
    rw [payload]

/-- A signature that the receiver's session adds to the log is by another key. -/
theorem mem_log_of_next {s t : Session M} {event : SessionEvent M} (step : s.next event = some t)
    {signing : Signing} (logged : signing ∈ t.log) :
    signing ∈ s.log ∨ event = .sign signing ∨
      ∃ request, event = .send request ∧ signing.publicKey = s.key := by
  -- Only a signing and a send add to the log.
  cases event with
  | sign other =>
    cases step
    rw [Session.log_sign] at logged
    rcases List.mem_append.mp logged with old | new
    · exact .inl old
    · exact .inr (.inl (congrArg _ (List.mem_singleton.mp new).symm))
  | send request =>
    cases step
    unfold Session.send at logged
    split at logged
    · exact .inl logged
    · rcases List.mem_append.mp logged with old | new
      · exact .inl old
      · exact .inr (.inr ⟨request, rfl, congrArg Signing.publicKey (List.mem_singleton.mp new)⟩)
  | inbound frame =>
    obtain ⟨-, step⟩ := Option.ite_none_right_eq_some.mp step
    cases step
    exact .inl logged
  | timeOut i | cancel i =>
    obtain ⟨call, -, rfl⟩ := Option.map_eq_some_iff.mp step
    exact .inl logged
  | stopListening | registerPeer | removePeer | registerHandler | setPolicy =>
    cases step
    exact .inl logged

theorem Accounted.next (accounted : Accounted x) (step : x.next event = some y)
    (honest : Honest agentId publicKey x event) : Accounted y := by
  cases event with
  | send request =>
    cases step
    rcases send_cases x request with same | ⟨sender, e, -, same⟩
    · rw [same]
      exact accounted
    · rw [same]
      intro signing logged own
      rcases List.mem_append.mp logged with old | new
      · obtain ⟨e', sent, data⟩ := accounted signing old own
        exact ⟨e', List.mem_append_left _ sent, data⟩
      · obtain rfl := List.mem_singleton.mp new
        exact ⟨e, List.mem_append_right _ (List.mem_singleton.mpr rfl), rfl⟩
  | receiver event =>
    obtain ⟨session, moved, rfl⟩ := Option.map_eq_some_iff.mp step
    intro signing logged own
    rcases mem_log_of_next moved logged with old | rfl | ⟨request, rfl, foreign⟩
    · exact accounted signing old own
    · exact absurd own honest.2
    · exact absurd (foreign.symm.trans own) honest.2

/-- All that the agreement rests on, for handler calls after the start. -/
structure Sound (agentId : UUID) (publicKey : String) (key : Bytes) (x : Exchange N M) : Prop where
  sameKey : x.key = key
  accounted : Accounted x
  pinned : Session.Pinned agentId publicKey 0 x.session
  windowed : Session.Windowed x.session

theorem Sound.next {key : Bytes} (sound : Sound agentId publicKey key x)
    (step : x.next event = some y) (honest : Honest agentId publicKey x event) :
    Sound agentId publicKey key y := by
  have accounted := sound.accounted.next step honest
  cases event with
  | send request =>
    cases step
    rcases send_cases x request with same | ⟨sender, e, -, same⟩
    · rw [same]
      exact sound
    · -- For the receiver's session a call of the sender is one more signature.
      rw [same] at accounted ⊢
      have signed : x.session.next (.sign ⟨x.key, canonical e.payload.modelDump,
        request.signature⟩) =
          some (x.session.sign ⟨x.key, canonical e.payload.modelDump, request.signature⟩) := rfl
      exact ⟨sound.sameKey, accounted, sound.pinned.next signed trivial trivial,
        sound.windowed.next signed⟩
  | receiver event =>
    obtain ⟨session, moved, rfl⟩ := Option.map_eq_some_iff.mp step
    exact ⟨sound.sameKey, accounted, sound.pinned.next moved honest.1.1 honest.1.2,
      sound.windowed.next moved⟩

/-! ### Runs -/

/-- In every run, at every point of it, each handler call for a message of the
sender is for the payload of a call of `send_message` made so far, and handler
calls for one identifier are at least 300 seconds apart. -/
theorem payload_agreement {sender : TPCPNode N} {receiver : TPCPNode M} {key receiverKey : Bytes}
    {events : List (ExchangeEvent M)}
    (run : Run (Guarded (OfPartial next) (Honest agentId publicKey))
      (init sender key receiver receiverKey) events x)
    (decoded : Base64.decode false publicKey = some key)
    (registered : (Session.init receiver receiverKey).registeredKey? agentId = some publicKey)
    (unseen : receiver.seenMessages = Dict.empty) :
    (∀ i ∈ x.session.handled, i.envelope.header.senderId = agentId →
      i.envelope.header.intent ≠ .handshake →
        ∃ e ∈ x.sent, Json.Same e.payload.modelDump i.envelope.payload.modelDump) ∧
      x.session.handled.Pairwise fun i j => i.messageId = j.messageId → i.time + 300 ≤ j.time := by
  have start : Sound agentId publicKey key (init sender key receiver receiverKey) := by
    refine ⟨rfl, ?_, ⟨registered, le_rfl, ?_⟩, Session.windowed_start unseen rfl⟩
    · intro signing logged
      cases logged
    · intro i late
      cases late
  have sound : Sound agentId publicKey key x :=
    run.invariant (fun _ _ _ before step => before.next step.1 step.2) start
  refine ⟨?_, sound.windowed.apart⟩
  intro i handled ofAgent message
  obtain ⟨publicBytes, signature, decoded', logged⟩ :=
    sound.pinned.authentic i handled ofAgent message
  -- The pinned key is the key of the sender, so the sender signed this payload.
  have own : publicBytes = x.key := by
    rw [decoded] at decoded'
    exact (Option.some.inj decoded').symm.trans sound.sameKey.symm
  obtain ⟨e, sent, data⟩ := sound.accounted _ logged own
  exact ⟨e, sent, canonical_eq_iff.mp data.symm⟩

/-! ### What the signature does not bind -/

open Session (peer message deliver)

/-- The receiver also handles critiques. -/
def reviewer : TPCPNode Unit := Session.host.node.registerHandler .critique (.custom 1)

/-- The only call of the sender, a task request to everyone. -/
def request : Request where
  ambient := Ambient.strict ⟨10, 0, 0, 0, 0⟩ ⟨2026, 3, 1, 12, 0, 0, 0, DateTime.valid_noon⟩
  signature := [1]
  target := UUID.nil
  intent := .taskRequest
  payload := .text ⟨"summarize", "en"⟩
  requireAck := false
  chunkInfo := none

/-- The envelope of the call. -/
def original : TPCPEnvelope := message 10 .taskRequest "summarize" 1

/-- The same envelope under another identifier and intent. -/
def edited : TPCPEnvelope := message 11 .critique "summarize" 1

/-- The network delivers the envelope and an edited copy. -/
def copied : List (ExchangeEvent Unit) :=
  [.send request, .receiver (.inbound (deliver 1 original)),
    .receiver (.inbound (deliver 2 edited))]

/-- Before anything is sent. -/
def before : Exchange Unit Unit :=
  init (TPCPNode.init peer false none ()) (List.replicate 32 1) reviewer (List.replicate 32 3)

theorem before_registeredKey? :
    before.session.registeredKey? peer.agentId = some peer.publicKey := by
  decide

/-- The receiver once the call is signed. -/
def signed : Session Unit :=
  before.session.sign ⟨List.replicate 32 1, canonical original.payload.modelDump, [1]⟩

theorem before_send : (before.send request).sent = [original] ∧
    (before.send request).session = signed := ⟨rfl, rfl⟩

theorem original_accepted : signed.Accepted (deliver 1 original) original (.custom 0) :=
  Session.accepted_message before_registeredKey? (by decide)
    (List.mem_singleton.mpr rfl) rfl rfl rfl

theorem edited_accepted :
    (signed.receive (deliver 1 original)).Accepted (deliver 2 edited) edited (.custom 1) := by
  have received := Session.receive_of_accepted original_accepted
  have node : (signed.receive (deliver 1 original)).node =
      reviewer.remember original (deliver 1 original).now := by
    rw [received]
    rfl
  have registered : (signed.receive (deliver 1 original)).registeredKey? peer.agentId =
      some peer.publicKey := by
    rw [Session.registeredKey?, node, TPCPNode.peerRegistry_remember]
    exact before_registeredKey?
  refine Session.accepted_message registered (by decide) ?_ ?_ ?_ ?_
  · rw [received]
    exact List.mem_singleton.mpr rfl
  · rw [node]
    rfl
  · rw [node]
    rfl
  · rw [node]
    rfl

/-- After the first delivery. -/
def between : Exchange Unit Unit :=
  { before.send request with session := signed.receive (deliver 1 original) }

/-- After both deliveries. -/
def after : Exchange Unit Unit :=
  { before.send request with
    session := (signed.receive (deliver 1 original)).receive (deliver 2 edited) }

theorem copied_run :
    Run (Guarded (OfPartial next) (Honest peer.agentId peer.publicKey)) before copied after := by
  have first : Guarded (OfPartial next) (Honest peer.agentId peer.publicKey) (before.send request)
      (.receiver (.inbound (deliver 1 original))) between := by
    refine ⟨?_, ⟨trivial, ?_⟩, trivial⟩
    · rw [OfPartial, next, before_send.2, Session.next_inbound zero_le_one, Option.map_some,
        between]
    · rw [before_send.2]
      exact Session.unchallenged_of_accepted original_accepted (by simp)
  have second : Guarded (OfPartial next) (Honest peer.agentId peer.publicKey) between
      (.receiver (.inbound (deliver 2 edited))) after := by
    have clock : (signed.receive (deliver 1 original)).clock ≤ (deliver 2 edited).now := by
      rw [Session.receive_of_accepted original_accepted]
      exact one_le_two
    refine ⟨?_, ⟨trivial, ?_⟩, trivial⟩
    · rw [OfPartial, between, next, Session.next_inbound clock, Option.map_some, after]
    · exact Session.unchallenged_of_accepted edited_accepted (by simp)
  have sent : Guarded (OfPartial next) (Honest peer.agentId peer.publicKey) before (.send request)
      (before.send request) := ⟨rfl, trivial⟩
  exact ((Run.single sent).snoc first).snoc second

theorem after_handled :
    after.session.handled = [⟨.custom 0, original, 1⟩, ⟨.custom 1, edited, 2⟩] := by
  rw [after, Session.receive_of_accepted edited_accepted,
    Session.receive_of_accepted original_accepted]
  rfl

theorem payload_agreement_copied :
    Run (Guarded (OfPartial next) (Honest peer.agentId peer.publicKey)) before copied after ∧
      (∀ i ∈ after.session.handled, i.envelope.header.senderId = peer.agentId →
        i.envelope.header.intent ≠ .handshake →
          ∃ e ∈ after.sent, Json.Same e.payload.modelDump i.envelope.payload.modelDump) ∧
      after.session.handled.Pairwise fun i j =>
        i.messageId = j.messageId → i.time + 300 ≤ j.time :=
  ⟨copied_run, payload_agreement copied_run (Base64.decode_encode false _) before_registeredKey?
    rfl⟩

/-- One call, of which the network delivers a copy with another identifier and
intent, reaches two handlers, one of them for an intent of which nothing was sent. -/
theorem one_call_two_handlers :
    Run (Guarded (OfPartial next) (Honest peer.agentId peer.publicKey)) before copied after ∧
      edited.payload = original.payload ∧ edited.signature = original.signature ∧
      after.sent = [original] ∧
      after.session.handled = [⟨.custom 0, original, 1⟩, ⟨.custom 1, edited, 2⟩] ∧
      edited.header.senderId = peer.agentId ∧
      edited.header.intent ≠ original.header.intent := by
  refine ⟨copied_run, rfl, rfl, before_send.1, after_handled, rfl, ?_⟩
  decide

end Exchange

end AgentTelepathy
