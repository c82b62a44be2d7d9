import AgentTelepathy.Core.Session

/-!
# Acknowledgements

A message that requires an acknowledgement is sent, the receiver processes it,
and whatever the receiver dispatches to the sender is processed there. As no
reply is ever dispatched, the sender's future stays pending: it tells what became
of the message exactly when nothing became of it, that is when no handler was
called and the policy denied nothing.
-/

namespace AgentTelepathy

open Foundation

namespace TPCPNode

variable {M N : Type} {n : TPCPNode M} {c : Context M} {data : Option Json}

/-! ### What a receiver decides -/

/-- The receiver calls a handler for a frame, or its policy denies it. -/
def Decides (n : TPCPNode M) (c : Context M) (data : Option Json) : Prop :=
  ∃ e, parsed c.ambient data = some e ∧ n.Admitted c e ∧
    (n.isAllowed e = true → (n.handlers.get? e.header.intent).isSome = true)

theorem decides_of_admitted {e : TPCPEnvelope} (parsed : parsed c.ambient data = some e)
    (admitted : n.Admitted c e) : n.Decides c data ↔
      (n.isAllowed e = true → (n.handlers.get? e.header.intent).isSome = true) := by
  constructor
  · rintro ⟨e', parsed', -, decided⟩
    obtain rfl : e = e' := Option.some.inj (parsed.symm.trans parsed')
    exact decided
  · exact fun decided => ⟨e, parsed, admitted, decided⟩

theorem decides_iff : n.Decides c data ↔
    (∃ handler raised, (n.processInbound c data).2 = .handled handler raised) ∨
      (n.processInbound c data).2 = .denied := by
  by_cases admitted : ∃ e, parsed c.ambient data = some e ∧ n.Admitted c e
  · obtain ⟨e, parsed, admitted⟩ := admitted
    rw [decides_of_admitted parsed admitted, processInbound_of_admitted parsed admitted, route_eq]
    have allowed_remember : (n.remember e c.now).isAllowed e = n.isAllowed e := rfl
    have handlers_remember : (n.remember e c.now).handlers = n.handlers := rfl
    rw [allowed_remember, handlers_remember]
    by_cases allowed : n.isAllowed e = true
    · cases routed : n.handlers.get? e.header.intent <;> simp [allowed]
    · simp [allowed]
  · have rejected : ∀ e, parsed c.ambient data = some e → ¬ n.Admitted c e :=
      fun e parsed admitted' => admitted ⟨e, parsed, admitted'⟩
    obtain ⟨m, outcome, -, result, refused⟩ := processInbound_of_rejected rejected
    rw [result]
    constructor
    · rintro ⟨e, parsed, admitted', -⟩
      exact absurd admitted' (rejected e parsed)
    · rintro (⟨handler, raised, rfl⟩ | rfl)
      · cases refused
      · cases refused

/-- No frame makes a node dispatch anything. -/
theorem dispatched_processInbound (n : TPCPNode M) (c : Context M) (data : Option Json) :
    (n.processInbound c data).1.dispatched = n.dispatched := by
  by_cases accepted : ∃ e handler, n.Accepted c data e handler
  · obtain ⟨e, handler, accepted⟩ := accepted
    obtain ⟨registry, pending, futures, memory, ran⟩ :=
      runHandler_eq (n.remember e c.now) c e handler
    rw [processInbound_of_accepted accepted, ran]
    rfl
  · obtain ⟨m, outcome, cached, result, -⟩ :=
      processInbound_of_not_accepted fun e handler h => accepted ⟨e, handler, h⟩
    obtain ⟨seen, rfl⟩ := cached.eq
    rw [result]

/-! ### One message and its reply -/

/-- What a node dispatched to a peer since an earlier state. -/
def repliesTo (earlier n : TPCPNode M) (peer : UUID) : List TPCPEnvelope :=
  ((n.dispatched.drop earlier.dispatched.length).filter fun entry => entry.1 = peer).map Prod.snd

/-- Process the texts of envelopes in order. -/
def deliverAll (n : TPCPNode N) (c : Context N) : List TPCPEnvelope → TPCPNode N
  | [] => n
  | e :: envelopes => ((n.processInbound c (some e.toJson)).1).deliverAll c envelopes

@[simp] theorem deliverAll_nil (n : TPCPNode N) (c : Context N) : n.deliverAll c [] = n := rfl

/-- The state of the future of a message tells its outcome: a result for a handler
that returned, and an exception for a handler that raised or a denial. -/
def Tells (future : Option Future) (outcome : Outcome) : Prop :=
  ((∃ ack, future = some (.result ack)) ↔ ∃ handler, outcome = .handled handler none) ∧
    ((∃ text, future = some (.exception text)) ↔
      (∃ handler reason, outcome = .handled handler (some reason)) ∨ outcome = .denied)

theorem tells_pending_iff {outcome : Outcome} : Tells (some .pending) outcome ↔
    ¬ ((∃ handler raised, outcome = .handled handler raised) ∨ outcome = .denied) := by
  unfold Tells
  cases outcome with
  | handled handler raised => cases raised <;> simp
  | _ => simp

/-- There are no replies, so the future of a message stays pending. -/
theorem future_pending {a a' : TPCPNode N} {ambient : Ambient} {sign : Bytes → Bytes}
    {target : UUID} {intent : Intent} {payload : Payload} {chunkInfo : Option ChunkInfo}
    {e : TPCPEnvelope} (b : TPCPNode M) (cb : Context M) (ca : Context N)
    (sent : a.sendMessage ambient sign target intent payload true chunkInfo = .ok (a', e)) :
    (a'.deliverAll ca
      (repliesTo b (b.processInbound cb (some e.toJson)).1 a.identity.agentId)).futures[
        a.futures.length]? = some .pending := by
  have silent : repliesTo b (b.processInbound cb (some e.toJson)).1 a.identity.agentId = [] := by
    rw [repliesTo, dispatched_processInbound, List.drop_length]
    rfl
  rw [silent, deliverAll_nil, (Session.sendMessage_ok sent).2]
  exact List.getElem?_concat_length

/-- For every message that requires an acknowledgement: once the receiver processed
it, and the sender every reply, the sender's future tells the outcome if and only
if no handler was called and nothing was denied. -/
theorem tells_iff {a a' : TPCPNode N} {b : TPCPNode M} {ambient : Ambient} {sign : Bytes → Bytes}
    {intent : Intent} {payload : Payload} {chunkInfo : Option ChunkInfo} {e : TPCPEnvelope}
    (cb : Context M) (ca : Context N)
    (sent : a.sendMessage ambient sign b.identity.agentId intent payload true chunkInfo =
      .ok (a', e)) :
    Tells (a'.deliverAll ca
        (repliesTo b (b.processInbound cb (some e.toJson)).1 a.identity.agentId)).futures[
          a.futures.length]? (b.processInbound cb (some e.toJson)).2 ↔
      ¬ b.Decides cb (some e.toJson) := by
  rw [future_pending b cb ca sent, tells_pending_iff, decides_iff]

/-! ### Registered nodes -/

/-- A message with finite floats that a registered sender signed with its real key
passes the checks of a receiver that has not seen its identifier. -/
theorem admitted_of_registered {ed : Ed25519} {key : ed.PrivateKey} {a a' : TPCPNode N}
    {b : TPCPNode M} {cb : Context M} {ambient : Ambient} {target : UUID} {intent : Intent}
    {payload : Payload} {requireAck : Bool} {chunkInfo : Option ChunkInfo} {e : TPCPEnvelope}
    {identity : AgentIdentity} {address : String} (verify : cb.verify = ed.verify)
    (sent : a.sendMessage ambient (ed.sign key) target intent payload requireAck chunkInfo =
      .ok (a', e))
    (registered : b.peerRegistry.get? a.identity.agentId = some (identity, address))
    (realKey : identity.publicKey = AgentIdentityManager.getPublicKeyString (ed.publicBytes key))
    (fresh : (b.expireSeen cb.now).seenMessages.get? e.header.messageId = none) :
    b.Admitted cb e := by
  obtain ⟨rfl, -⟩ := Session.sendMessage_ok sent
  refine ⟨Nat.zero_lt_succ 29, Dict.contains_eq_false_iff.mpr fresh, ?_⟩
  have nonempty := Base64.encode_ne_empty (ed.sign_ne_nil key (canonical payload.modelDump))
  have verified : AgentIdentityManager.verifySignature ed.verify
      (AgentIdentityManager.getPublicKeyString (ed.publicBytes key))
      (AgentIdentityManager.signBytes (ed.sign key) (canonical payload.modelDump))
      payload.modelDump = true :=
    AgentIdentityManager.verifySignature_signPayload rfl (Json.Same.refl _)
  rw [← realKey, ← verify] at verified
  exact authenticate_of_verifies registered (signature?_eq_some rfl nonempty) verified

/-- Between nodes that know each other's keys, the sender's future tells what became
of a message only where the policy allows it and no handler is registered for it. -/
theorem tells_iff_of_registered {ed : Ed25519} {key : ed.PrivateKey} {a a' : TPCPNode N}
    {b : TPCPNode M} {cb : Context M} {ca : Context N} {ambient : Ambient} {intent : Intent}
    {payload : Payload} {chunkInfo : Option ChunkInfo} {e : TPCPEnvelope}
    {identity : AgentIdentity} {address : String} (verify : cb.verify = ed.verify)
    (sent : a.sendMessage ambient (ed.sign key) b.identity.agentId intent payload true chunkInfo =
      .ok (a', e))
    (registered : b.peerRegistry.get? a.identity.agentId = some (identity, address))
    (realKey : identity.publicKey = AgentIdentityManager.getPublicKeyString (ed.publicBytes key))
    (fresh : (b.expireSeen cb.now).seenMessages.get? e.header.messageId = none)
    (finite : allFinite e.payload.modelDump = true) :
    Tells (a'.deliverAll ca
        (repliesTo b (b.processInbound cb (some e.toJson)).1 a.identity.agentId)).futures[
          a.futures.length]? (b.processInbound cb (some e.toJson)).2 ↔
      b.isAllowed e = true ∧ b.handlers.get? e.header.intent = none := by
  have parsed : parsed cb.ambient (some e.toJson) = some e := by
    rw [parsed, Option.bind_some, TPCPEnvelope.modelValidate_toJson finite]
    rfl
  have admitted := admitted_of_registered verify sent registered realKey fresh
  rw [future_pending b cb ca sent, tells_pending_iff, ← decides_iff,
    decides_of_admitted parsed admitted, Classical.not_imp, Bool.not_eq_true,
      Option.isSome_eq_false_iff, Option.isNone_iff_eq_none]

/-! ### A message without a reply -/

/-- Two nodes that have registered each other; the second one acknowledges. -/
def aliceKey : transparent.PrivateKey := ⟨List.replicate 32 1, rfl⟩

def bobKey : transparent.PrivateKey := ⟨List.replicate 32 2, rfl⟩

def aliceIdentity : AgentIdentity where
  agentId := ⟨1, 0, 0, 0, 0⟩
  framework := "LangGraph"
  capabilities := []
  publicKey := AgentIdentityManager.getPublicKeyString (transparent.publicBytes aliceKey)
  modality := ["text"]

def bobIdentity : AgentIdentity where
  agentId := ⟨2, 0, 0, 0, 0⟩
  framework := "CrewAI"
  capabilities := []
  publicKey := AgentIdentityManager.getPublicKeyString (transparent.publicBytes bobKey)
  modality := ["text"]

def alice : TPCPNode Unit :=
  (init aliceIdentity false none ()).registerPeer bobIdentity "ws://10.0.0.2"

def bob : TPCPNode Unit :=
  (init bobIdentity true none ()).registerPeer aliceIdentity "ws://10.0.0.1"

/-- The receiver with a handler for task requests. -/
def worker : TPCPNode Unit := bob.registerHandler .taskRequest (.custom 0)

/-- Handlers return, and the clock shows one second. -/
def calm : Context Unit where
  ambient := Ambient.strict ⟨10, 0, 0, 0, 0⟩ ⟨2026, 3, 1, 12, 0, 0, 0, DateTime.valid_noon⟩
  verify := transparent.verify
  sign := transparent.sign bobKey
  backend := ⟨fun m _ => (m, none), fun m _ _ => (m, none), fun _ m _ => (m, none)⟩
  now := 1
  host := none

/-- The envelope of the first node's task request, and the node that waits for it. -/
def task : TPCPEnvelope where
  header := alice.createHeader calm.ambient bob.identity.agentId .taskRequest
  payload := .text ⟨"summarize", "en"⟩
  signature := some (AgentIdentityManager.signBytes (transparent.sign aliceKey)
    (canonical (Payload.text ⟨"summarize", "en"⟩).modelDump))
  ackInfo := none
  chunkInfo := none

def waiting : TPCPNode Unit :=
  { alice with
    futures := [.pending]
    pendingAcks := alice.pendingAcks.set ⟨10, 0, 0, 0, 0⟩ 0
    dispatched := [(bob.identity.agentId, task)] }

theorem task_sent : alice.sendMessage calm.ambient (transparent.sign aliceKey) bob.identity.agentId
    .taskRequest (.text ⟨"summarize", "en"⟩) true none = .ok (waiting, task) := rfl

theorem tells_iff_task :
    Tells (waiting.deliverAll calm
        (repliesTo bob (bob.processInbound calm (some task.toJson)).1
          alice.identity.agentId)).futures[
          alice.futures.length]? (bob.processInbound calm (some task.toJson)).2 ↔
      ¬ bob.Decides calm (some task.toJson) := tells_iff calm calm task_sent

/-- The handler returns normally, and the sender still waits after all replies. -/
theorem returned_but_pending :
    worker.autoAck = true ∧
      (worker.processInbound calm (some task.toJson)).2 = .handled (.custom 0) none ∧
      (waiting.deliverAll calm (repliesTo worker (worker.processInbound calm (some task.toJson)).1
        alice.identity.agentId)).futures[alice.futures.length]? = some .pending ∧
      ¬ Tells (waiting.deliverAll calm
        (repliesTo worker (worker.processInbound calm (some task.toJson)).1
          alice.identity.agentId)).futures[alice.futures.length]?
        (worker.processInbound calm (some task.toJson)).2 := by
  have accepted : worker.Accepted calm (some task.toJson) task (.custom 0) := by
    refine ⟨?_, admitted_of_registered rfl task_sent rfl rfl rfl, rfl, rfl⟩
    rw [parsed, Option.bind_some, TPCPEnvelope.modelValidate_toJson rfl]
    rfl
  have handled : (worker.processInbound calm (some task.toJson)).2 = .handled (.custom 0) none := by
    rw [processInbound_of_accepted accepted]
    rfl
  have pending := future_pending worker calm calm task_sent
  refine ⟨rfl, handled, pending, ?_⟩
  rw [pending, handled, tells_pending_iff]
  simp

end TPCPNode

end AgentTelepathy
