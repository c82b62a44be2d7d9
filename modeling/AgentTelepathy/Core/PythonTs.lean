import AgentTelepathy.Core.Session
import AgentTelepathy.Core.TsSession
import AgentTelepathy.Schemas.TsAcceptance

/-!
# Messages of the Python node at a TypeScript node

The text of `send_message` at a TypeScript node that knows the key of the sender. The schema of
envelopes reads it, and the signature is checked over the text that JavaScript has for the payload.
So the node routes exactly the payloads that the schema admits and that both languages write alike.
-/

namespace AgentTelepathy.TypeScript

open Foundation Schema Transition

variable {z : Zod}

/-- What a TypeScript node makes of a Python envelope that it reads. -/
def TPCPEnvelope.ofPython (e : AgentTelepathy.TPCPEnvelope) : TPCPEnvelope :=
  ⟨e.header.messageId.toText, e.header.senderId.toText, e.header.intent, e.header.ttl,
    Ecma.Value.parse (emitted e.payload.modelDump), e.signature⟩

theorem natural?_ofInt {n : ℕ} (safe : Safe n) : natural? (.float (Float64.ofInt n)) = some n := by
  have value : (Float64.ofInt n).number = .rat (n : ℤ) :=
    Float64.isDouble_of_natAbs_le (le_of_lt safe)
  rw [natural?, value]
  simp

/-- An envelope with finite numbers is read as it was sent exactly if it is readable. -/
theorem read_eq_iff {e : AgentTelepathy.TPCPEnvelope}
    (finite : emitted e.payload.modelDump = e.payload.modelDump) :
    TPCPEnvelope.read z (received e) = some (.ofPython e) ↔ Readable z e := by
  have data : received e = .obj [("header", e.header.toJson.toDoubles),
      ("payload", e.payload.modelDump.toDoubles), ("signature", optional .str e.signature),
      ("ack_info", optional (fun a => a.toJson.toDoubles) e.ackInfo),
      ("chunk_info", optional (fun c => c.toJson.toDoubles) e.chunkInfo)] := by
    rw [received, AgentTelepathy.TPCPEnvelope.toJson, finite, toDoubles_obj]
    simp only [List.map_cons, List.map_nil, toDoubles_optional]
    rfl
  constructor
  · intro read
    obtain ⟨parsed, accepted, rest⟩ := Option.bind_eq_some_iff.mp read
    obtain ⟨header, -, rest⟩ := Option.bind_eq_some_iff.mp rest
    obtain ⟨payload, found, rest⟩ := Option.bind_eq_some_iff.mp rest
    have same : payload.toDoubles = e.payload.modelDump.toDoubles := by
      split at rest
      · obtain ⟨intent, -, rest⟩ := Option.bind_eq_some_iff.mp rest
        obtain ⟨ttl, -, rest⟩ := Option.bind_eq_some_iff.mp rest
        have value := congrArg (fun e => e.payload.json) (Option.some.inj rest)
        dsimp only [Ecma.Value.parse, TPCPEnvelope.ofPython] at value
        rw [value, finite]
      · cases rest
    have plain := plain_of_envelope finite accepted found same
    exact ((tests_envelope z finite plain).on_iff.mp accepted).1
  · intro readable
    have plain : ∀ q, e.payload = .crdtSync q →
        "__proto__" ∉ q.state.keys ∧ "__proto__" ∉ q.vectorClock.keys := by
      intro q isSync
      have admitted := readable.admitted
      rw [isSync] at admitted
      exact ⟨admitted.1, admitted.2.1⟩
    have accepted := (tests_envelope z finite plain).on_iff.mpr ⟨readable, rfl⟩
    have header : e.header.toJson.toDoubles = .obj [("message_id", .str e.header.messageId.toText),
      ("timestamp", .str e.header.timestamp.toText), ("sender_id", .str e.header.senderId.toText),
      ("receiver_id", .str e.header.receiverId.toText), ("intent", .str e.header.intent.value),
      ("ttl", .float (Float64.ofInt e.header.ttl)),
      ("protocol_version", .str e.header.protocolVersion)] := rfl
    have payload : Ecma.Value.parse e.payload.modelDump.toDoubles =
        Ecma.Value.parse (emitted e.payload.modelDump) := by
      simp only [Ecma.Value.parse, Json.toDoubles_toDoubles, finite]
    rw [TPCPEnvelope.read, accepted, data, header]
    simp only [Json.get?, List.lookup_cons, Option.bind_eq_bind, Option.bind_some, String.reduceBEq,
      beq_self_eq_true, Intent.ofValue?_value, natural?_ofInt readable.ttl, payload]
    rw [TPCPEnvelope.ofPython]
    cases e.signature <;> rfl

/-- The signature of a payload does not verify the text that JavaScript has for it, unless this
is what was signed. -/
def Telling (ed : Ed25519) (key : ed.PrivateKey) (payload : Json) : Prop :=
  ed.verify (ed.publicBytes key) (ed.sign key (canonical payload))
      (utf8 (Ecma.stringify (Ecma.Value.parse (emitted payload)))) = true →
    canonical payload = utf8 (Ecma.stringify (Ecma.Value.parse (emitted payload)))

/-- A TypeScript node verifies what Python has signed exactly if both write it alike. -/
theorem verifySignature_signBytes_iff (ed : Ed25519) (key : ed.PrivateKey)
    (length : ∀ data, (ed.sign key data).length = 64) {payload : Json}
    (distinct : payload.tree.Distinct) (telling : Telling ed key payload) :
    verifySignature ed.verify (Base64.encode (ed.publicBytes key))
      (AgentIdentityManager.signBytes (ed.sign key) (canonical payload))
      (Ecma.Value.parse (emitted payload)) = true ↔ Ecma.Alike payload := by
  rw [← canonical_eq_stringify_iff distinct, verifySignature, AgentIdentityManager.signBytes,
    atob_encode, atob_encode]
  simp only [ed.length_publicBytes, length, decide_true, Bool.true_and]
  refine ⟨telling, fun same => ?_⟩
  rw [← same]
  exact ed.verify_sign key _

theorem safe_ttl {M : Type} (s : AgentTelepathy.TPCPNode M) (ambient : Ambient) (target : UUID)
    (intent : Intent) : Safe (s.createHeader ambient target intent).ttl := by
  change (30 : ℤ).natAbs < 2 ^ 53
  decide

/-- A node that knows the key of the sender passes a signed envelope exactly if both languages
write its payload alike. -/
theorem passes_ofPython_iff (ed : Ed25519) (key : ed.PrivateKey)
    (length : ∀ data, (ed.sign key data).length = 64) {p : Platform} (nacl : p.nacl = ed.verify)
    {e : AgentTelepathy.TPCPEnvelope} (signature : e.signature =
      some (AgentIdentityManager.signBytes (ed.sign key) (canonical e.payload.modelDump)))
    (noHandshake : e.header.intent ≠ .handshake) (alive : 0 < e.header.ttl)
    (distinct : e.payload.modelDump.tree.Distinct) (telling : Telling ed key e.payload.modelDump)
    {n : TPCPNode} {address : String} (known : n.peerRegistry.get? e.header.senderId.toText =
      some ⟨Base64.encode (ed.publicBytes key), address⟩) :
    n.Passes p (.ofPython e) ↔ Ecma.Alike e.payload.modelDump := by
  have signed : (TPCPEnvelope.ofPython e).signed =
      some (AgentIdentityManager.signBytes (ed.sign key) (canonical e.payload.modelDump)) :=
    Option.filter_eq_some_iff.mpr
      ⟨signature, decide_eq_true (Base64.encode_ne_empty (ed.sign_ne_nil key _))⟩
  rw [← verifySignature_signBytes_iff ed key length distinct telling, ← nacl]
  constructor
  · rintro ⟨-, handshake | ⟨_, peer, signed', found, verified⟩⟩
    · exact absurd handshake noHandshake
    · obtain rfl := Option.some.inj (known.symm.trans found)
      obtain rfl := Option.some.inj (signed.symm.trans signed')
      exact verified
  · exact fun verified => ⟨alive, .inr ⟨_, _, signed, known, verified⟩⟩

/-- A text that arrives is routed as it was sent, and once, exactly if it is readable and both
languages write its payload alike. -/
theorem routedAs_ofPython_iff {e : AgentTelepathy.TPCPEnvelope}
    (noHandshake : e.header.intent ≠ .handshake) {p : Platform} {n m : TPCPNode}
    (passes : n.Passes p (.ofPython e) ↔ Ecma.Alike e.payload.modelDump)
    {actions : List TPCPNode.Action} {publicKey : String}
    (receives : n.Receives p actions m e.header.senderId.toText publicKey
      e.header.messageId.toText (TPCPEnvelope.read z (received e))) :
    (∃ time, m.routedAs e.header.messageId.toText = [(.ofPython e, time)]) ↔
      Readable z e ∧ Ecma.Alike e.payload.modelDump := by
  constructor
  · rintro ⟨time, routed⟩
    have listed : (.ofPython e, time) ∈ m.routedAs e.header.messageId.toText := by
      rw [routed]
      exact List.mem_singleton.mpr rfl
    have member := (List.mem_filter.mp listed).1
    have new : (.ofPython e, time) ∉ n.routed := fun before => by
      have there : (.ofPython e, time) ∈ n.routedAs e.header.messageId.toText :=
        List.mem_filter.mpr ⟨before, decide_eq_true rfl⟩
      rw [receives.unrouted] at there
      cases there
    have alike := passes.mp
      ((TPCPNode.passes_of_run receives.run member receives.entry).resolve_left new)
    have read := receives.own _
      ((TPCPNode.routed_of_run receives.run _ member).resolve_left new) rfl
    exact ⟨(read_eq_iff (emitted_of_alike _ alike)).mp read.symm, alike⟩
  · rintro ⟨readable, alike⟩
    rw [(read_eq_iff (emitted_of_alike _ alike)).mpr readable] at receives
    have delivered := TPCPNode.delivered receives.run (passes.mpr alike) noHandshake
      receives.fresh receives.unrouted receives.entry receives.soon
      fun h member same => Option.some.inj (receives.own h member same)
    obtain ⟨time, -, -, once⟩ := delivered.once receives.arrives
    exact ⟨time, once⟩

/-- The text of a Python message arrives, once or more often, at a TypeScript node that knows the
key of the sender. The node routes what was sent, and does so once, exactly if the ids are UUIDs
for the schema, the schema admits the payload, and both languages write it alike. -/
theorem python_heard_iff (ed : Ed25519) (key : ed.PrivateKey)
    (length : ∀ data, (ed.sign key data).length = 64) {p : Platform} (nacl : p.nacl = ed.verify)
    {M : Type} {s s' : AgentTelepathy.TPCPNode M} {ambient : Ambient} {target : UUID}
    {intent : Intent} {payload : Payload} {requireAck : Bool} {chunkInfo : Option ChunkInfo}
    {e : AgentTelepathy.TPCPEnvelope}
    (sent : s.sendMessage ambient (ed.sign key) target intent payload requireAck chunkInfo =
      .ok (s', e)) (noHandshake : intent ≠ .handshake)
    (random : z.isUuid ambient.uuid4.toText = true) (distinct : payload.modelDump.tree.Distinct)
    (telling : Telling ed key payload.modelDump) {n m : TPCPNode} {actions : List TPCPNode.Action}
    (receives : n.Receives p actions m s.identity.agentId.toText
      (Base64.encode (ed.publicBytes key)) ambient.uuid4.toText
      (TPCPEnvelope.read z (received e))) :
    (∃ time, m.routedAs ambient.uuid4.toText = [(.ofPython e, time)]) ↔
      z.isUuid s.identity.agentId.toText = true ∧ z.isUuid target.toText = true ∧
        Admits payload ∧ Ecma.Alike payload.modelDump := by
  obtain ⟨made, -⟩ := Session.sendMessage_ok sent
  have header : e.header = s.createHeader ambient target intent := by rw [made]
  have body : e.payload = payload := by rw [made]
  have alone : e.ackInfo = none ∧ e.chunkInfo = none := by rw [made]; exact ⟨rfl, rfl⟩
  have signature : e.signature =
      some (AgentIdentityManager.signBytes (ed.sign key) (canonical e.payload.modelDump)) := by
    rw [made]
  have other : e.header.intent ≠ .handshake := by rw [header]; exact noHandshake
  have alive : 0 < e.header.ttl := by rw [header]; exact Nat.succ_pos 29
  have receives' : n.Receives p actions m e.header.senderId.toText
      (Base64.encode (ed.publicBytes key)) e.header.messageId.toText
      (TPCPEnvelope.read z (received e)) := by
    rw [header]
    exact receives
  obtain ⟨address, known⟩ := receives'.known
  rw [← body] at distinct telling ⊢
  have heard := routedAs_ofPython_iff other (passes_ofPython_iff ed key length nacl signature other
    alive distinct telling known) receives'
  rw [header] at heard
  refine heard.trans ⟨?_, ?_⟩
  · rintro ⟨readable, alike⟩
    have addressed := readable.addressed
    rw [header] at addressed
    exact ⟨addressed.2.1, addressed.2.2, readable.admitted, alike⟩
  · rintro ⟨sender, receiver, admits, alike⟩
    refine ⟨⟨?_, ?_, admits, ?_, ?_⟩, alike⟩
    · rw [header]
      exact ⟨random, sender, receiver⟩
    · rw [header]
      exact safe_ttl s ambient target intent
    · rw [alone.1]
      exact fun a member => absurd member (Option.not_mem_none a)
    · rw [alone.2]
      exact fun c member => absurd member (Option.not_mem_none c)

/-- Two copies of a text are heard once. -/
theorem python_heard_iff_twice :
    let z := Zod.plain Zod.hasUuidForm Zod.hasUuidForm_chars
    let key : sized.PrivateKey := ⟨List.replicate 32 0, rfl⟩
    let p : Platform := ⟨fun _ => none, fun _ => "", sized.verify⟩
    let s : AgentTelepathy.TPCPNode Unit := .init ⟨⟨0, 0, 0x4000, 0x8000, 1⟩, "Python", [],
      Base64.encode (sized.publicBytes key), ["text"]⟩ false none ()
    let target : UUID := ⟨0, 0, 0x4000, 0x8000, 2⟩
    let ambient := Ambient.strict ⟨0, 0, 0x4000, 0x8000, 3⟩
      ⟨2026, 3, 1, 12, 0, 0, 0, DateTime.valid_noon⟩
    ∃ s' e n m time,
      s.sendMessage ambient (sized.sign key) target .critique (.text ⟨"hello", "en"⟩) false none =
        .ok (s', e) ∧
      Run (OfPartial (TPCPNode.step p)) n [.frame (TPCPEnvelope.read z (received e)),
        .frame (TPCPEnvelope.read z (received e))] m ∧
      m.routedAs ambient.uuid4.toText = [(.ofPython e, time)] := by
  intro z key p s target ambient
  let e : AgentTelepathy.TPCPEnvelope := ⟨s.createHeader ambient target .critique,
    .text ⟨"hello", "en"⟩, some (AgentIdentityManager.signBytes (sized.sign key)
      (canonical (Payload.text ⟨"hello", "en"⟩).modelDump)), none, none⟩
  have sent : s.sendMessage ambient (sized.sign key) target .critique (.text ⟨"hello", "en"⟩) false
      none = .ok (s.dispatchEnvelope target e, e) := rfl
  have distinct : (Payload.text ⟨"hello", "en"⟩).modelDump.tree.Distinct := by
    refine ⟨?_, trivial, trivial, trivial, trivial, trivial, trivial, trivial⟩
    decide
  have alike : Ecma.Alike (Payload.text ⟨"hello", "en"⟩).modelDump := by
    refine ⟨?_, trivial, trivial, trivial, trivial, trivial, trivial, trivial⟩
    change ∀ j ∈ ["payload_type", "content", "language"], ∀ k ∈ _, _
    decide
  have random : z.isUuid ambient.uuid4.toText = true := by decide
  have sender : z.isUuid s.identity.agentId.toText = true := by decide
  have receiver : z.isUuid target.toText = true := by decide
  have arrival : TPCPEnvelope.read z (received e) = some (.ofPython e) :=
    (read_eq_iff (emitted_of_alike _ alike)).mpr
      ⟨⟨random, sender, receiver⟩, safe_ttl s ambient target .critique, trivial,
        fun a member => absurd member (Option.not_mem_none a),
        fun c member => absurd member (Option.not_mem_none c)⟩
  obtain ⟨n, m, receives⟩ := TPCPNode.exists_receives_twice p s.identity.agentId.toText
    (Base64.encode (sized.publicBytes key)) ambient.uuid4.toText (e := .ofPython e)
    (show Intent.critique ≠ .handshake by decide)
  rw [← arrival] at receives
  have telling : Telling sized key (Payload.text ⟨"hello", "en"⟩).modelDump :=
    fun _ => (canonical_eq_stringify_iff distinct).mpr alike
  obtain ⟨time, once⟩ := (python_heard_iff sized key (length_sign_sized key) rfl sent (by decide)
    random distinct telling receives).mpr ⟨sender, receiver, trivial, alike⟩
  exact ⟨_, e, n, m, time, sent, receives.run, once⟩

end AgentTelepathy.TypeScript
