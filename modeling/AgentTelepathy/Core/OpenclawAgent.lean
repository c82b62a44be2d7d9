import AgentTelepathy.Core.TsSession
import AgentTelepathy.Schemas.Validate

/-!
# The OpenClaw agent

The command line agent of the OpenClaw skill is a relay node of the TypeScript library, under an
id that it makes of its key. It sends its own envelopes, which no schema has checked. Its id is no
UUID, so the schemas of the TypeScript and of the Python node refuse whatever it sends, and the
agent itself refuses whatever is sent to it under its id.
-/

namespace AgentTelepathy.OpenclawAgent

open Foundation Transition TypeScript

/-- `agentId` of `cmdInit`, with the letters and digits of the key's text. -/
def agentId (pubKey : String) : String :=
  "openclaw-" ++ String.ofList ((pubKey.toList.take 12).filter Char.isAlphanum)

/-- The payload of `cmdSend` and `cmdBroadcast`. -/
def textPayload (message : String) : Json :=
  .obj [("payload_type", .str "text"), ("content", .str message), ("language", .str "en")]

/-- The envelope that `sendViaRelay` sends, by an agent with the given key. -/
def sendViaRelay (sign : Bytes → Bytes) (pubKey targetId : String) (intent : Intent)
    (payload : Json) (messageId timestamp : String) : Json :=
  signedEnvelope sign (headerJson messageId timestamp (agentId pubKey) targetId intent "0.4")
    payload

theorem toList_agentId (pubKey : String) : (agentId pubKey).toList =
    'o' :: ("penclaw-".toList ++ (pubKey.toList.take 12).filter Char.isAlphanum) := by
  simp [agentId, String.toList_append, String.toList_ofList]

theorem not_isUuid_agentId (z : Zod) (pubKey : String) : ¬ z.isUuid (agentId pubKey) = true := by
  intro isUuid
  have first : 'o' ∈ (agentId pubKey).toList := by simp [toList_agentId]
  exact absurd (z.isUuid_chars _ isUuid 'o' first) (by decide)

/-- The schema of envelopes refuses a header with such an id, whatever the envelope carries. -/
theorem arrive_eq_none {z : Zod} {sign : Bytes → Bytes}
    {messageId timestamp senderId receiverId version : String} {intent : Intent} {payload : Json}
    (other : ¬ (z.isUuid senderId = true ∧ z.isUuid receiverId = true)) :
    TypeScript.TPCPEnvelope.arrive z (signedEnvelope sign
      (headerJson messageId timestamp senderId receiverId intent version) payload) = none := by
  have header : Ecma.reparsed (headerJson messageId timestamp senderId receiverId intent version) =
      headerJson messageId timestamp senderId receiverId intent version := by
    simp [headerJson, Ecma.reparsed, Ecma.reparsedMembers]
  have refused : (tpcpEnvelopeSchema z).on (Ecma.reparsed (signedEnvelope sign
      (headerJson messageId timestamp senderId receiverId intent version) payload)) = none := by
    rw [Option.eq_none_iff_forall_ne_some]
    intro parsed returned
    have whole := Option.join_eq_some_iff.mp returned
    rw [tpcpEnvelopeSchema, z.object_eq] at whole
    obtain ⟨members, _, sent, -, accepted⟩ :=
      Schema.lookup_of_object (by simp) whole List.mem_cons_self
    have found : members.lookup "header" =
        some (headerJson messageId timestamp senderId receiverId intent version) := by
      rw [signedEnvelope, Ecma.reparsed, Ecma.reparsedMembers, header] at sent
      rw [← Json.obj.inj (Option.some.inj sent), List.lookup_cons_self]
    dsimp only at accepted
    rw [found, messageHeaderSchema_headerJson, if_neg fun ids => other ids.2] at accepted
    cases accepted
  rw [TypeScript.TPCPEnvelope.arrive, TypeScript.TPCPEnvelope.read, refused]
  rfl

theorem ofText?_agentId (pubKey : String) : UUID.ofText? (agentId pubKey) = none := by
  have letter : FixedWidth.digit? 16 'o' = none := by decide
  have digit (cs : List Char) : FixedWidth.read 16 ('o' :: cs) = none := by
    rw [FixedWidth.read, FixedWidth.readOnto, letter]
    rfl
  rw [UUID.ofText?, toList_agentId, UUID.format, FixedFormat.read]
  split_ifs
  · rfl
  · rw [List.take_succ_cons, digit]
    rfl

/-- The header decides first in Python, too. -/
theorem modelValidate_error {ambient : Ambient} {sign : Bytes → Bytes}
    {messageId timestamp senderId receiverId version : String} {intent : Intent} {payload : Json}
    (unread : UUID.ofText? senderId = none) (lax : ambient.laxUuid (.str senderId) = none) :
    ∃ error, AgentTelepathy.TPCPEnvelope.modelValidate ambient (signedEnvelope sign
      (headerJson messageId timestamp senderId receiverId intent version) payload) =
        .error error := by
  generalize isHeader : headerJson messageId timestamp senderId receiverId intent version = header
  have sender : Reader.required header "sender_id" (Reader.uuid ambient) =
      .error ⟨["sender_id"], .uuidType⟩ := by
    have found : header.get? "sender_id" = some (.str senderId) := by
      rw [← isHeader]
      rfl
    rw [Reader.required, found]
    simp only [Reader.uuid, unread, lax]
    rfl
  have refused : ∃ error, MessageHeader.modelValidate ambient header = .error error := by
    obtain ⟨members, rfl⟩ : ∃ members, header = .obj members := ⟨_, isHeader.symm⟩
    rw [MessageHeader.modelValidate, Reader.model, sender]
    cases Reader.defaulted (.obj members) "message_id" ambient.uuid4 (Reader.uuid ambient) with
    | error error => exact ⟨error, rfl⟩
    | ok =>
      cases Reader.defaulted (.obj members) "timestamp" ambient.now (Reader.datetime ambient) with
      | error error => exact ⟨error, rfl⟩
      | ok => exact ⟨_, rfl⟩
  obtain ⟨error, refused⟩ := refused
  have first : Reader.required (signedEnvelope sign header payload) "header"
      (MessageHeader.modelValidate ambient) =
        .error { error with loc := "header" :: error.loc } := by
    have found : (signedEnvelope sign header payload).get? "header" = some header := rfl
    rw [Reader.required, found]
    simp only [refused]
    rfl
  rw [signedEnvelope] at first ⊢
  rw [AgentTelepathy.TPCPEnvelope.modelValidate, Reader.model, first]
  exact ⟨_, rfl⟩

/-- Nobody hears an agent of the skill, and nobody can answer it. In a run of a TypeScript node
whose frames are read off texts, none of its envelopes is routed and no handshake registers it;
Python validates none of the envelopes that it sends; and no envelope that is sent to it arrives. -/
theorem openclaw_unheard (z : Zod) (pubKey : String) {p : Platform} {n m : TypeScript.TPCPNode}
    {actions : List TypeScript.TPCPNode.Action}
    (run : Run (OfPartial (TypeScript.TPCPNode.step p)) n actions m)
    (texts : ∀ e, .frame (some e) ∈ actions → ∃ data, TypeScript.TPCPEnvelope.read z data = some e)
    {ambient : Ambient} (lax : ∀ text, 'o' ∈ text.toList → ambient.laxUuid (.str text) = none) :
    (∀ q ∈ m.routed, q.1.senderId = agentId pubKey → q ∈ n.routed) ∧
      ((∀ publicKey address, .registerPeer (agentId pubKey) publicKey address ∉ actions) →
        .removePeer (agentId pubKey) ∉ actions →
          m.peerRegistry.get? (agentId pubKey) = n.peerRegistry.get? (agentId pubKey)) ∧
      (∀ sign targetId intent payload messageId timestamp, ∃ error,
        AgentTelepathy.TPCPEnvelope.modelValidate ambient
          (sendViaRelay sign pubKey targetId intent payload messageId timestamp) = .error error) ∧
      ∀ sign senderId intent payload messageId timestamp sent,
        sendMessage z sign senderId (agentId pubKey) intent payload messageId timestamp =
          some sent → TypeScript.TPCPEnvelope.arrive z sent = none := by
  have stranger (e : TypeScript.TPCPEnvelope) (came : .frame (some e) ∈ actions) :
      e.senderId ≠ agentId pubKey := by
    intro same
    obtain ⟨data, read⟩ := texts e came
    exact not_isUuid_agentId z pubKey (same ▸ isUuid_of_read read)
  refine ⟨fun q member same => ?_, fun registers removes => ?_, fun _ _ _ _ _ _ => ?_,
    fun sign senderId intent payload messageId timestamp sent dispatched => ?_⟩
  · exact (TypeScript.TPCPNode.routed_of_run run q member).resolve_right fun came =>
      stranger q.1 came same
  · have others (action : TypeScript.TPCPNode.Action) (member : action ∈ actions) :
        ¬ action.Writes (agentId pubKey) := by
      cases action with
      | frame received =>
        rintro ⟨e, rfl, -, same⟩
        exact stranger e member same
      | registerPeer id publicKey address => exact fun same => registers _ _ (same ▸ member)
      | removePeer id => exact fun same => removes (same ▸ member)
      | cleanup | tick => exact id
    exact TypeScript.TPCPNode.get?_of_run run others
  · have letter : 'o' ∈ (agentId pubKey).toList := by simp [toList_agentId]
    exact modelValidate_error (ofText?_agentId pubKey) (lax _ letter)
  · obtain ⟨validated, -, rfl⟩ := Option.map_eq_some_iff.mp dispatched
    exact arrive_eq_none fun ids => not_isUuid_agentId z pubKey ids.2

/-- The text of an agent and that of another node arrive. -/
theorem openclaw_unheard_twice :
    let z := Zod.plain Zod.hasUuidForm Zod.hasUuidForm_chars
    let key : sized.PrivateKey := ⟨List.replicate 32 0, rfl⟩
    let pubKey := Base64.encode (sized.publicBytes key)
    let p : Platform := ⟨fun _ => none, fun _ => "", sized.verify⟩
    let ids := ("11111111-1111-4111-8111-111111111111", "22222222-2222-4222-8222-222222222222",
      "33333333-3333-4333-8333-333333333333")
    let heard := TypeScript.TPCPEnvelope.ofSent (sized.sign key) ids.1 ids.2.1 .broadcast
      (textPayload "hello")
    let text := sendViaRelay (sized.sign key) pubKey ids.2.2 .broadcast (textPayload "hi") ids.2.1
      ""
    ∃ m, Run (OfPartial (TypeScript.TPCPNode.step p)) (TypeScript.TPCPNode.initial 0)
        [.frame (TypeScript.TPCPEnvelope.arrive z text), .frame (some heard)] m ∧
      m.peerRegistry.get? (agentId pubKey) = none ∧
        ∀ q ∈ m.routed, q.1.senderId = agentId pubKey →
          q ∈ (TypeScript.TPCPNode.initial 0).routed := by
  intro z key pubKey p ids heard text
  have refused : TypeScript.TPCPEnvelope.arrive z text = none :=
    arrive_eq_none fun ids => not_isUuid_agentId z pubKey ids.1
  have arrival : TypeScript.TPCPEnvelope.arrive z (signedEnvelope (sized.sign key)
      (headerJson ids.1 "" ids.2.1 ids.2.2 .broadcast "0.4") (textPayload "hello")) = some heard :=
    (arrive_signedEnvelope _ _ _ _ _ _ _ (by rfl)).trans (if_pos (by decide))
  have read (e : TypeScript.TPCPEnvelope) (came : .frame (some e) ∈
      [TypeScript.TPCPNode.Action.frame (TypeScript.TPCPEnvelope.arrive z text),
        .frame (some heard)]) :
      ∃ data, TypeScript.TPCPEnvelope.read z data = some e := by
    rw [refused, List.mem_cons, List.mem_singleton] at came
    rcases came with none | same
    · cases none
    · cases same
      exact ⟨_, arrival⟩
  let first := ((TypeScript.TPCPNode.initial 0).handleInbound p
    (TypeScript.TPCPEnvelope.arrive z text)).1
  have run : Run (OfPartial (TypeScript.TPCPNode.step p)) (TypeScript.TPCPNode.initial 0)
      [.frame (TypeScript.TPCPEnvelope.arrive z text), .frame (some heard)]
      (first.handleInbound p (some heard)).1 :=
    (Run.single (t := first) rfl).append (Run.single rfl)
  let ambient := Ambient.strict UUID.nil ⟨2026, 3, 1, 12, 0, 0, 0, DateTime.valid_noon⟩
  have lax (text : String) (_ : 'o' ∈ text.toList) : ambient.laxUuid (.str text) = none := rfl
  obtain ⟨routed, registry, -⟩ := openclaw_unheard z pubKey run read lax
  exact ⟨_, run, registry (by simp) (by simp), routed⟩

end AgentTelepathy.OpenclawAgent
