import AgentTelepathy.Core.GoNode
import AgentTelepathy.Core.Inbound
import AgentTelepathy.Schemas.GoPortable

/-!
# Messages of the Go node at a Python node

The frame of `SendMessage` at a Python node that knows the key of the sender. Python reads
the document of the payload and checks the signature over its own canonical text of what
it has read. So it accepts exactly the portable payloads.
-/

namespace AgentTelepathy.Go

open Foundation GoJson
open AgentTelepathy.Reader
open AgentIdentityManager (getPublicKeyString)

/-! ### The frame -/

/-- The header of a message. -/
def headerData (messageId timestamp senderId receiverId intent : String) : Json :=
  .obj [("message_id", .str messageId), ("timestamp", .str timestamp),
    ("sender_id", .str senderId), ("receiver_id", .str receiverId), ("intent", .str intent),
    ("ttl", .int 30), ("protocol_version", .str "0.4.0")]

/-- The frame of an envelope as `json.loads` returns it in Python. There is no `ack_info`
and no `chunk_info`. -/
def frameData (timestamp receiverId : String) (env : TPCPEnvelope) : Json :=
  .obj ([("header", headerData env.messageId timestamp env.senderId receiverId env.intent),
    ("payload", (env.payload.map fun raw => emitter.received (tree raw)).getD .null)] ++
      if env.signature = "" then [] else [("signature", .str env.signature)])

/-- A Python node reads the frame and finds that it is signed with a key. -/
def AcceptedByPython (ambient : Ambient) (verify : Verifier) (publicKey : String) (frame : Json) :
    Prop :=
  ∃ e signature, AgentTelepathy.TPCPEnvelope.modelValidate ambient frame = .ok e ∧
    e.signature? = some signature ∧
      AgentTelepathy.TPCPNode.verifies verify publicKey signature e = true

variable {ambient : Ambient} {messageId timestamp agentId receiverId intent signature : String}
  {raw : Document} {header : MessageHeader}

/-- What Python reads of a signed frame. -/
theorem modelValidate_frameData (signed : signature ≠ "")
    (readable : MessageHeader.modelValidate ambient
      (headerData messageId timestamp agentId receiverId intent) = .ok header)
    {e : AgentTelepathy.TPCPEnvelope} :
    AgentTelepathy.TPCPEnvelope.modelValidate ambient
        (frameData timestamp receiverId ⟨messageId, agentId, intent, some raw, signature⟩) =
          .ok e ↔
      ∃ q, Payload.modelValidate ambient (emitter.received (tree raw)) = .ok q ∧
        e = ⟨header, q, some signature, none, none⟩ := by
  have absent {β : Type} (name : String) (read : Reader (Option β)) :
      defaulted (.obj []) name none read = .ok none := rfl
  rw [frameData, if_neg signed]
  simp only [AgentTelepathy.TPCPEnvelope.modelValidate, model, required_cons, defaulted_cons,
    bind_eq_ok, within_eq_ok, readable, List.cons_append, List.nil_append, String.reduceEq,
    if_true, if_false, Except.ok.injEq, exists_eq_left', Reader.optional, str, Except.map, absent,
    Option.map_some, Option.getD_some]
  exact exists_congr fun q => and_congr_right fun _ => ⟨fun h => by cases h; rfl, fun h => h ▸ rfl⟩

/-! ### The signature -/

theorem words_documents (t : JsonTree Decimal) : documents.Words t :=
  JsonTree.passes_of_forall ⟨fun _ => (isToken_numberText _).isWord, fun _ => trivial,
    fun _ => trivial⟩ t

/-- Go signs the bytes that Python checks exactly if the values agree. -/
theorem bytes_eq_canonical_iff {t : JsonTree Decimal} {w : Json} :
    bytes (documents.text t) = canonical w ↔
      Dialect.Agree documents Dialect.python t w.tree := by
  rw [canonical_eq_bytes, bytes_injective.eq_iff]
  exact Dialect.text_eq_iff_agree (words_documents t) (Dialect.words_python _)

/-- What Go signs of a document that it can read. -/
theorem canonicalJSON_eq {v : GoValue} {data : Bytes} (written : canonicalJSON v = some data) :
    ∃ raw, marshalValue v = some raw ∧ data = bytes (documents.text (tree raw)) := by
  rw [canonicalJSON, Option.bind_eq_some_iff] at written
  obtain ⟨raw, marshalled, read⟩ := written
  obtain ⟨v, reads, rfl⟩ := Option.map_eq_some_iff.mp read
  rw [unmarshal] at reads
  split_ifs at reads with inRange
  obtain rfl := Option.some.inj reads
  exact ⟨raw, marshalled, by rw [marshalSorted_eq (distinct_decode raw), text_decode]⟩

/-- The document of a payload is the record of its fields. -/
theorem tree_value {p : Payload} (marshalled : marshalValue p.value = some raw) :
    tree raw = .obj (JsonTree.present (rows p.fields)) := by
  refine tree_struct marshalled ?_
  have names : p.fields.map (fun f => f.1.name) = AgentTelepathy.Payload.namesOf p.kind := by
    rw [← p.keys_rows, rows, List.map_map]
    rfl
  exact names ▸ AgentTelepathy.Payload.nodup_namesOf _ p.kind_mem

/-! ### Acceptance -/

/-- A valid payload that can be written is sent with a signature. -/
theorem sendMessage_of_valid {ed : Ed25519} {key : ed.PrivateKey} {payload : GoValue}
    {validate : Option String} {data : Bytes} (valid : validate = none)
    (marshalled : marshalValue payload = some raw) (written : canonicalJSON payload = some data) :
    sendMessage ed agentId (some key) true messageId intent payload validate =
      .ok ⟨messageId, agentId, intent, some raw, sign ed key data⟩ := by
  subst valid
  simp [sendMessage, marshalled, written]

/-- What Python checks of a signature that was made for some bytes. -/
theorem verifies_sign (ed : Ed25519) (key : ed.PrivateKey) (data : Bytes)
    (e : AgentTelepathy.TPCPEnvelope) :
    AgentTelepathy.TPCPNode.verifies ed.verify (getPublicKeyString (ed.publicBytes key))
        (sign ed key data) e =
      ed.verify (ed.publicBytes key) (ed.sign key data) (canonical e.payload.modelDump) :=
  AgentIdentityManager.verifyBytes_encode (ed.length_publicBytes key)

/-- A sent frame is accepted exactly if Python reads its payload as one for whose bytes the
signature stands. -/
theorem acceptedByPython_sent {ed : Ed25519} {key : ed.PrivateKey} {data : Bytes}
    (readable : MessageHeader.modelValidate ambient
      (headerData messageId timestamp agentId receiverId intent) = .ok header) :
    AcceptedByPython ambient ed.verify (getPublicKeyString (ed.publicBytes key))
        (frameData timestamp receiverId
          ⟨messageId, agentId, intent, some raw, sign ed key data⟩) ↔
      ∃ q, Payload.modelValidate ambient (emitter.received (tree raw)) = .ok q ∧
        ed.verify (ed.publicBytes key) (ed.sign key data) (canonical q.modelDump) = true := by
  have signed : sign ed key data ≠ "" := Base64.encode_ne_empty (ed.sign_ne_nil key data)
  constructor
  · rintro ⟨e, signature, parsed, here, verified⟩
    obtain ⟨q, read, rfl⟩ := (modelValidate_frameData signed readable).mp parsed
    obtain ⟨same, -⟩ := Option.filter_eq_some_iff.mp here
    obtain rfl := Option.some.inj same
    exact ⟨q, read, (verifies_sign ed key data _).symm.trans verified⟩
  · rintro ⟨q, read, verified⟩
    refine ⟨_, _, (modelValidate_frameData signed readable).mpr ⟨q, read, rfl⟩,
      AgentTelepathy.TPCPNode.signature?_eq_some rfl signed, ?_⟩
    exact (verifies_sign ed key data _).trans verified

section Sent

variable {p : Payload} {data : Bytes} {corrupt : Bytes → String}

/-- What Python signs of the payload it reads is what Go has signed of it, exactly if the
payload is portable. -/
theorem exists_canonical_iff (ambient : Ambient) (marshalled : marshalValue p.value = some raw) :
    (∃ q, Payload.modelValidate ambient (emitter.received (tree raw)) = .ok q ∧
        bytes (documents.text (tree raw)) = canonical q.modelDump) ↔ p.Portable := by
  rw [← portable_iff ambient, ← tree_value marshalled]
  exact exists_congr fun q => and_congr_right fun _ => bytes_eq_canonical_iff

/-- A Python node that has the key accepts what Go sends of a valid payload, in every
scheme of signatures, exactly if the payload is portable. -/
theorem acceptedByPython_iff_portable (valid : p.validate corrupt = none)
    (written : canonicalJSON p.value = some data)
    (readable : MessageHeader.modelValidate ambient
      (headerData messageId timestamp agentId receiverId intent) = .ok header) :
    (∀ (ed : Ed25519) (key : ed.PrivateKey) (env : TPCPEnvelope),
      sendMessage ed agentId (some key) true messageId intent p.value (p.validate corrupt) =
        .ok env →
      AcceptedByPython ambient ed.verify (getPublicKeyString (ed.publicBytes key))
        (frameData timestamp receiverId env)) ↔ p.Portable := by
  obtain ⟨raw, marshalled, rfl⟩ := canonicalJSON_eq written
  rw [← exists_canonical_iff ambient marshalled]
  constructor
  · intro all
    -- In this scheme a signature stands for no other bytes.
    let key : transparent.PrivateKey := ⟨List.replicate 32 0, List.length_replicate⟩
    have sent : sendMessage transparent agentId (some key) true messageId intent p.value
        (p.validate corrupt) = .ok _ := sendMessage_of_valid valid marshalled written
    obtain ⟨q, read, verified⟩ := (acceptedByPython_sent readable).mp (all _ key _ sent)
    exact ⟨q, read, List.append_cancel_left (of_decide_eq_true verified)⟩
  · rintro ⟨q, read, same⟩ ed key env sent
    obtain ⟨raw', data', marshalled', written', rfl⟩ := sendMessage_cases sent
    obtain rfl := Option.some.inj (marshalled.symm.trans marshalled')
    obtain rfl := Option.some.inj (written.symm.trans written')
    refine (acceptedByPython_sent readable).mpr ⟨q, read, ?_⟩
    rw [← same]
    exact ed.verify_sign key _

end Sent

/-! ### Notes -/

section Notes

/-- A text payload with a language. -/
def note (content : String) : Payload :=
  .text ⟨bytes "text".toList, bytes content.toList, bytes "en".toList⟩

theorem textOf_bytes (s : String) : textOf (bytes s.toList) = s := by
  rw [textOf, runes_bytes, String.ofList_toList]

/-- A note is portable exactly if no character of it is one that Go escapes. -/
theorem portable_note_iff (content : String) : (note content).Portable ↔ Plain content := by
  have language : Given (bytes "en".toList) := by
    refine ⟨by decide, ?_⟩
    rw [PlainText, textOf_bytes]
    decide
  have tagged : Tagged (bytes "text".toList) "text" := textOf_bytes "text"
  have text : PlainText (bytes content.toList) ↔ Plain content := by
    rw [PlainText, textOf_bytes]
  simp only [note, Payload.Portable, tagged, text, language, true_and, and_true]

theorem exists_written_note (content : String) : ∃ raw data,
    marshalValue (note content).value = some raw ∧
      canonicalJSON (note content).value = some data := by
  obtain ⟨raw, marshalled⟩ : ∃ raw, marshalValue (note content).value = some raw := ⟨_, rfl⟩
  have inRange : raw.Passes { number := InRange } := by
    obtain rfl := Option.some.inj marshalled
    exact ⟨trivial, trivial, trivial, trivial, trivial, trivial, trivial, trivial⟩
  refine ⟨raw, marshalSorted (decode raw), marshalled, ?_⟩
  rw [canonicalJSON, marshalled, Option.bind_some, unmarshal, if_pos inRange, Option.map_some]

/-- Python reads the content of a note. -/
theorem modelValidate_note {content : String}
    (marshalled : marshalValue (note content).value = some raw) :
    Payload.modelValidate ambient (emitter.received (tree raw)) = .ok (.text ⟨content, "en"⟩) := by
  have cells : rows (note content).fields = [("payload_type", some (.str "text")),
      ("content", some (.str content)), ("language", some (.str "en"))] := by
    simp only [note, Payload.fields, rows, List.map_cons, List.map_nil, name_always,
      name_omitempty, cell_always, cell_omitempty_string, wire_string, textOf_bytes]
    rfl
  rw [tree_value marshalled, cells]
  rfl

/-- Validation that reads one time of day in milliseconds. -/
def clock : Ambient where
  uuid4 := ⟨0, 0, 0x4000, 0x8000, 0⟩
  now := ⟨2026, 1, 2, 3, 4, 5, 678000, by decide⟩
  laxInt _ := none
  laxFloat _ := none
  laxUuid _ := none
  laxDateTime v :=
    if v = .str "2026-01-02T03:04:05.678Z" then some ⟨2026, 1, 2, 3, 4, 5, 678000, by decide⟩
    else none

/-- The header of a critique. -/
def critique : MessageHeader :=
  ⟨⟨0, 0, 0x4000, 0x8000, 1⟩, ⟨2026, 1, 2, 3, 4, 5, 678000, by decide⟩,
    ⟨0, 0, 0x4000, 0x8000, 10⟩, ⟨0, 0, 0x4000, 0x8000, 11⟩, .critique, 30, "0.4.0"⟩

theorem readable_critique : MessageHeader.modelValidate clock
    (headerData "00000000-0000-4000-8000-000000000001" "2026-01-02T03:04:05.678Z"
      "00000000-0000-4000-8000-00000000000a" "00000000-0000-4000-8000-00000000000b"
      "Critique") = .ok critique := by
  rfl

/-- A note without markup is accepted. -/
theorem acceptedByPython_note :
    (∀ (ed : Ed25519) (key : ed.PrivateKey) (env : TPCPEnvelope),
      sendMessage ed "00000000-0000-4000-8000-00000000000a" (some key) true
          "00000000-0000-4000-8000-000000000001" "Critique" (note "a").value
          ((note "a").validate fun _ => "") = .ok env →
        AcceptedByPython clock ed.verify (getPublicKeyString (ed.publicBytes key))
          (frameData "2026-01-02T03:04:05.678Z" "00000000-0000-4000-8000-00000000000b" env)) ∧
      Plain "a" := by
  obtain ⟨raw, data, -, written⟩ := exists_written_note "a"
  have plain : Plain "a" := by decide
  refine ⟨(acceptedByPython_iff_portable ?_ written readable_critique).mpr ?_, plain⟩
  · rfl
  · exact (portable_note_iff "a").mpr plain

/-- A note with markup is valid and sent, and Python reads it but refuses the signature. -/
theorem not_acceptedByPython_markup :
    let key : transparent.PrivateKey := ⟨List.replicate 32 0, by decide⟩
    let p := note "a<b"
    p.validate (fun _ => "") = none ∧ ∃ env e,
      sendMessage transparent "00000000-0000-4000-8000-00000000000a" (some key) true
        "00000000-0000-4000-8000-000000000001" "Critique" p.value (p.validate fun _ => "") =
          .ok env ∧
      AgentTelepathy.TPCPEnvelope.modelValidate clock
        (frameData "2026-01-02T03:04:05.678Z" "00000000-0000-4000-8000-00000000000b" env) =
          .ok e ∧
      e.signature? = some env.signature ∧
      AgentTelepathy.TPCPNode.verifies transparent.verify
        (getPublicKeyString (transparent.publicBytes key)) env.signature e = false := by
  intro key p
  obtain ⟨raw, data, marshalled, written⟩ := exists_written_note "a<b"
  have signed : sign transparent key data ≠ "" :=
    Base64.encode_ne_empty (transparent.sign_ne_nil key data)
  have parsed := (modelValidate_frameData signed readable_critique).mpr
    ⟨_, modelValidate_note marshalled, rfl⟩
  refine ⟨rfl, _, _, sendMessage_of_valid rfl marshalled written, parsed,
    AgentTelepathy.TPCPNode.signature?_eq_some rfl signed, ?_⟩
  -- The signature is over the text of Go, which escapes `<` where Python does not.
  rw [verifies_sign, ← Bool.not_eq_true]
  intro verified
  have same := List.append_cancel_left (of_decide_eq_true verified)
  obtain ⟨raw', marshalled', rfl⟩ := canonicalJSON_eq written
  obtain rfl := Option.some.inj (marshalled.symm.trans marshalled')
  have portable := (exists_canonical_iff clock marshalled).mp
    ⟨_, modelValidate_note marshalled, same⟩
  exact absurd ((portable_note_iff "a<b").mp portable) (by decide)

end Notes

end AgentTelepathy.Go
