import AgentTelepathy.Foundation.JsonRead
import AgentTelepathy.Schemas.Validate
import AgentTelepathy.Security.Crypto

/-!
# The wire round trip

Each reader inverts the dump of its type, and so validation inverts dumping for
every payload type and for whole envelopes. What the receiver validates is the
envelope that was sent; a signature over the sender's payload verifies there.
-/

namespace AgentTelepathy

open Foundation

/-! ### Finite data -/

mutual

/-- Whether all floats of a value are finite. -/
def allFinite : Json → Bool
  | .float (.finite _) => true
  | .float _ => false
  | .arr items => allFiniteItems items
  | .obj members => allFiniteMembers members
  | _ => true

def allFiniteItems : List Json → Bool
  | [] => true
  | v :: items => allFinite v && allFiniteItems items

def allFiniteMembers : List (String × Json) → Bool
  | [] => true
  | (_, v) :: members => allFinite v && allFiniteMembers members

end

mutual

/-- Finite data is emitted as it is. -/
theorem emitted_of_allFinite : ∀ v : Json, allFinite v = true → emitted v = v
  | .null, _ | .bool _, _ | .int _, _ | .str _, _ => rfl
  | .float f, finite => by
    cases f with
    | finite b => rfl
    | infinite neg => cases finite
    | nan => cases finite
  | .arr items, finite => congrArg Json.arr (emittedItems_of_allFinite items finite)
  | .obj members, finite => congrArg Json.obj (emittedMembers_of_allFinite members finite)

theorem emittedItems_of_allFinite : ∀ l : List Json, allFiniteItems l = true → emittedItems l = l
  | [], _ => rfl
  | v :: l, finite => by
    obtain ⟨first, rest⟩ := Bool.and_eq_true_iff.mp finite
    rw [emittedItems, emitted_of_allFinite v first, emittedItems_of_allFinite l rest]

theorem emittedMembers_of_allFinite :
    ∀ l : List (String × Json), allFiniteMembers l = true → emittedMembers l = l
  | [], _ => rfl
  | (k, v) :: l, finite => by
    obtain ⟨first, rest⟩ := Bool.and_eq_true_iff.mp finite
    rw [emittedMembers, emitted_of_allFinite v first, emittedMembers_of_allFinite l rest]

end

/-! ### Readers invert dumps -/

namespace Reader

variable {α : Type} {ambient : Ambient}

theorem within_ok (name : String) (a : α) : within name (.ok a) = .ok a := rfl

theorem get?_obj_cons (k : String) (v : Json) (members : List (String × Json)) (name : String) :
    (Json.obj ((k, v) :: members)).get? name =
      if name = k then some v else (Json.obj members).get? name := by
  by_cases same : name = k
  · simp [Json.get?, same]
  · have differ : (name == k) = false := beq_eq_false_iff_ne.mpr same
    simp [Json.get?, List.lookup_cons, differ, same]

theorem uuid_toText (u : UUID) : uuid ambient (.str u.toText) = .ok u := by
  rw [uuid, UUID.ofText?_toText]

theorem datetime_toText (t : DateTime) : datetime ambient (.str t.toText) = .ok t := by
  rw [datetime, DateTime.ofText?_toText]

theorem intent_value (i : Intent) : intent (.str i.value) = .ok i := by
  rw [intent, Intent.ofValue?_value]
  rfl

theorem nonNegative_natCast (n : ℕ) : nonNegative ambient (.int n) = .ok n := by
  simp [nonNegative, int, Except.bind]

theorem positive_natCast {n : ℕ} (h : 0 < n) (kind : ErrorKind) :
    positive ambient kind (.int n) = .ok ⟨n, h⟩ := by
  simp [positive, int, Except.bind, h]

theorem base64_text (d : Base64Data) : base64 (.str d.text) = .ok d := by
  simp [base64, str, Except.bind, d.decodes]

section Lifting

variable (read : Reader α) (dump : α → Json)

/-- An optional value is read back when its type is and no value dumps to null. -/
theorem optional_dump (reads : ∀ a, read (dump a) = .ok a) (proper : ∀ a, dump a ≠ .null)
    (value : Option α) : optional read (AgentTelepathy.optional dump value) = .ok value := by
  cases value with
  | none => rfl
  | some a =>
    have ok := reads a
    have notNull := proper a
    rw [AgentTelepathy.optional, Option.elim_some]
    generalize dump a = v at ok notNull
    cases v with
    | null => exact absurd rfl notNull
    | _ => simp only [optional, ok, Except.map]

theorem items_dump (reads : ∀ a, read (dump a) = .ok a) (i : ℕ) (values : List α) :
    items read i (values.map dump) = .ok values := by
  induction values generalizing i with
  | nil => rfl
  | cons a values ih =>
    rw [List.map_cons, items, reads, within_ok, ih]
    rfl

theorem list_dump (reads : ∀ a, read (dump a) = .ok a) (values : List α) :
    list read (.arr (values.map dump)) = .ok values := items_dump read dump reads 0 values

theorem members_dump (reads : ∀ a, read (dump a) = .ok a) (entries : List (String × α)) :
    members read (entries.map fun entry => (entry.1, dump entry.2)) = .ok entries := by
  induction entries with
  | nil => rfl
  | cons entry entries ih =>
    rw [List.map_cons, members, reads, within_ok, ih]
    rfl

theorem dict_dump (reads : ∀ a, read (dump a) = .ok a) (d : Dict String α) :
    dict read (.obj (d.items.map fun entry => (entry.1, dump entry.2))) = .ok d := by
  rw [dict, members_dump read dump reads, Except.map, Dict.ofItems_items]

end Lifting

theorem dict_any (d : Dict String Json) : dict any (.obj d.items) = .ok d := by
  have read := dict_dump any id (fun _ => rfl) d
  simpa using read

theorem optional_str (value : Option String) :
    optional str (AgentTelepathy.optional .str value) = .ok value :=
  optional_dump str .str (fun _ => rfl) (by simp) value

theorem optional_int (value : Option ℤ) :
    optional (int ambient) (AgentTelepathy.optional .int value) = .ok value :=
  optional_dump (int ambient) .int (fun _ => rfl) (by simp) value

theorem optional_float (value : Option Float64) :
    optional (float ambient) (AgentTelepathy.optional .float value) = .ok value :=
  optional_dump (float ambient) .float (fun _ => rfl) (by simp) value

end Reader

open Reader

variable {ambient : Ambient}

namespace Payload

theorem readText_modelDump (p : TextPayload) : readText (modelDump (.text p)) = .ok p := by
  simp [readText, modelDump, modelDumpItems, required, defaulted, get?_obj_cons, literal, str,
    within_ok, bind, Except.bind, pure, Except.pure]

theorem readVectorEmbedding_modelDump (p : VectorEmbeddingPayload) :
    readVectorEmbedding ambient (modelDump (.vectorEmbedding p)) = .ok p := by
  have vector : list (float ambient) (.arr (p.vector.map Json.float)) = .ok p.vector :=
    list_dump (float ambient) .float (fun _ => rfl) p.vector
  have valid : validateEmbedding p.modelId ⟨p.dimensions, p.positive⟩ p.vector p.rawTextFallback =
      .ok p := by
    rw [validateEmbedding, dif_pos p.length_eq, dif_pos p.known]
  simp [readVectorEmbedding, modelDump, modelDumpItems, required, defaulted, get?_obj_cons,
    literal, str, within_ok, vector, positive_natCast p.positive, optional_str, valid, bind,
    Except.bind]

theorem readCrdtSync_modelDump (p : CRDTSyncPayload) :
    readCrdtSync ambient (modelDump (.crdtSync p)) = .ok p := by
  have clock := dict_dump (int ambient) .int (fun _ => rfl) p.vectorClock
  simp [readCrdtSync, modelDump, modelDumpItems, required, defaulted, get?_obj_cons, literal, str,
    within_ok, dict_any, clock, bind, Except.bind, pure, Except.pure]

theorem readImage_modelDump (p : ImagePayload) :
    readImage ambient (modelDump (.image p)) = .ok p := by
  simp [readImage, modelDump, modelDumpItems, required, defaulted, get?_obj_cons, literal, str,
    within_ok, base64_text, optional_str, optional_int, bind, Except.bind, pure, Except.pure]

theorem readAudio_modelDump (p : AudioPayload) :
    readAudio ambient (modelDump (.audio p)) = .ok p := by
  simp [readAudio, modelDump, modelDumpItems, required, defaulted, get?_obj_cons, literal, str,
    within_ok, base64_text, optional_str, optional_int, optional_float, bind, Except.bind, pure,
    Except.pure]

theorem readVideo_modelDump (p : VideoPayload) :
    readVideo ambient (modelDump (.video p)) = .ok p := by
  simp [readVideo, modelDump, modelDumpItems, required, defaulted, get?_obj_cons, literal, str,
    within_ok, base64_text, optional_str, optional_int, optional_float, bind, Except.bind, pure,
    Except.pure]

theorem readBinary_modelDump (p : BinaryPayload) : readBinary (modelDump (.binary p)) = .ok p := by
  simp [readBinary, modelDump, modelDumpItems, required, defaulted, get?_obj_cons, literal, str,
    within_ok, base64_text, optional_str, bind, Except.bind, pure, Except.pure]

theorem readReading_dumpReading (r : TelemetryReading) :
    readReading ambient (dumpReading r) = .ok r := by
  simp [readReading, model, dumpReading, required, defaulted, get?_obj_cons, within_ok, float, int,
    optional_str, bind, Except.bind, pure, Except.pure]

theorem readTelemetry_modelDump (p : TelemetryPayload) :
    readTelemetry ambient (modelDump (.telemetry p)) = .ok p := by
  have readings := list_dump (readReading ambient) dumpReading readReading_dumpReading p.readings
  simp [readTelemetry, modelDump, modelDumpItems, required, defaulted, get?_obj_cons, literal, str,
    within_ok, readings, bind, Except.bind, pure, Except.pure]

/-- Validation inverts `model_dump()` for every payload type. -/
theorem modelValidate_modelDump (p : Payload) : modelValidate ambient p.modelDump = .ok p := by
  cases p with
  | text p =>
    have tag : getPayloadType (modelDump (.text p)) = .ok (.str "text") := rfl
    rw [modelValidate, tag]
    simp [Except.bind, readText_modelDump, Except.map, within_ok]
  | vectorEmbedding p =>
    have tag : getPayloadType (modelDump (.vectorEmbedding p)) = .ok (.str "vector_embedding") :=
      rfl
    rw [modelValidate, tag]
    simp [Except.bind, readVectorEmbedding_modelDump, Except.map, within_ok]
  | crdtSync p =>
    have tag : getPayloadType (modelDump (.crdtSync p)) = .ok (.str "crdt_sync") := rfl
    rw [modelValidate, tag]
    simp [Except.bind, readCrdtSync_modelDump, Except.map, within_ok]
  | image p =>
    have tag : getPayloadType (modelDump (.image p)) = .ok (.str "image") := rfl
    rw [modelValidate, tag]
    simp [Except.bind, readImage_modelDump, Except.map, within_ok]
  | audio p =>
    have tag : getPayloadType (modelDump (.audio p)) = .ok (.str "audio") := rfl
    rw [modelValidate, tag]
    simp [Except.bind, readAudio_modelDump, Except.map, within_ok]
  | video p =>
    have tag : getPayloadType (modelDump (.video p)) = .ok (.str "video") := rfl
    rw [modelValidate, tag]
    simp [Except.bind, readVideo_modelDump, Except.map, within_ok]
  | binary p =>
    have tag : getPayloadType (modelDump (.binary p)) = .ok (.str "binary") := rfl
    rw [modelValidate, tag]
    simp [Except.bind, readBinary_modelDump, Except.map, within_ok]
  | telemetry p =>
    have tag : getPayloadType (modelDump (.telemetry p)) = .ok (.str "telemetry") := rfl
    rw [modelValidate, tag]
    simp [Except.bind, readTelemetry_modelDump, Except.map, within_ok]

end Payload

/-! ### Envelopes -/

theorem AckInfo.modelValidate_toJson (a : AckInfo) :
    AckInfo.modelValidate ambient a.toJson = .ok a := by
  simp [AckInfo.modelValidate, model, AckInfo.toJson, required, get?_obj_cons, within_ok,
    uuid_toText, bind, Except.bind, pure, Except.pure]

theorem ChunkInfo.modelValidate_toJson (c : ChunkInfo) :
    ChunkInfo.modelValidate ambient c.toJson = .ok c := by
  simp [ChunkInfo.modelValidate, model, ChunkInfo.toJson, required, get?_obj_cons, within_ok,
    uuid_toText, nonNegative_natCast, positive_natCast c.positive, bind, Except.bind, pure,
    Except.pure]

theorem MessageHeader.modelValidate_toJson (h : MessageHeader) :
    MessageHeader.modelValidate ambient h.toJson = .ok h := by
  simp [MessageHeader.modelValidate, model, MessageHeader.toJson, required, defaulted,
    get?_obj_cons, within_ok, uuid_toText, datetime_toText, intent_value, nonNegative_natCast, str,
    bind, Except.bind, pure, Except.pure]

/-- An identity is read back from its dump. -/
theorem AgentIdentity.modelValidate_toJson (a : AgentIdentity) :
    AgentIdentity.modelValidate ambient a.toJson = .ok a := by
  have strings : ∀ l : List String, list str (.arr (l.map Json.str)) = .ok l :=
    list_dump str .str fun _ => rfl
  simp [AgentIdentity.modelValidate, model, AgentIdentity.toJson, required, defaulted,
    get?_obj_cons, within_ok, uuid_toText, strings, str, bind, Except.bind, pure, Except.pure]

namespace TPCPEnvelope

/-- An envelope with finite floats is read back from what is emitted for it. -/
theorem modelValidate_toJson {e : TPCPEnvelope} (finite : allFinite e.payload.modelDump = true) :
    TPCPEnvelope.modelValidate ambient e.toJson = .ok e := by
  have payload : Payload.modelValidate ambient (emitted e.payload.modelDump) = .ok e.payload := by
    rw [emitted_of_allFinite _ finite, Payload.modelValidate_modelDump]
  have ackInfo := optional_dump (AckInfo.modelValidate ambient) AckInfo.toJson
    AckInfo.modelValidate_toJson (by simp [AckInfo.toJson]) e.ackInfo
  have chunkInfo := optional_dump (ChunkInfo.modelValidate ambient) ChunkInfo.toJson
    ChunkInfo.modelValidate_toJson (by simp [ChunkInfo.toJson]) e.chunkInfo
  simp [TPCPEnvelope.modelValidate, model, toJson, required, defaulted, get?_obj_cons, within_ok,
    MessageHeader.modelValidate_toJson, payload, optional_str, ackInfo, chunkInfo, bind,
    Except.bind, pure, Except.pure]

/-- For every envelope with finite floats, whatever else the validation library
coerces: if the JSON library reads back the value it emitted, parsing the emitted
text yields the envelope that was sent, with the same payload dump, and every
signature over the sender's payload dump verifies over the receiver's. -/
theorem wire_round_trip (ambient : Ambient) (ed : Ed25519) (emit : Json → String)
    (loads : String → Option Json) (e : TPCPEnvelope)
    (finite : allFinite e.payload.modelDump = true)
    (library : loads (emit e.toJson) = some e.toJson) :
    ∃ received,
      (loads (emit e.toJson)).map (TPCPEnvelope.modelValidate ambient) = some (.ok received) ∧
        received = e ∧ received.payload.modelDump = e.payload.modelDump ∧
        ∀ key signature,
          AgentIdentityManager.signPayload (ed.sign key) (.json e.payload.modelDump) =
            .ok signature →
          AgentIdentityManager.verifySignature ed.verify
            (AgentIdentityManager.getPublicKeyString (ed.publicBytes key)) signature
            received.payload.modelDump = true := by
  refine ⟨e, ?_, rfl, rfl, fun key signature signed => ?_⟩
  · rw [library, Option.map_some, modelValidate_toJson finite]
  · exact AgentIdentityManager.verifySignature_signPayload signed (Json.Same.refl _)

/-- A telemetry message with a batch of two readings. -/
def reading : TPCPEnvelope where
  header :=
    { messageId := ⟨0x12345678, 0x9abc, 0x4def, 0x8123, 0x456789abcdef⟩
      timestamp := ⟨2026, 2, 28, 23, 59, 59, 120000, by decide⟩
      senderId := ⟨1, 0, 0, 0, 0⟩
      receiverId := UUID.nil
      intent := .mediaShare
      ttl := 30
      protocolVersion := protocolVersion }
  payload := .telemetry
    { sensorId := "can_0x123"
      unit := "°C"
      readings := [⟨Float64.ofInt 21, 1700000000000, some "Good"⟩, ⟨Float64.ofInt (-3), -1, none⟩]
      sourceProtocol := "canbus" }
  signature := none
  ackInfo := some ⟨UUID.nil⟩
  chunkInfo := some ⟨0, 2, UUID.nil, Nat.two_pos⟩

/-- An emitter of compact JSON text. -/
def emitCompact (v : Json) : String := String.ofList (JsonText.render JsonText.compactStyle v)

theorem wire_round_trip_reading :
    ∃ received, (JsonText.loads (emitCompact reading.toJson)).map
        (TPCPEnvelope.modelValidate (Ambient.strict UUID.nil reading.header.timestamp)) =
        some (.ok received) ∧
      received = reading ∧ received.payload.modelDump = reading.payload.modelDump ∧
      ∀ key signature,
        AgentIdentityManager.signPayload (transparent.sign key) (.json reading.payload.modelDump) =
          .ok signature →
        AgentIdentityManager.verifySignature transparent.verify
          (AgentIdentityManager.getPublicKeyString (transparent.publicBytes key)) signature
          received.payload.modelDump = true := by
  have library : JsonText.loads (emitCompact reading.toJson) = some reading.toJson := by
    rw [emitCompact, JsonText.loads_ofList]
    decide +kernel
  have finite : allFinite reading.payload.modelDump = true := by decide +kernel
  exact wire_round_trip _ transparent emitCompact JsonText.loads reading finite library

end TPCPEnvelope

end AgentTelepathy
