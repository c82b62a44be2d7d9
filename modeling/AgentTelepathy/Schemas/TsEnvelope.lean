import AgentTelepathy.Foundation.Zod
import AgentTelepathy.Schemas.Envelope

/-!
# The schemas of the TypeScript library

The schemas of `schemas/envelope.ts` which the node uses. A payload is selected by its
`payload_type`; the check of vector lengths is not among them, for the union has the schema of
embeddings without it. What a schema has returned it returns again after it was sent.
-/

namespace AgentTelepathy.TypeScript

open Foundation Schema

variable (z : Zod)

/-- `AckInfoSchema` -/
def ackInfoSchema : Schema := z.object [("acked_message_id", z.uuid)]

/-- `ChunkInfoSchema` -/
def chunkInfoSchema : Schema := z.object
  [("chunk_index", z.int (0 ≤ ·)), ("total_chunks", z.int (1 ≤ ·)), ("transfer_id", z.uuid)]

/-- `MessageHeaderSchema` -/
def messageHeaderSchema : Schema := z.object
  [("message_id", z.uuid), ("timestamp", z.string), ("sender_id", z.uuid),
    ("receiver_id", z.uuid), ("intent", z.enum (Intent.all.map Intent.value)),
    ("ttl", z.default (z.int (0 ≤ ·)) (.int 30)),
    ("protocol_version", z.default z.string (.str protocolVersion))]

/-! ### Payloads -/

/-- A schema of payloads with a type. -/
def payloadObject (payloadType : String) (fields : List (String × Schema)) : Schema :=
  z.object (("payload_type", z.default (z.literal payloadType) (.str payloadType)) :: fields)

/-- `z.string().nullable().optional()` -/
def nullishString : Schema := z.optional (z.nullable z.string)

/-- `z.number().int().positive().nullable().optional()` -/
def nullishPositiveInt : Schema := z.optional (z.nullable (z.int (0 < ·)))

/-- `z.number().positive().nullable().optional()` -/
def nullishPositive : Schema := z.optional (z.nullable (z.number (0 < ·)))

/-- `TextPayloadSchema` -/
def textPayloadSchema : Schema := payloadObject z "text"
  [("content", z.string), ("language", z.default z.string (.str "en"))]

/-- `VectorEmbeddingPayloadBase` -/
def vectorEmbeddingPayloadBase : Schema := payloadObject z "vector_embedding"
  [("model_id", z.string), ("dimensions", z.int (0 < ·)),
    ("vector", z.array (z.number fun _ => true)), ("raw_text_fallback", nullishString z)]

/-- `CRDTSyncPayloadSchema` -/
def crdtSyncPayloadSchema : Schema := payloadObject z "crdt_sync"
  [("crdt_type", z.string), ("state", z.record z.any),
    ("vector_clock", z.record (z.int fun _ => true))]

/-- `ImagePayloadSchema` -/
def imagePayloadSchema : Schema := payloadObject z "image"
  [("data_base64", z.string), ("mime_type", z.default z.string (.str "image/png")),
    ("width", nullishPositiveInt z), ("height", nullishPositiveInt z),
    ("source_model", nullishString z), ("caption", nullishString z)]

/-- `AudioPayloadSchema` -/
def audioPayloadSchema : Schema := payloadObject z "audio"
  [("data_base64", z.string), ("mime_type", z.default z.string (.str "audio/wav")),
    ("sample_rate", nullishPositiveInt z), ("duration_seconds", nullishPositive z),
    ("source_model", nullishString z), ("transcript", nullishString z)]

/-- `VideoPayloadSchema` -/
def videoPayloadSchema : Schema := payloadObject z "video"
  [("data_base64", z.string), ("mime_type", z.default z.string (.str "video/mp4")),
    ("width", nullishPositiveInt z), ("height", nullishPositiveInt z),
    ("duration_seconds", nullishPositive z), ("fps", nullishPositive z),
    ("source_model", nullishString z), ("description", nullishString z)]

/-- `BinaryPayloadSchema` -/
def binaryPayloadSchema : Schema := payloadObject z "binary"
  [("data_base64", z.string),
    ("mime_type", z.default z.string (.str "application/octet-stream")),
    ("filename", nullishString z), ("description", nullishString z)]

/-- `TelemetryReadingSchema` -/
def telemetryReadingSchema : Schema := z.object
  [("value", z.number fun _ => true), ("timestamp_ms", z.int fun _ => true),
    ("quality", z.optional (z.enum ["Good", "Bad", "Uncertain"]))]

/-- `TelemetryPayloadSchema` -/
def telemetryPayloadSchema : Schema := payloadObject z "telemetry"
  [("sensor_id", z.string), ("unit", z.string), ("readings", z.array (telemetryReadingSchema z)),
    ("source_protocol", z.enum ["opcua", "modbus", "canbus", "mqtt"])]

/-- The schemas of `PayloadSchema` under their types. -/
def payloadOptions : List (String × Schema) :=
  [("text", textPayloadSchema z), ("vector_embedding", vectorEmbeddingPayloadBase z),
    ("crdt_sync", crdtSyncPayloadSchema z), ("image", imagePayloadSchema z),
    ("audio", audioPayloadSchema z), ("video", videoPayloadSchema z),
    ("binary", binaryPayloadSchema z), ("telemetry", telemetryPayloadSchema z)]

/-- `PayloadSchema` -/
def payloadSchema : Schema := z.discriminatedUnion "payload_type" (payloadOptions z)

/-- `TPCPEnvelopeSchema` -/
def tpcpEnvelopeSchema : Schema := z.object
  [("header", messageHeaderSchema z), ("payload", payloadSchema z), ("signature", nullishString z),
    ("ack_info", z.optional (z.nullable (ackInfoSchema z))),
    ("chunk_info", z.optional (z.nullable (chunkInfoSchema z)))]

/-! ### What was returned is returned again -/

theorem resends_nullishString : Resends (nullishString z) :=
  z.resends_optional (z.resends_nullable z.resends_string)

theorem resends_nullishPositiveInt : Resends (nullishPositiveInt z) :=
  z.resends_optional (z.resends_nullable (z.resends_int _))

theorem resends_nullishPositive : Resends (nullishPositive z) :=
  z.resends_optional (z.resends_nullable (z.resends_number _))

variable {z}

theorem resends_payloadObject {payloadType : String} {fields : List (String × Schema)}
    (nodup : ("payload_type" :: fields.map Prod.fst).Nodup)
    (inner : ∀ field ∈ fields, Resends field.2) : Resends (payloadObject z payloadType fields) :=
  z.resends_object nodup (List.forall_mem_cons.mpr ⟨z.resends_default_literal payloadType, inner⟩)

/-- A schema of payloads with a type returns that type. -/
theorem payloadType_returned {payloadType : String} {fields : List (String × Schema)}
    (nodup : ("payload_type" :: fields.map Prod.fst).Nodup) {v w : Option Json}
    (returned : payloadObject z payloadType fields v = some w) :
    ∃ members, w = some (.obj members) ∧
      members.lookup "payload_type" = some (.str payloadType) := by
  rw [payloadObject, z.object_eq] at returned
  obtain ⟨_, members, -, rfl, typed⟩ :=
    lookup_of_object (by rwa [List.map_cons]) returned List.mem_cons_self
  exact ⟨members, rfl, z.default_literal_eq typed⟩

variable (z)

/-- The schemas of payloads have a type and further fields, which resend. -/
theorem payloadOptions_eq : ∀ option ∈ payloadOptions z, ∃ fields : List (String × Schema),
    option.2 = payloadObject z option.1 fields ∧
      ("payload_type" :: fields.map Prod.fst).Nodup ∧ ∀ field ∈ fields, Resends field.2 := by
  have string := z.resends_string
  have text := resends_nullishString z
  have size := resends_nullishPositiveInt z
  have length := resends_nullishPositive z
  have data := z.resends_default_string
  have reading : Resends (telemetryReadingSchema z) := by
    refine z.resends_object (by simp) ?_
    simp only [List.forall_mem_cons]
    exact ⟨z.resends_number _, z.resends_int _, z.resends_optional (z.resends_enum _), nofun⟩
  simp only [payloadOptions, List.forall_mem_cons]
  refine ⟨⟨_, rfl, by simp, ?_⟩, ⟨_, rfl, by simp, ?_⟩, ⟨_, rfl, by simp, ?_⟩,
    ⟨_, rfl, by simp, ?_⟩, ⟨_, rfl, by simp, ?_⟩, ⟨_, rfl, by simp, ?_⟩,
    ⟨_, rfl, by simp, ?_⟩, ⟨_, rfl, by simp, ?_⟩, nofun⟩
  all_goals simp only [List.forall_mem_cons]
  · exact ⟨string, data _, nofun⟩
  · exact ⟨string, z.resends_int _, z.resends_array (z.resends_number _), text, nofun⟩
  · exact ⟨string, z.resends_record z.resends_any, z.resends_record (z.resends_int _), nofun⟩
  · exact ⟨string, data _, size, size, text, text, nofun⟩
  · exact ⟨string, data _, size, length, text, text, nofun⟩
  · exact ⟨string, data _, size, size, length, length, text, text, nofun⟩
  · exact ⟨string, data _, text, text, nofun⟩
  · exact ⟨string, string, z.resends_array reading, z.resends_enum _, nofun⟩

/-- A payload that the schema has returned it returns again, as it comes back. -/
theorem resends_payloadSchema : Resends (payloadSchema z) := by
  rw [payloadSchema, z.discriminatedUnion_eq]
  refine resends_discriminatedUnion (fun option member => ?_) fun option member v w returned => ?_
  · obtain ⟨fields, schema, nodup, inner⟩ := payloadOptions_eq z option member
    exact schema ▸ resends_payloadObject nodup inner
  · obtain ⟨fields, schema, nodup, -⟩ := payloadOptions_eq z option member
    exact payloadType_returned nodup (schema ▸ returned)

end AgentTelepathy.TypeScript
