import AgentTelepathy.Foundation.Base64
import AgentTelepathy.Foundation.Dict
import AgentTelepathy.Schemas.Values

/-!
# Envelopes

The models of `schemas/envelope.py`. What a validator of the schema demands is a
field here, so an envelope that the schema would refuse cannot be built:
base64 data decodes, an embedding has its declared and its model's dimension,
hop counts and chunk counts are in range.
-/

namespace AgentTelepathy

open Foundation

/-- `PROTOCOL_VERSION`. -/
def protocolVersion : String := "0.4.0"

/-- The intent or purpose of a message. -/
inductive Intent
  | handshake
  | taskRequest
  | stateSync
  | stateSyncVector
  | mediaShare
  | critique
  | terminate
  | ack
  | nack
  | broadcast
deriving DecidableEq

namespace Intent

/-- The intents, in the order of the enumeration. -/
def all : List Intent :=
  [.handshake, .taskRequest, .stateSync, .stateSyncVector, .mediaShare, .critique, .terminate,
    .ack, .nack, .broadcast]

/-- The text of an intent. -/
def value : Intent → String
  | .handshake => "Handshake"
  | .taskRequest => "Task_Request"
  | .stateSync => "State_Sync"
  | .stateSyncVector => "State_Sync_Vector"
  | .mediaShare => "Media_Share"
  | .critique => "Critique"
  | .terminate => "Terminate"
  | .ack => "ACK"
  | .nack => "NACK"
  | .broadcast => "Broadcast"

/-- The intent of a text. -/
def ofValue? (text : String) : Option Intent := all.find? fun i => i.value = text

@[simp] theorem ofValue?_value (i : Intent) : ofValue? i.value = some i := by
  cases i <;> decide

end Intent

/-- The cryptographic and functional identity of an agent. -/
structure AgentIdentity where
  agentId : UUID
  framework : String
  capabilities : List String
  publicKey : String
  modality : List String
deriving DecidableEq

/-- Header information for routing and metadata. -/
structure MessageHeader where
  messageId : UUID
  timestamp : DateTime
  senderId : UUID
  receiverId : UUID
  intent : Intent
  ttl : ℕ
  protocolVersion : String
deriving DecidableEq

/-! ### Payloads -/

structure TextPayload where
  content : String
  language : String
deriving DecidableEq

/-- `KNOWN_MODELS`. -/
def knownModels : List (String × ℕ) :=
  [("text-embedding-3-small", 1536), ("text-embedding-3-large", 3072),
    ("text-embedding-ada-002", 1536), ("all-MiniLM-L6-v2", 384)]

structure VectorEmbeddingPayload where
  modelId : String
  dimensions : ℕ
  vector : List Float64
  rawTextFallback : Option String
  positive : 0 < dimensions
  length_eq : vector.length = dimensions
  known : ∀ expected ∈ knownModels.lookup modelId, dimensions = expected
deriving DecidableEq

structure CRDTSyncPayload where
  crdtType : String
  state : Dict String Json
  vectorClock : Dict String ℤ
deriving DecidableEq

/-- Text that `b64decode(v, validate=True)` accepts. -/
structure Base64Data where
  text : String
  decodes : (Base64.decode true text).isSome
deriving DecidableEq

structure ImagePayload where
  dataBase64 : Base64Data
  mimeType : String
  width : Option ℤ
  height : Option ℤ
  sourceModel : Option String
  caption : Option String
deriving DecidableEq

structure AudioPayload where
  dataBase64 : Base64Data
  mimeType : String
  sampleRate : Option ℤ
  durationSeconds : Option Float64
  sourceModel : Option String
  transcript : Option String
deriving DecidableEq

structure VideoPayload where
  dataBase64 : Base64Data
  mimeType : String
  width : Option ℤ
  height : Option ℤ
  durationSeconds : Option Float64
  fps : Option Float64
  sourceModel : Option String
  description : Option String
deriving DecidableEq

structure BinaryPayload where
  dataBase64 : Base64Data
  mimeType : String
  filename : Option String
  description : Option String
deriving DecidableEq

structure TelemetryReading where
  value : Float64
  timestampMs : ℤ
  quality : Option String
deriving DecidableEq

structure TelemetryPayload where
  sensorId : String
  unit : String
  readings : List TelemetryReading
  sourceProtocol : String
deriving DecidableEq

/-- The union of the payload types. -/
inductive Payload
  | text (p : TextPayload)
  | vectorEmbedding (p : VectorEmbeddingPayload)
  | crdtSync (p : CRDTSyncPayload)
  | image (p : ImagePayload)
  | audio (p : AudioPayload)
  | video (p : VideoPayload)
  | binary (p : BinaryPayload)
  | telemetry (p : TelemetryPayload)
deriving DecidableEq

/-- Acknowledgement metadata. -/
structure AckInfo where
  ackedMessageId : UUID
deriving DecidableEq

/-- Chunked-transfer metadata. -/
structure ChunkInfo where
  chunkIndex : ℕ
  totalChunks : ℕ
  transferId : UUID
  positive : 1 ≤ totalChunks
deriving DecidableEq

/-- Header, payload and signature, with optional metadata. -/
structure TPCPEnvelope where
  header : MessageHeader
  payload : Payload
  signature : Option String
  ackInfo : Option AckInfo
  chunkInfo : Option ChunkInfo
deriving DecidableEq

/-! ### Dumping -/

/-- An optional value; `None` is null. -/
def optional {α : Type*} (dump : α → Json) (value : Option α) : Json := value.elim .null dump

namespace AgentIdentity

/-- The members of `identity.model_dump(mode="json")`. -/
def toJson (a : AgentIdentity) : Json :=
  .obj [("agent_id", .str a.agentId.toText), ("framework", .str a.framework),
    ("capabilities", .arr (a.capabilities.map Json.str)), ("public_key", .str a.publicKey),
    ("modality", .arr (a.modality.map Json.str))]

end AgentIdentity

namespace Payload

/-- The members of a telemetry reading. -/
def dumpReading (r : TelemetryReading) : Json :=
  .obj [("value", .float r.value), ("timestamp_ms", .int r.timestampMs),
    ("quality", optional .str r.quality)]

/-- The members of `payload.model_dump()`. -/
def modelDumpItems : Payload → List (String × Json)
  | .text p =>
    [("payload_type", .str "text"), ("content", .str p.content), ("language", .str p.language)]
  | .vectorEmbedding p =>
    [("payload_type", .str "vector_embedding"), ("model_id", .str p.modelId),
      ("dimensions", .int p.dimensions), ("vector", .arr (p.vector.map Json.float)),
      ("raw_text_fallback", optional .str p.rawTextFallback)]
  | .crdtSync p =>
    [("payload_type", .str "crdt_sync"), ("crdt_type", .str p.crdtType),
      ("state", .obj p.state.items),
      ("vector_clock", .obj (p.vectorClock.items.map fun entry => (entry.1, .int entry.2)))]
  | .image p =>
    [("payload_type", .str "image"), ("data_base64", .str p.dataBase64.text),
      ("mime_type", .str p.mimeType), ("width", optional .int p.width),
      ("height", optional .int p.height), ("source_model", optional .str p.sourceModel),
      ("caption", optional .str p.caption)]
  | .audio p =>
    [("payload_type", .str "audio"), ("data_base64", .str p.dataBase64.text),
      ("mime_type", .str p.mimeType), ("sample_rate", optional .int p.sampleRate),
      ("duration_seconds", optional .float p.durationSeconds),
      ("source_model", optional .str p.sourceModel), ("transcript", optional .str p.transcript)]
  | .video p =>
    [("payload_type", .str "video"), ("data_base64", .str p.dataBase64.text),
      ("mime_type", .str p.mimeType), ("width", optional .int p.width),
      ("height", optional .int p.height), ("duration_seconds", optional .float p.durationSeconds),
      ("fps", optional .float p.fps), ("source_model", optional .str p.sourceModel),
      ("description", optional .str p.description)]
  | .binary p =>
    [("payload_type", .str "binary"), ("data_base64", .str p.dataBase64.text),
      ("mime_type", .str p.mimeType), ("filename", optional .str p.filename),
      ("description", optional .str p.description)]
  | .telemetry p =>
    [("payload_type", .str "telemetry"), ("sensor_id", .str p.sensorId), ("unit", .str p.unit),
      ("readings", .arr (p.readings.map dumpReading)),
      ("source_protocol", .str p.sourceProtocol)]

/-- `payload.model_dump()`. -/
def modelDump (p : Payload) : Json := .obj p.modelDumpItems

end Payload

namespace AckInfo

/-- `ack_info.model_dump()`: the identifier stays an identifier. -/
def modelDump (a : AckInfo) : PyValue := .dict [("acked_message_id", .uuid a.ackedMessageId)]

/-- The metadata as emitted. -/
def toJson (a : AckInfo) : Json := .obj [("acked_message_id", .str a.ackedMessageId.toText)]

end AckInfo

namespace ChunkInfo

/-- `chunk_info.model_dump()`: the identifier stays an identifier. -/
def modelDump (c : ChunkInfo) : PyValue :=
  .dict [("chunk_index", .json (.int c.chunkIndex)), ("total_chunks", .json (.int c.totalChunks)),
    ("transfer_id", .uuid c.transferId)]

/-- The metadata as emitted. -/
def toJson (c : ChunkInfo) : Json :=
  .obj [("chunk_index", .int c.chunkIndex), ("total_chunks", .int c.totalChunks),
    ("transfer_id", .str c.transferId.toText)]

end ChunkInfo

namespace MessageHeader

/-- The header as emitted. -/
def toJson (h : MessageHeader) : Json :=
  .obj [("message_id", .str h.messageId.toText), ("timestamp", .str h.timestamp.toText),
    ("sender_id", .str h.senderId.toText), ("receiver_id", .str h.receiverId.toText),
    ("intent", .str h.intent.value), ("ttl", .int h.ttl),
    ("protocol_version", .str h.protocolVersion)]

end MessageHeader

mutual

/-- What the emitter writes for a value: a float that is not finite becomes null. -/
def emitted : Json → Json
  | .float (.finite b) => .float (.finite b)
  | .float _ => .null
  | .arr items => .arr (emittedItems items)
  | .obj members => .obj (emittedMembers members)
  | v => v

/-- The items of an emitted array. -/
def emittedItems : List Json → List Json
  | [] => []
  | v :: items => emitted v :: emittedItems items

/-- The members of an emitted object. -/
def emittedMembers : List (String × Json) → List (String × Json)
  | [] => []
  | (k, v) :: members => (k, emitted v) :: emittedMembers members

end

namespace TPCPEnvelope

/-- The value whose text is `envelope.model_dump_json()`. -/
def toJson (e : TPCPEnvelope) : Json :=
  .obj [("header", e.header.toJson), ("payload", emitted e.payload.modelDump),
    ("signature", optional .str e.signature), ("ack_info", optional AckInfo.toJson e.ackInfo),
    ("chunk_info", optional ChunkInfo.toJson e.chunkInfo)]

end TPCPEnvelope

end AgentTelepathy
