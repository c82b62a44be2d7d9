import AgentTelepathy.Schemas.Envelope

/-!
# Validation

`model_validate` on parsed JSON. Readers stand for the field types; each reports
the place and kind of the first error it meets. Texts, numbers and objects in
the form in which envelopes are emitted are read here. What else the validation
library coerces to a field's type, the current time and new identifiers come
from an ambient.
-/

namespace AgentTelepathy

open Foundation

/-- What validation takes from outside the schema: defaults that are drawn anew,
and the coercion of values that are not in emitted form. -/
structure Ambient where
  uuid4 : UUID
  now : DateTime
  laxInt : Json → Option ℤ
  laxFloat : Json → Option Float64
  laxUuid : Json → Option UUID
  laxDateTime : Json → Option DateTime

/-- Nothing is coerced. -/
def Ambient.strict (uuid4 : UUID) (now : DateTime) : Ambient where
  uuid4 := uuid4
  now := now
  laxInt _ := none
  laxFloat _ := none
  laxUuid _ := none
  laxDateTime _ := none

/-- The kinds of validation errors, under the library's names; the messages are
those of the schema's own validators. -/
inductive ErrorKind
  | missing
  | stringType
  | intType
  | floatType
  | uuidType
  | datetimeType
  | listType
  | dictType
  | modelType
  | enumError
  | literalError
  | greaterThan (bound : ℤ)
  | greaterThanEqual (bound : ℤ)
  | unionTagInvalid
  | valueError (message : String)
deriving DecidableEq

/-- An error with its field path. -/
structure ValidationError where
  loc : List String
  kind : ErrorKind
deriving DecidableEq

/-- A reader of JSON data. -/
abbrev Reader (α : Type) := Json → Except ValidationError α

namespace Reader

variable {α β : Type}

/-- Fail here. -/
def fail (kind : ErrorKind) : Except ValidationError α := .error ⟨[], kind⟩

/-- Report errors below a field. -/
def within (name : String) : Except ValidationError α → Except ValidationError α
  | .ok a => .ok a
  | .error e => .error { e with loc := name :: e.loc }

/-- A field without default. -/
def required (data : Json) (name : String) (read : Reader α) : Except ValidationError α :=
  match data.get? name with
  | none => .error ⟨[name], .missing⟩
  | some v => within name (read v)

/-- A field with a default. -/
def defaulted (data : Json) (name : String) (default : α) (read : Reader α) :
    Except ValidationError α :=
  match data.get? name with
  | none => .ok default
  | some v => within name (read v)

/-- `str`. -/
def str : Reader String
  | .str s => .ok s
  | _ => fail .stringType

/-- `int`. -/
def int (ambient : Ambient) : Reader ℤ
  | .int n => .ok n
  | v => (ambient.laxInt v).elim (fail .intType) .ok

/-- `float`. -/
def float (ambient : Ambient) : Reader Float64
  | .float f => .ok f
  | v => (ambient.laxFloat v).elim (fail .floatType) .ok

/-- `UUID`. -/
def uuid (ambient : Ambient) : Reader UUID
  | .str s =>
    match UUID.ofText? s with
    | some u => .ok u
    | none => (ambient.laxUuid (.str s)).elim (fail .uuidType) .ok
  | v => (ambient.laxUuid v).elim (fail .uuidType) .ok

/-- `datetime`. -/
def datetime (ambient : Ambient) : Reader DateTime
  | .str s =>
    match DateTime.ofText? s with
    | some t => .ok t
    | none => (ambient.laxDateTime (.str s)).elim (fail .datetimeType) .ok
  | v => (ambient.laxDateTime v).elim (fail .datetimeType) .ok

/-- `Intent`. -/
def intent : Reader Intent
  | .str s => (Intent.ofValue? s).elim (fail .enumError) .ok
  | _ => fail .enumError

/-- `Literal[text]`. -/
def literal (text : String) : Reader Unit := fun v =>
  if v = .str text then .ok () else fail .literalError

/-- `int` with `ge=0`. -/
def nonNegative (ambient : Ambient) : Reader ℕ := fun v =>
  (int ambient v).bind fun n => if 0 ≤ n then .ok n.toNat else fail (.greaterThanEqual 0)

/-- `int` that is at least one, by `gt=0` or `ge=1`. -/
def positive (ambient : Ambient) (kind : ErrorKind) : Reader { n : ℕ // 0 < n } := fun v =>
  (int ambient v).bind fun n =>
    if h : 0 < n then .ok ⟨n.toNat, by omega⟩ else fail kind

/-- `Optional[...]`. -/
def optional (read : Reader α) : Reader (Option α)
  | .null => .ok none
  | v => (read v).map some

/-- The items of a list from an index on. -/
def items (read : Reader α) : ℕ → List Json → Except ValidationError (List α)
  | _, [] => .ok []
  | i, v :: vs => do
    let a ← within (toString i) (read v)
    let as ← items read (i + 1) vs
    return a :: as

/-- `List[...]`. -/
def list (read : Reader α) : Reader (List α)
  | .arr vs => items read 0 vs
  | _ => fail .listType

/-- The members of a dictionary. -/
def members (read : Reader α) : List (String × Json) → Except ValidationError (List (String × α))
  | [] => .ok []
  | (k, v) :: vs => do
    let a ← within k (read v)
    let as ← members read vs
    return (k, a) :: as

/-- `Dict[str, ...]`. -/
def dict (read : Reader α) : Reader (Dict String α)
  | .obj vs => (members read vs).map Dict.ofItems
  | _ => fail .dictType

/-- `Any`. -/
def any : Reader Json := .ok

/-- `data_base64` with its validator. -/
def base64 : Reader Base64Data := fun v =>
  (str v).bind fun text =>
    if decodes : (Base64.decode true text).isSome then .ok ⟨text, decodes⟩
    else fail (.valueError "data_base64 must be valid base64-encoded data")

/-- A nested model: only objects have fields. -/
def model (read : Reader α) : Reader α
  | .obj members => read (.obj members)
  | _ => fail .modelType

end Reader

open Reader

variable (ambient : Ambient)

/-- `AgentIdentity.model_validate`. -/
def AgentIdentity.modelValidate : Reader AgentIdentity := model fun data => do
  let agentId ← defaulted data "agent_id" ambient.uuid4 (uuid ambient)
  let framework ← required data "framework" str
  let capabilities ← defaulted data "capabilities" [] (list str)
  let publicKey ← required data "public_key" str
  let modality ← defaulted data "modality" ["text"] (list str)
  return ⟨agentId, framework, capabilities, publicKey, modality⟩

/-- Validation of a header. -/
def MessageHeader.modelValidate : Reader MessageHeader := model fun data => do
  let messageId ← defaulted data "message_id" ambient.uuid4 (uuid ambient)
  let timestamp ← defaulted data "timestamp" ambient.now (datetime ambient)
  let senderId ← required data "sender_id" (uuid ambient)
  let receiverId ← required data "receiver_id" (uuid ambient)
  let intent ← required data "intent" Reader.intent
  let ttl ← defaulted data "ttl" 30 (nonNegative ambient)
  let version ← defaulted data "protocol_version" AgentTelepathy.protocolVersion str
  return ⟨messageId, timestamp, senderId, receiverId, intent, ttl, version⟩

namespace Payload

def readText : Reader TextPayload := fun data => do
  let _ ← defaulted data "payload_type" () (literal "text")
  let content ← required data "content" str
  let language ← defaulted data "language" "en" str
  return ⟨content, language⟩

/-- The text of an error of `validate_embedding`. -/
def lengthMessage (length dimensions : ℕ) : String :=
  "Vector length (" ++ toString length ++ ") does not match declared dimensions (" ++
    toString dimensions ++ ")."

/-- The text of the other error of `validate_embedding`. -/
def dimensionMessage (dimensions : ℕ) (modelId : String) (expected : ℕ) : String :=
  "Invalid dimension " ++ toString dimensions ++ " for model '" ++ modelId ++
    "'. Expected exactly " ++ toString expected ++ " dimensions."

/-- `validate_embedding`, after the fields. -/
def validateEmbedding (modelId : String) (dimensions : { n : ℕ // 0 < n })
    (vector : List Float64) (rawTextFallback : Option String) :
    Except ValidationError VectorEmbeddingPayload :=
  if length_eq : vector.length = dimensions then
    if known : ∀ expected ∈ knownModels.lookup modelId, dimensions.val = expected then
      .ok ⟨modelId, dimensions, vector, rawTextFallback, dimensions.2, length_eq, known⟩
    else
      fail (.valueError
        (dimensionMessage dimensions modelId ((knownModels.lookup modelId).getD 0)))
  else fail (.valueError (lengthMessage vector.length dimensions))

def readVectorEmbedding : Reader VectorEmbeddingPayload := fun data => do
  let _ ← defaulted data "payload_type" () (literal "vector_embedding")
  let modelId ← required data "model_id" str
  let dimensions ← required data "dimensions" (Reader.positive ambient (.greaterThan 0))
  let vector ← required data "vector" (list (float ambient))
  let rawTextFallback ← defaulted data "raw_text_fallback" none (Reader.optional str)
  validateEmbedding modelId dimensions vector rawTextFallback

def readCrdtSync : Reader CRDTSyncPayload := fun data => do
  let _ ← defaulted data "payload_type" () (literal "crdt_sync")
  let crdtType ← required data "crdt_type" str
  let state ← required data "state" (dict any)
  let vectorClock ← required data "vector_clock" (dict (int ambient))
  return ⟨crdtType, state, vectorClock⟩

def readImage : Reader ImagePayload := fun data => do
  let _ ← defaulted data "payload_type" () (literal "image")
  let dataBase64 ← required data "data_base64" base64
  let mimeType ← defaulted data "mime_type" "image/png" str
  let width ← defaulted data "width" none (Reader.optional (int ambient))
  let height ← defaulted data "height" none (Reader.optional (int ambient))
  let sourceModel ← defaulted data "source_model" none (Reader.optional str)
  let caption ← defaulted data "caption" none (Reader.optional str)
  return ⟨dataBase64, mimeType, width, height, sourceModel, caption⟩

def readAudio : Reader AudioPayload := fun data => do
  let _ ← defaulted data "payload_type" () (literal "audio")
  let dataBase64 ← required data "data_base64" base64
  let mimeType ← defaulted data "mime_type" "audio/wav" str
  let sampleRate ← defaulted data "sample_rate" none (Reader.optional (int ambient))
  let duration ← defaulted data "duration_seconds" none (Reader.optional (float ambient))
  let sourceModel ← defaulted data "source_model" none (Reader.optional str)
  let transcript ← defaulted data "transcript" none (Reader.optional str)
  return ⟨dataBase64, mimeType, sampleRate, duration, sourceModel, transcript⟩

def readVideo : Reader VideoPayload := fun data => do
  let _ ← defaulted data "payload_type" () (literal "video")
  let dataBase64 ← required data "data_base64" base64
  let mimeType ← defaulted data "mime_type" "video/mp4" str
  let width ← defaulted data "width" none (Reader.optional (int ambient))
  let height ← defaulted data "height" none (Reader.optional (int ambient))
  let duration ← defaulted data "duration_seconds" none (Reader.optional (float ambient))
  let fps ← defaulted data "fps" none (Reader.optional (float ambient))
  let sourceModel ← defaulted data "source_model" none (Reader.optional str)
  let description ← defaulted data "description" none (Reader.optional str)
  return ⟨dataBase64, mimeType, width, height, duration, fps, sourceModel, description⟩

def readBinary : Reader BinaryPayload := fun data => do
  let _ ← defaulted data "payload_type" () (literal "binary")
  let dataBase64 ← required data "data_base64" base64
  let mimeType ← defaulted data "mime_type" "application/octet-stream" str
  let filename ← defaulted data "filename" none (Reader.optional str)
  let description ← defaulted data "description" none (Reader.optional str)
  return ⟨dataBase64, mimeType, filename, description⟩

def readReading : Reader TelemetryReading := model fun data => do
  let value ← required data "value" (float ambient)
  let timestampMs ← required data "timestamp_ms" (int ambient)
  let quality ← defaulted data "quality" none (Reader.optional str)
  return ⟨value, timestampMs, quality⟩

def readTelemetry : Reader TelemetryPayload := fun data => do
  let _ ← defaulted data "payload_type" () (literal "telemetry")
  let sensorId ← required data "sensor_id" str
  let unit ← required data "unit" str
  let readings ← required data "readings" (list (readReading ambient))
  let sourceProtocol ← required data "source_protocol" str
  return ⟨sensorId, unit, readings, sourceProtocol⟩

/-- `_get_payload_type`: the tag of the union. -/
def getPayloadType (data : Json) : Except ValidationError Json :=
  match data.get? "payload_type" with
  | none | some .null => fail (.valueError "Missing 'payload_type' field in payload")
  | some tag => .ok tag

/-- Validation of a payload: the tag selects the model. -/
def modelValidate : Reader Payload := fun data =>
  (getPayloadType data).bind fun tag =>
    match tag with
    | .str "text" => within "text" ((readText data).map .text)
    | .str "vector_embedding" =>
      within "vector_embedding" ((readVectorEmbedding ambient data).map .vectorEmbedding)
    | .str "crdt_sync" => within "crdt_sync" ((readCrdtSync ambient data).map .crdtSync)
    | .str "image" => within "image" ((readImage ambient data).map .image)
    | .str "audio" => within "audio" ((readAudio ambient data).map .audio)
    | .str "video" => within "video" ((readVideo ambient data).map .video)
    | .str "binary" => within "binary" ((readBinary data).map .binary)
    | .str "telemetry" => within "telemetry" ((readTelemetry ambient data).map .telemetry)
    | _ => fail .unionTagInvalid

end Payload

/-- Validation of acknowledgement metadata. -/
def AckInfo.modelValidate : Reader AckInfo := model fun data => do
  let ackedMessageId ← required data "acked_message_id" (uuid ambient)
  return ⟨ackedMessageId⟩

/-- Validation of chunk metadata. -/
def ChunkInfo.modelValidate : Reader ChunkInfo := model fun data => do
  let chunkIndex ← required data "chunk_index" (nonNegative ambient)
  let totalChunks ← required data "total_chunks" (Reader.positive ambient (.greaterThanEqual 1))
  let transferId ← required data "transfer_id" (uuid ambient)
  return ⟨chunkIndex, totalChunks, transferId, totalChunks.2⟩

/-- `TPCPEnvelope.model_validate`. -/
def TPCPEnvelope.modelValidate : Reader TPCPEnvelope := model fun data => do
  let header ← required data "header" (MessageHeader.modelValidate ambient)
  let payload ← required data "payload" (Payload.modelValidate ambient)
  let signature ← defaulted data "signature" none (Reader.optional str)
  let ackInfo ← defaulted data "ack_info" none (Reader.optional (AckInfo.modelValidate ambient))
  let chunkInfo ←
    defaulted data "chunk_info" none (Reader.optional (ChunkInfo.modelValidate ambient))
  return ⟨header, payload, signature, ackInfo, chunkInfo⟩

end AgentTelepathy
