import AgentTelepathy.Security.GoIdentity

/-!
# Payloads of the Go library

The payload types of `schema.go`, with their validation and their field tags. A string is
its bytes, and a slice or a map may be nil.
-/

namespace AgentTelepathy.Go

open Foundation GoJson

/-- The text of a string, with what is not UTF-8 replaced. -/
def textOf (s : Bytes) : String := String.ofList (runes s)

structure TextPayload where
  payloadType : Bytes
  content : Bytes
  language : Bytes

structure VectorEmbeddingPayload where
  payloadType : Bytes
  modelID : Bytes
  dimensions : ℤ
  vector : Option (List Float64)
  rawTextFallback : Bytes

structure CRDTSyncPayload where
  payloadType : Bytes
  crdtType : Bytes
  state : Option (Dict Bytes GoValue)
  vectorClock : Option (Dict Bytes ℤ)

structure ImagePayload where
  payloadType : Bytes
  dataBase64 : Bytes
  mimeType : Bytes
  width : Option ℤ
  height : Option ℤ
  sourceModel : Bytes
  caption : Bytes

structure AudioPayload where
  payloadType : Bytes
  dataBase64 : Bytes
  mimeType : Bytes
  sampleRate : Option ℤ
  durationSeconds : Option Float64
  sourceModel : Bytes
  transcript : Bytes

structure VideoPayload where
  payloadType : Bytes
  dataBase64 : Bytes
  mimeType : Bytes
  width : Option ℤ
  height : Option ℤ
  durationSeconds : Option Float64
  fps : Option Float64
  sourceModel : Bytes
  description : Bytes

structure BinaryPayload where
  payloadType : Bytes
  dataBase64 : Bytes
  mimeType : Bytes
  filename : Bytes
  description : Bytes

structure TelemetryReading where
  value : Float64
  timestampMs : ℤ
  quality : Bytes

structure TelemetryPayload where
  payloadType : Bytes
  sensorID : Bytes
  unit : Bytes
  readings : Option (List TelemetryReading)
  sourceProtocol : Bytes

/-- A pointer to one of the payload types. -/
inductive Payload where
  | text (p : TextPayload)
  | vectorEmbedding (p : VectorEmbeddingPayload)
  | crdtSync (p : CRDTSyncPayload)
  | image (p : ImagePayload)
  | audio (p : AudioPayload)
  | video (p : VideoPayload)
  | binary (p : BinaryPayload)
  | telemetry (p : TelemetryPayload)

/-! ### Validation -/

section Validate

-- The text of the error of `base64.StdEncoding.DecodeString`.
variable (corrupt : Bytes → String)

/-- The check of base64 data; the name is that of the payload type. -/
def validateBase64 (name : String) (data : Bytes) : Option String :=
  if (decodeString (textOf data)).isSome then none
  else some (name ++ ": invalid base64: " ++ corrupt data)

/-- The checks of base64 data and of the start of the MIME type. -/
def validateMedia (name start : String) (data mimeType : Bytes) : Option String :=
  (validateBase64 corrupt name data).or
    (if mimeType.length < 6 ∨ mimeType.take 6 ≠ bytes start.toList then
      some (name ++ ": mime_type must start with " ++ start)
    else none)

def TextPayload.validate (p : TextPayload) : Option String :=
  if p.content = [] then some "TextPayload: content must not be empty" else none

def VectorEmbeddingPayload.validate (p : VectorEmbeddingPayload) : Option String :=
  if p.dimensions ≤ 0 then some "VectorEmbeddingPayload: dimensions must be > 0"
  else if ((p.vector.getD []).length : ℤ) ≠ p.dimensions then
    some ("VectorEmbeddingPayload: vector length " ++ toString (p.vector.getD []).length ++
      " != dimensions " ++ toString p.dimensions)
  else none

def ImagePayload.validate (p : ImagePayload) : Option String :=
  validateMedia corrupt "ImagePayload" "image/" p.dataBase64 p.mimeType

def AudioPayload.validate (p : AudioPayload) : Option String :=
  validateMedia corrupt "AudioPayload" "audio/" p.dataBase64 p.mimeType

def VideoPayload.validate (p : VideoPayload) : Option String :=
  validateMedia corrupt "VideoPayload" "video/" p.dataBase64 p.mimeType

def BinaryPayload.validate (p : BinaryPayload) : Option String :=
  validateBase64 corrupt "BinaryPayload" p.dataBase64

def TelemetryPayload.validate (p : TelemetryPayload) : Option String :=
  if p.sensorID = [] then some "TelemetryPayload: sensor_id must not be empty"
  else if p.unit = [] then some "TelemetryPayload: unit must not be empty"
  else if p.readings.getD [] = [] then some "TelemetryPayload: readings must not be empty"
  else none

/-- `v.Validate()` where the payload is `Validatable`; `CRDTSyncPayload` is not. -/
def Payload.validate : Payload → Option String
  | .text p => p.validate
  | .vectorEmbedding p => p.validate
  | .crdtSync _ => none
  | .image p => p.validate corrupt
  | .audio p => p.validate corrupt
  | .video p => p.validate corrupt
  | .binary p => p.validate corrupt
  | .telemetry p => p.validate

end Validate

/-! ### Fields -/

/-- A field that is always written. -/
def always (name : String) (v : GoValue) : Field × GoValue := (⟨name, false⟩, v)

/-- A field with `omitempty`. -/
def omitempty (name : String) (v : GoValue) : Field × GoValue := (⟨name, true⟩, v)

/-- A pointer that may be nil. -/
def pointer {α : Type} (value : α → GoValue) : Option α → GoValue
  | none => .nil
  | some a => .pointer (value a)

def TelemetryReading.fields (r : TelemetryReading) : List (Field × GoValue) :=
  [always "value" (.float64 r.value), always "timestamp_ms" (.int r.timestampMs),
    omitempty "quality" (.string r.quality)]

/-- The fields of a payload, with their tags. -/
def Payload.fields : Payload → List (Field × GoValue)
  | .text p =>
    [always "payload_type" (.string p.payloadType), always "content" (.string p.content),
      omitempty "language" (.string p.language)]
  | .vectorEmbedding p =>
    [always "payload_type" (.string p.payloadType), always "model_id" (.string p.modelID),
      always "dimensions" (.int p.dimensions),
      always "vector" (p.vector.elim .nil fun l => .slice (l.map .float64)),
      omitempty "raw_text_fallback" (.string p.rawTextFallback)]
  | .crdtSync p =>
    [always "payload_type" (.string p.payloadType), always "crdt_type" (.string p.crdtType),
      always "state" (p.state.elim .nil fun d => .map d.items),
      always "vector_clock"
        (p.vectorClock.elim .nil fun d => .map (d.items.map fun e => (e.1, .int e.2)))]
  | .image p =>
    [always "payload_type" (.string p.payloadType), always "data_base64" (.string p.dataBase64),
      always "mime_type" (.string p.mimeType), omitempty "width" (pointer .int p.width),
      omitempty "height" (pointer .int p.height),
      omitempty "source_model" (.string p.sourceModel), omitempty "caption" (.string p.caption)]
  | .audio p =>
    [always "payload_type" (.string p.payloadType), always "data_base64" (.string p.dataBase64),
      always "mime_type" (.string p.mimeType),
      omitempty "sample_rate" (pointer .int p.sampleRate),
      omitempty "duration_seconds" (pointer .float64 p.durationSeconds),
      omitempty "source_model" (.string p.sourceModel),
      omitempty "transcript" (.string p.transcript)]
  | .video p =>
    [always "payload_type" (.string p.payloadType), always "data_base64" (.string p.dataBase64),
      always "mime_type" (.string p.mimeType), omitempty "width" (pointer .int p.width),
      omitempty "height" (pointer .int p.height),
      omitempty "duration_seconds" (pointer .float64 p.durationSeconds),
      omitempty "fps" (pointer .float64 p.fps),
      omitempty "source_model" (.string p.sourceModel),
      omitempty "description" (.string p.description)]
  | .binary p =>
    [always "payload_type" (.string p.payloadType), always "data_base64" (.string p.dataBase64),
      always "mime_type" (.string p.mimeType), omitempty "filename" (.string p.filename),
      omitempty "description" (.string p.description)]
  | .telemetry p =>
    [always "payload_type" (.string p.payloadType), always "sensor_id" (.string p.sensorID),
      always "unit" (.string p.unit),
      always "readings" (p.readings.elim .nil fun l => .slice (l.map fun r => .struct r.fields)),
      always "source_protocol" (.string p.sourceProtocol)]

/-- The payload as `json.Marshal` takes it apart. -/
def Payload.value (p : Payload) : GoValue := .pointer (.struct p.fields)

end AgentTelepathy.Go
