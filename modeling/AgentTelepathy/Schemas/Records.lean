import AgentTelepathy.Schemas.Wire

/-!
# The payload models, field by field

A model is read from an object whose members each hold one of its fields, and is dumped
as such an object. Given one member for every field, it is read as a value exactly if
every field is.
-/

namespace AgentTelepathy

open Foundation Reader

/-- A field of a model, with the value it has there: its name, the data it is read from,
and what is dumped for it. -/
structure ModelField where
  name : String
  Reads : Json → Prop
  dumped : Json

/-- The field of a type with a reader and a dump. -/
def ModelField.of {α : Type} (name : String) (read : Reader α) (dump : α → Json) (value : α) :
    ModelField := ⟨name, fun data => read data = .ok value, dump value⟩

/-- An object with one member for every field. -/
def recordOf (fields : List ModelField) (value : String → Json) : Json :=
  .obj (fields.map fun f => (f.name, value f.name))

/-- A reader takes a complete object for a value exactly if every field of it is read. -/
def Describes {α : Type} (read : Reader α) (fields : α → List ModelField) : Prop :=
  ∀ a value, read (recordOf (fields a) value) = .ok a ↔ ∀ f ∈ fields a, f.Reads (value f.name)

namespace Reader

variable {α β : Type} {name : String}

theorem bind_eq_ok {x : Except ValidationError α} {f : α → Except ValidationError β} {b : β} :
    (x >>= f) = .ok b ↔ ∃ a, x = .ok a ∧ f a = .ok b := by
  cases x <;> simp [bind, Except.bind]

theorem map_eq_ok {x : Except ValidationError α} {f : α → β} {b : β} :
    x.map f = .ok b ↔ ∃ a, x = .ok a ∧ f a = b := by
  cases x <;> simp [Except.map]

theorem functor_map_eq_ok {x : Except ValidationError α} {f : α → β} {b : β} :
    f <$> x = .ok b ↔ ∃ a, x = .ok a ∧ f a = b := map_eq_ok

@[simp] theorem within_eq_ok {x : Except ValidationError α} {a : α} :
    within name x = .ok a ↔ x = .ok a := by
  cases x <;> simp [within]

theorem required_cons {k : String} {v : Json} {members : List (String × Json)} {read : Reader α} :
    required (.obj ((k, v) :: members)) name read =
      if name = k then within name (read v) else required (.obj members) name read := by
  rw [required, get?_obj_cons]
  split_ifs <;> rfl

theorem defaulted_cons {k : String} {v : Json} {members : List (String × Json)} {read : Reader α}
    {default : α} : defaulted (.obj ((k, v) :: members)) name default read =
      if name = k then within name (read v) else defaulted (.obj members) name default read := by
  rw [defaulted, get?_obj_cons]
  split_ifs <;> rfl

theorem literal_eq_ok {text : String} {v : Json} {u : Unit} :
    literal text v = .ok u ↔ v = .str text := by
  rw [literal]
  split_ifs with same <;> simp [same, fail]

end Reader

namespace Payload

variable (ambient : Ambient)

/-- `payload_type`, with its tag. -/
def tagField (tag : String) : ModelField :=
  .of "payload_type" (literal tag) (fun _ => .str tag) ()

/-- The fields of a telemetry reading. -/
def readingFields (r : TelemetryReading) : List ModelField :=
  [.of "value" (float ambient) .float r.value, .of "timestamp_ms" (int ambient) .int r.timestampMs,
    .of "quality" (Reader.optional str) (AgentTelepathy.optional .str) r.quality]

/-- The fields of a payload. -/
def fields : Payload → List ModelField
  | .text p =>
    [tagField "text", .of "content" str .str p.content, .of "language" str .str p.language]
  | .vectorEmbedding p =>
    [tagField "vector_embedding", .of "model_id" str .str p.modelId,
      .of "dimensions" (Reader.positive ambient (.greaterThan 0)) (fun n => .int n.1)
        ⟨p.dimensions, p.positive⟩,
      .of "vector" (list (float ambient)) (fun l => .arr (l.map Json.float)) p.vector,
      .of "raw_text_fallback" (Reader.optional str) (AgentTelepathy.optional .str)
        p.rawTextFallback]
  | .crdtSync p =>
    [tagField "crdt_sync", .of "crdt_type" str .str p.crdtType,
      .of "state" (dict any) (fun d => .obj d.items) p.state,
      .of "vector_clock" (dict (int ambient))
        (fun d => .obj (d.items.map fun entry => (entry.1, .int entry.2))) p.vectorClock]
  | .image p =>
    [tagField "image", .of "data_base64" base64 (fun d => .str d.text) p.dataBase64,
      .of "mime_type" str .str p.mimeType,
      .of "width" (Reader.optional (int ambient)) (AgentTelepathy.optional .int) p.width,
      .of "height" (Reader.optional (int ambient)) (AgentTelepathy.optional .int) p.height,
      .of "source_model" (Reader.optional str) (AgentTelepathy.optional .str) p.sourceModel,
      .of "caption" (Reader.optional str) (AgentTelepathy.optional .str) p.caption]
  | .audio p =>
    [tagField "audio", .of "data_base64" base64 (fun d => .str d.text) p.dataBase64,
      .of "mime_type" str .str p.mimeType,
      .of "sample_rate" (Reader.optional (int ambient)) (AgentTelepathy.optional .int)
        p.sampleRate,
      .of "duration_seconds" (Reader.optional (float ambient)) (AgentTelepathy.optional .float)
        p.durationSeconds,
      .of "source_model" (Reader.optional str) (AgentTelepathy.optional .str) p.sourceModel,
      .of "transcript" (Reader.optional str) (AgentTelepathy.optional .str) p.transcript]
  | .video p =>
    [tagField "video", .of "data_base64" base64 (fun d => .str d.text) p.dataBase64,
      .of "mime_type" str .str p.mimeType,
      .of "width" (Reader.optional (int ambient)) (AgentTelepathy.optional .int) p.width,
      .of "height" (Reader.optional (int ambient)) (AgentTelepathy.optional .int) p.height,
      .of "duration_seconds" (Reader.optional (float ambient)) (AgentTelepathy.optional .float)
        p.durationSeconds,
      .of "fps" (Reader.optional (float ambient)) (AgentTelepathy.optional .float) p.fps,
      .of "source_model" (Reader.optional str) (AgentTelepathy.optional .str) p.sourceModel,
      .of "description" (Reader.optional str) (AgentTelepathy.optional .str) p.description]
  | .binary p =>
    [tagField "binary", .of "data_base64" base64 (fun d => .str d.text) p.dataBase64,
      .of "mime_type" str .str p.mimeType,
      .of "filename" (Reader.optional str) (AgentTelepathy.optional .str) p.filename,
      .of "description" (Reader.optional str) (AgentTelepathy.optional .str) p.description]
  | .telemetry p =>
    [tagField "telemetry", .of "sensor_id" str .str p.sensorId, .of "unit" str .str p.unit,
      .of "readings" (list (readReading ambient)) (fun l => .arr (l.map dumpReading)) p.readings,
      .of "source_protocol" str .str p.sourceProtocol]

theorem modelDumpItems_eq (p : Payload) :
    p.modelDumpItems = (fields ambient p).map fun f => (f.name, f.dumped) := by
  cases p <;> rfl

/-- The tag of a payload. -/
def tag : Payload → String
  | .text _ => "text"
  | .vectorEmbedding _ => "vector_embedding"
  | .crdtSync _ => "crdt_sync"
  | .image _ => "image"
  | .audio _ => "audio"
  | .video _ => "video"
  | .binary _ => "binary"
  | .telemetry _ => "telemetry"

/-- The model of a payload reads it from the data. -/
def ReadBy (data : Json) : Payload → Prop
  | .text p => readText data = .ok p
  | .vectorEmbedding p => readVectorEmbedding ambient data = .ok p
  | .crdtSync p => readCrdtSync ambient data = .ok p
  | .image p => readImage ambient data = .ok p
  | .audio p => readAudio ambient data = .ok p
  | .video p => readVideo ambient data = .ok p
  | .binary p => readBinary data = .ok p
  | .telemetry p => readTelemetry ambient data = .ok p

/-- The tag selects the model. -/
theorem modelValidate_eq_ok_iff {data : Json} {p : Payload} : modelValidate ambient data = .ok p ↔
    data.get? "payload_type" = some (.str p.tag) ∧ p.ReadBy ambient data := by
  constructor
  · intro valid
    rw [modelValidate, getPayloadType] at valid
    cases here : data.get? "payload_type" with
    | none => simp [here, fail, Except.bind] at valid
    | some tag =>
      cases tag with
      | str s =>
        simp only [here, Except.bind] at valid
        split at valid
        all_goals try simp [fail] at valid
        all_goals
          obtain ⟨q, read, rfl⟩ := map_eq_ok.mp valid
          simp_all [Payload.tag, ReadBy]
      | _ => simp [here, fail, Except.bind] at valid
  · rintro ⟨tag, read⟩
    rw [modelValidate, getPayloadType, tag]
    cases p <;> exact within_eq_ok.mpr (map_eq_ok.mpr ⟨_, read, rfl⟩)

theorem validateEmbedding_eq_ok_iff {modelId : String} {dimensions : { n : ℕ // 0 < n }}
    {vector : List Float64} {rawTextFallback : Option String} {p : VectorEmbeddingPayload} :
    validateEmbedding modelId dimensions vector rawTextFallback = .ok p ↔
      modelId = p.modelId ∧ dimensions = ⟨p.dimensions, p.positive⟩ ∧ vector = p.vector ∧
        rawTextFallback = p.rawTextFallback := by
  constructor
  · intro valid
    rw [validateEmbedding] at valid
    split_ifs at valid
    · obtain rfl := Except.ok.inj valid
      exact ⟨rfl, rfl, rfl, rfl⟩
    all_goals cases valid
  · rintro ⟨rfl, rfl, rfl, rfl⟩
    rw [validateEmbedding, dif_pos p.length_eq, dif_pos p.known]

section FieldByField

attribute [local simp] fields tagField recordOf ModelField.of required_cons defaulted_cons
  bind_eq_ok functor_map_eq_ok literal_eq_ok

/-- A reading is read field by field. -/
theorem describes_reading : Describes (readReading ambient) (readingFields ambient) := by
  rintro ⟨reading, timestampMs, quality⟩ value
  simp [readingFields, readReading, model]

/-- The model of a payload reads it field by field. -/
theorem readBy_recordOf (p : Payload) (value : String → Json) :
    p.ReadBy ambient (recordOf (p.fields ambient) value) ↔
      ∀ f ∈ p.fields ambient, f.Reads (value f.name) := by
  cases p with
  | text p =>
    obtain ⟨content, language⟩ := p
    simp [ReadBy, readText]
  | vectorEmbedding p =>
    simp [ReadBy, readVectorEmbedding, validateEmbedding_eq_ok_iff, p.positive]
  | crdtSync p =>
    obtain ⟨crdtType, state, vectorClock⟩ := p
    simp [ReadBy, readCrdtSync]
  | image p =>
    obtain ⟨dataBase64, mimeType, width, height, sourceModel, caption⟩ := p
    simp [ReadBy, readImage]
  | audio p =>
    obtain ⟨dataBase64, mimeType, sampleRate, durationSeconds, sourceModel, transcript⟩ := p
    simp [ReadBy, readAudio]
  | video p =>
    obtain ⟨dataBase64, mimeType, width, height, durationSeconds, fps, sourceModel, description⟩ :=
      p
    simp [ReadBy, readVideo]
  | binary p =>
    obtain ⟨dataBase64, mimeType, filename, description⟩ := p
    simp [ReadBy, readBinary]
  | telemetry p =>
    obtain ⟨sensorId, unit, readings, sourceProtocol⟩ := p
    simp [ReadBy, readTelemetry]

end FieldByField

/-- A payload is read field by field. -/
theorem describes : Describes (modelValidate ambient) (fields ambient) := by
  intro p value
  rw [modelValidate_eq_ok_iff, readBy_recordOf]
  refine and_iff_right_of_imp fun reads => ?_
  cases p <;> exact congrArg some (literal_eq_ok.mp (List.forall_mem_cons.mp reads).1)

/-! ### Names -/

/-- The tags of the union. -/
def tags : List String :=
  ["text", "vector_embedding", "crdt_sync", "image", "audio", "video", "binary", "telemetry"]

/-- The names of the fields under a tag. -/
def namesOf : String → List String
  | "text" => ["payload_type", "content", "language"]
  | "vector_embedding" =>
    ["payload_type", "model_id", "dimensions", "vector", "raw_text_fallback"]
  | "crdt_sync" => ["payload_type", "crdt_type", "state", "vector_clock"]
  | "image" =>
    ["payload_type", "data_base64", "mime_type", "width", "height", "source_model", "caption"]
  | "audio" =>
    ["payload_type", "data_base64", "mime_type", "sample_rate", "duration_seconds",
      "source_model", "transcript"]
  | "video" =>
    ["payload_type", "data_base64", "mime_type", "width", "height", "duration_seconds", "fps",
      "source_model", "description"]
  | "binary" => ["payload_type", "data_base64", "mime_type", "filename", "description"]
  | "telemetry" => ["payload_type", "sensor_id", "unit", "readings", "source_protocol"]
  | _ => []

/-- The names of the fields of a telemetry reading. -/
def readingNames : List String := ["value", "timestamp_ms", "quality"]

theorem tag_mem (p : Payload) : p.tag ∈ tags := by
  cases p <;> simp [tag, tags]

theorem names_fields (p : Payload) : (p.fields ambient).map ModelField.name = namesOf p.tag := by
  cases p <;> rfl

theorem nodup_namesOf : ∀ kind ∈ tags, (namesOf kind).Nodup := by decide

/-- No payload type has all the fields of another. -/
theorem eq_of_names_subset :
    ∀ kind ∈ tags, ∀ kind' ∈ tags, namesOf kind ⊆ namesOf kind' → kind = kind' := by
  decide

end Payload

end AgentTelepathy
