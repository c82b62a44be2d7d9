import AgentTelepathy.Foundation.EcmaDialect
import AgentTelepathy.Schemas.Records
import AgentTelepathy.Schemas.TsEnvelope
import AgentTelepathy.Schemas.Wire

/-!
# Which payloads of Python the TypeScript library accepts

The dump of a payload has exactly the fields of its schema in `schemas/envelope.ts`. So the schema
returns the dump as it is, or throws. It throws where Python is more liberal: integers that are not
safe, sizes and durations that are not positive, a reading without quality, a protocol of which it
does not know. An entry `__proto__` is passed over.
-/

namespace AgentTelepathy.TypeScript

open Foundation Schema

/-! ### What the schemas let pass -/

/-- An integer that JavaScript counts among the safe ones. -/
def Safe (n : ℤ) : Prop := n.natAbs < 2 ^ 53

/-- A positive integer that is safe. -/
def Size (n : ℤ) : Prop := Safe n ∧ 0 < n

/-- A positive finite number. -/
def Positive (x : Float64) : Prop := (Json.float x).isFinite (0 < ·) = true

/-- A finite number. -/
def Finite (x : Float64) : Prop := (Json.float x).isFinite (fun _ => true) = true

/-- A reading with a known quality. -/
def AdmitsReading (r : TelemetryReading) : Prop :=
  Finite r.value ∧ Safe r.timestampMs ∧ ∃ quality ∈ r.quality,
    quality ∈ ["Good", "Bad", "Uncertain"]

/-- The schema of its type admits a payload, with every entry that it has. -/
def Admits : Payload → Prop
  | .text _ | .binary _ => True
  | .vectorEmbedding p => Safe p.dimensions ∧ ∀ x ∈ p.vector, Finite x
  | .crdtSync p => "__proto__" ∉ p.state.keys ∧ "__proto__" ∉ p.vectorClock.keys ∧
    ∀ entry ∈ p.vectorClock.items, Safe entry.2
  | .image p => (∀ n ∈ p.width, Size n) ∧ ∀ n ∈ p.height, Size n
  | .audio p => (∀ n ∈ p.sampleRate, Size n) ∧ ∀ x ∈ p.durationSeconds, Positive x
  | .video p => (∀ n ∈ p.width, Size n) ∧ (∀ n ∈ p.height, Size n) ∧
    (∀ x ∈ p.durationSeconds, Positive x) ∧ ∀ x ∈ p.fps, Positive x
  | .telemetry p => (∀ r ∈ p.readings, AdmitsReading r) ∧
    p.sourceProtocol ∈ ["opcua", "modbus", "canbus", "mqtt"]

/-! ### The fields of a dump -/

section Cells

variable (z : Zod)

/-- `payload_type`, with its tag. -/
def tagCell (tag : String) : Cell :=
  ⟨"payload_type", z.default (z.literal tag) (.str tag), .str tag, True⟩

/-- A string with a default. -/
def textCell (name default text : String) : Cell :=
  ⟨name, z.default z.string (.str default), .str text, True⟩

/-- An optional string. -/
def nullishStringCell (name : String) (text : Option String) : Cell :=
  ⟨name, nullishString z, optional .str text, True⟩

/-- An optional size. -/
def nullishSizeCell (name : String) (size : Option ℤ) : Cell :=
  ⟨name, nullishPositiveInt z, optional (fun n => .float (Float64.ofInt n)) size, ∀ n ∈ size,
    Size n⟩

/-- An optional length. -/
def nullishPositiveCell (name : String) (length : Option Float64) : Cell :=
  ⟨name, nullishPositive z, optional .float length, ∀ x ∈ length, Positive x⟩

/-- The fields of a reading. -/
def readingCells (r : TelemetryReading) : List Cell :=
  [⟨"value", z.number fun _ => true, .float r.value, Finite r.value⟩,
    ⟨"timestamp_ms", z.int fun _ => true, .float (Float64.ofInt r.timestampMs), Safe r.timestampMs⟩,
    ⟨"quality", z.optional (z.enum ["Good", "Bad", "Uncertain"]), optional .str r.quality,
      ∃ quality ∈ r.quality, quality ∈ ["Good", "Bad", "Uncertain"]⟩]

/-- The fields of a payload. -/
def cells : Payload → List Cell
  | .text p =>
    [tagCell z "text", ⟨"content", z.string, .str p.content, True⟩,
      textCell z "language" "en" p.language]
  | .vectorEmbedding p =>
    [tagCell z "vector_embedding", ⟨"model_id", z.string, .str p.modelId, True⟩,
      ⟨"dimensions", z.int (0 < ·), .float (Float64.ofInt p.dimensions), Safe p.dimensions⟩,
      ⟨"vector", z.array (z.number fun _ => true), .arr (p.vector.map Json.float),
        ∀ x ∈ p.vector, Finite x⟩,
      nullishStringCell z "raw_text_fallback" p.rawTextFallback]
  | .crdtSync p =>
    [tagCell z "crdt_sync", ⟨"crdt_type", z.string, .str p.crdtType, True⟩,
      ⟨"state", z.record z.any, .obj (p.state.items.map fun entry => (entry.1, entry.2.toDoubles)),
        True⟩,
      ⟨"vector_clock", z.record (z.int fun _ => true),
        .obj (p.vectorClock.items.map fun entry => (entry.1, .float (Float64.ofInt entry.2))),
        ∀ entry ∈ p.vectorClock.items, Safe entry.2⟩]
  | .image p =>
    [tagCell z "image", ⟨"data_base64", z.string, .str p.dataBase64.text, True⟩,
      textCell z "mime_type" "image/png" p.mimeType, nullishSizeCell z "width" p.width,
      nullishSizeCell z "height" p.height, nullishStringCell z "source_model" p.sourceModel,
      nullishStringCell z "caption" p.caption]
  | .audio p =>
    [tagCell z "audio", ⟨"data_base64", z.string, .str p.dataBase64.text, True⟩,
      textCell z "mime_type" "audio/wav" p.mimeType, nullishSizeCell z "sample_rate" p.sampleRate,
      nullishPositiveCell z "duration_seconds" p.durationSeconds,
      nullishStringCell z "source_model" p.sourceModel,
      nullishStringCell z "transcript" p.transcript]
  | .video p =>
    [tagCell z "video", ⟨"data_base64", z.string, .str p.dataBase64.text, True⟩,
      textCell z "mime_type" "video/mp4" p.mimeType, nullishSizeCell z "width" p.width,
      nullishSizeCell z "height" p.height,
      nullishPositiveCell z "duration_seconds" p.durationSeconds,
      nullishPositiveCell z "fps" p.fps, nullishStringCell z "source_model" p.sourceModel,
      nullishStringCell z "description" p.description]
  | .binary p =>
    [tagCell z "binary", ⟨"data_base64", z.string, .str p.dataBase64.text, True⟩,
      textCell z "mime_type" "application/octet-stream" p.mimeType,
      nullishStringCell z "filename" p.filename, nullishStringCell z "description" p.description]
  | .telemetry p =>
    [tagCell z "telemetry", ⟨"sensor_id", z.string, .str p.sensorId, True⟩,
      ⟨"unit", z.string, .str p.unit, True⟩,
      ⟨"readings", z.array (telemetryReadingSchema z),
        .arr (p.readings.map fun r => (Payload.dumpReading r).toDoubles),
        ∀ r ∈ p.readings, AdmitsReading r⟩,
      ⟨"source_protocol", z.enum ["opcua", "modbus", "canbus", "mqtt"], .str p.sourceProtocol,
        p.sourceProtocol ∈ ["opcua", "modbus", "canbus", "mqtt"]⟩]

/-- The schema of a payload has the fields of its dump. -/
theorem lookup_payloadOptions (p : Payload) : (payloadOptions z).lookup p.tag =
    some (z.object ((cells z p).map fun c => (c.name, c.schema))) := by
  cases p <;> rfl

theorem nodup_cells (p : Payload) : ((cells z p).map Cell.name).Nodup := by
  have names : (cells z p).map Cell.name = Payload.namesOf p.tag := by cases p <;> rfl
  exact names ▸ Payload.nodup_namesOf _ p.tag_mem

theorem toDoubles_arr_map {α : Type*} (dump : α → Json) (l : List α) :
    (Json.arr (l.map dump)).toDoubles = .arr (l.map fun a => (dump a).toDoubles) := by
  refine congrArg Json.arr ?_
  induction l with
  | nil => rfl
  | cons a l ih => rw [List.map_cons, List.map_cons, Json.mapItems, ih, Json.toDoubles]

theorem toDoubles_obj (l : List (String × Json)) :
    (Json.obj l).toDoubles = .obj (l.map fun entry => (entry.1, entry.2.toDoubles)) :=
  congrArg Json.obj (Json.mapMembers_eq_map l)

theorem toDoubles_optional {α : Type*} (dump : α → Json) (value : Option α) :
    (optional dump value).toDoubles = optional (fun a => (dump a).toDoubles) value := by
  cases value <;> rfl

/-- The dump of a payload as JavaScript reads it. -/
theorem toDoubles_modelDump (p : Payload) :
    p.modelDump.toDoubles = .obj ((cells z p).map fun c => (c.name, c.data)) := by
  rw [Payload.modelDump, toDoubles_obj]
  refine congrArg Json.obj ?_
  cases p <;> simp only [Payload.modelDumpItems, cells, tagCell, textCell, nullishStringCell,
    nullishSizeCell, nullishPositiveCell, List.map_cons, List.map_nil, toDoubles_optional,
    toDoubles_arr_map, toDoubles_obj, List.map_map, Function.comp_def]
  all_goals rfl

theorem tests_tagCell (tag : String) : Tests (tagCell z tag).schema (tagCell z tag).data True :=
  z.tests_default (z.tests_literal tag) _

theorem tests_nullishString (text : Option String) :
    Tests (nullishString z) (optional .str text) True :=
  (z.tests_nullish text (by simp) z.tests_string).congr (by simp)

theorem tests_nullishSize (size : Option ℤ) : Tests (nullishPositiveInt z)
    (optional (fun n => .float (Float64.ofInt n)) size) (∀ n ∈ size, Size n) := by
  refine z.tests_nullish size (by simp) fun n => (z.tests_int _ n).congr ?_
  rw [Size, Safe, decide_eq_true_iff, Int.cast_pos]

theorem tests_nullishPositive (length : Option Float64) : Tests (nullishPositive z)
    (optional .float length) (∀ x ∈ length, Positive x) :=
  z.tests_nullish length (by simp) fun x => z.tests_number _ x

theorem tests_quality (quality : Option String) (known : List String) :
    Tests (z.optional (z.enum known)) (optional .str quality) (∃ q ∈ quality, q ∈ known) := by
  refine z.tests_optional ?_
  cases quality with
  | none =>
    rw [z.enum_eq]
    exact (tests_only _ _).congr (iff_of_false nofun (by simp))
  | some text => exact (z.tests_enum known text).congr (by simp)

theorem tests_reading (r : TelemetryReading) :
    Tests (telemetryReadingSchema z) (Payload.dumpReading r).toDoubles (AdmitsReading r) := by
  have dumped : (Payload.dumpReading r).toDoubles =
      .obj ((readingCells z r).map fun c => (c.name, c.data)) := by
    simp only [Payload.dumpReading, toDoubles_obj, readingCells, List.map_cons, List.map_nil,
      toDoubles_optional]
    rfl
  rw [dumped]
  refine (z.tests_object (readingCells z r) (by simp [readingCells]) ?_).congr ?_
  · simp only [readingCells, List.forall_mem_cons]
    refine ⟨z.tests_number _ _, (z.tests_int _ _).congr ?_, tests_quality z _ _,
      List.forall_mem_nil _⟩
    rw [and_iff_left rfl, Safe]
  · simp [readingCells, AdmitsReading]

/-- Every field is returned as it is if its condition holds. -/
theorem tests_cells (p : Payload) (plain : ∀ q, p = .crdtSync q →
    "__proto__" ∉ q.state.keys ∧ "__proto__" ∉ q.vectorClock.keys) :
    ∀ c ∈ cells z p, Tests c.schema c.data c.condition := by
  have text (name default text : String) :
      Tests (textCell z name default text).schema (textCell z name default text).data True :=
    z.tests_default (z.tests_string text) _
  cases p with
  | text p =>
    simp only [cells, List.forall_mem_cons]
    exact ⟨tests_tagCell z _, z.tests_string _, text _ _ _, List.forall_mem_nil _⟩
  | vectorEmbedding p =>
    simp only [cells, List.forall_mem_cons]
    refine ⟨tests_tagCell z _, z.tests_string _, (z.tests_int _ _).congr ?_, ?_,
      tests_nullishString z _, List.forall_mem_nil _⟩
    · rw [Safe, decide_eq_true_iff, Int.cast_pos, and_iff_left]
      exact Int.natCast_pos.mpr p.positive
    · exact z.tests_array _ fun x => z.tests_number _ x
  | crdtSync p =>
    obtain ⟨state, clock⟩ := plain p rfl
    simp only [cells, List.forall_mem_cons]
    refine ⟨tests_tagCell z _, z.tests_string _, ?_, ?_, List.forall_mem_nil _⟩
    · exact (z.tests_record state fun v => z.tests_any v.toDoubles).congr (by simp)
    · refine z.tests_record clock fun n => (z.tests_int _ n).congr ?_
      rw [and_iff_left rfl, Safe]
  | image p =>
    simp only [cells, List.forall_mem_cons]
    exact ⟨tests_tagCell z _, z.tests_string _, text _ _ _, tests_nullishSize z _,
      tests_nullishSize z _, tests_nullishString z _, tests_nullishString z _,
        List.forall_mem_nil _⟩
  | audio p =>
    simp only [cells, List.forall_mem_cons]
    exact ⟨tests_tagCell z _, z.tests_string _, text _ _ _, tests_nullishSize z _,
      tests_nullishPositive z _, tests_nullishString z _, tests_nullishString z _,
        List.forall_mem_nil _⟩
  | video p =>
    simp only [cells, List.forall_mem_cons]
    exact ⟨tests_tagCell z _, z.tests_string _, text _ _ _, tests_nullishSize z _,
      tests_nullishSize z _, tests_nullishPositive z _, tests_nullishPositive z _,
      tests_nullishString z _, tests_nullishString z _, List.forall_mem_nil _⟩
  | binary p =>
    simp only [cells, List.forall_mem_cons]
    exact ⟨tests_tagCell z _, z.tests_string _, text _ _ _, tests_nullishString z _,
      tests_nullishString z _, List.forall_mem_nil _⟩
  | telemetry p =>
    simp only [cells, List.forall_mem_cons]
    exact ⟨tests_tagCell z _, z.tests_string _, z.tests_string _,
      z.tests_array _ fun r => tests_reading z r, z.tests_enum _ _, List.forall_mem_nil _⟩

theorem conditions_iff (p : Payload) (plain : ∀ q, p = .crdtSync q →
    "__proto__" ∉ q.state.keys ∧ "__proto__" ∉ q.vectorClock.keys) :
    (∀ c ∈ cells z p, c.condition) ↔ Admits p := by
  cases p with
  | crdtSync p =>
    obtain ⟨state, clock⟩ := plain p rfl
    simp [cells, tagCell, Admits, state, clock]
  | _ =>
    simp [cells, tagCell, textCell, nullishStringCell, nullishSizeCell, nullishPositiveCell, Admits]

/-- A payload without `__proto__` is returned as it is if it is admitted. -/
theorem tests_payload (p : Payload) (plain : ∀ q, p = .crdtSync q →
    "__proto__" ∉ q.state.keys ∧ "__proto__" ∉ q.vectorClock.keys) :
    Tests (payloadSchema z) p.modelDump.toDoubles (Admits p) := by
  have tagged : ((cells z p).map fun c => (c.name, c.data)).lookup "payload_type" =
      some (.str p.tag) := by
    cases p <;> rfl
  rw [payloadSchema, z.discriminatedUnion_eq, toDoubles_modelDump z]
  refine tests_discriminatedUnion tagged (lookup_payloadOptions z p) ?_
  exact (z.tests_object (cells z p) (nodup_cells z p) (tests_cells z p plain)).congr
    (conditions_iff z p plain)

end Cells

variable {z : Zod}

/-- The entries that a schema of records returns have other names than `__proto__`, and so have
those of a dump that is returned as it is. -/
theorem plain_of_lookup {s : Schema} {v : Option Json} {returned : List (String × Json)}
    {name : String} {entries : List (String × Json)}
    (taken : z.record s v = some (returned.lookup name))
    (same : (returned.map fun e => (e.1, e.2.toDoubles)).lookup name = some (.obj entries)) :
    "__proto__" ∉ entries.map Prod.fst := by
  rw [lookup_map_snd, Option.map_eq_some_iff] at same
  obtain ⟨inner, found, doubled⟩ := same
  rw [found, z.record_eq] at taken
  obtain ⟨l, members, -, isObject, -⟩ := record_eq_some_iff.mp taken
  obtain rfl := Option.some.inj isObject
  rw [toDoubles_obj] at doubled
  have keys := congrArg (List.map Prod.fst) (Json.obj.inj doubled)
  rw [List.map_map] at keys
  rw [← keys]
  exact plain_of_record taken

/-- What the schema returns for the dump of a synchronisation has no `__proto__`. -/
theorem plain_of_returned {p : CRDTSyncPayload} {returned : Json}
    (accepted : (payloadSchema z).on (Payload.crdtSync p).modelDump.toDoubles = some returned)
    (same : returned.toDoubles = (Payload.crdtSync p).modelDump.toDoubles) :
    "__proto__" ∉ p.state.keys ∧ "__proto__" ∉ p.vectorClock.keys := by
  have whole := Option.join_eq_some_iff.mp accepted
  rw [payloadSchema, z.discriminatedUnion_eq, toDoubles_modelDump z] at whole
  rw [toDoubles_modelDump z] at same
  change crdtSyncPayloadSchema z (some _) = some (some returned) at whole
  rw [crdtSyncPayloadSchema, payloadObject, z.object_eq] at whole
  have state : ("state", z.record z.any) ∈ [("crdt_type", z.string), ("state", z.record z.any),
      ("vector_clock", z.record (z.int fun _ => true))] := by simp
  have clock : ("vector_clock", z.record (z.int fun _ => true)) ∈ [("crdt_type", z.string),
      ("state", z.record z.any), ("vector_clock", z.record (z.int fun _ => true))] := by simp
  obtain ⟨_, members, -, isObject, stateTaken⟩ :=
    lookup_of_object (by simp) whole (List.mem_cons_of_mem _ state)
  obtain ⟨_, members', -, isObject', clockTaken⟩ :=
    lookup_of_object (by simp) whole (List.mem_cons_of_mem _ clock)
  obtain rfl := Option.some.inj isObject
  obtain rfl := Json.obj.inj (Option.some.inj isObject')
  rw [toDoubles_obj] at same
  have fields := Json.obj.inj same
  have stateNames := plain_of_lookup stateTaken (by rw [fields]; rfl)
  have clockNames := plain_of_lookup clockTaken (by rw [fields]; rfl)
  rw [List.map_map] at stateNames clockNames
  exact ⟨stateNames, clockNames⟩

/-! ### Envelopes -/

/-- `JSON.parse` of the text that Python emits for an envelope. -/
def received (e : AgentTelepathy.TPCPEnvelope) : Json := e.toJson.toDoubles

/-- The ids of a header are UUIDs for the library. -/
def Addressed (z : Zod) (h : MessageHeader) : Prop :=
  z.isUuid h.messageId.toText = true ∧ z.isUuid h.senderId.toText = true ∧
    z.isUuid h.receiverId.toText = true

/-- An envelope that `TPCPEnvelopeSchema` accepts. -/
structure Readable (z : Zod) (e : AgentTelepathy.TPCPEnvelope) : Prop where
  addressed : Addressed z e.header
  ttl : Safe e.header.ttl
  admitted : Admits e.payload
  acked : ∀ a ∈ e.ackInfo, z.isUuid a.ackedMessageId.toText = true
  chunk : ∀ c ∈ e.chunkInfo,
    Safe c.chunkIndex ∧ Safe c.totalChunks ∧ z.isUuid c.transferId.toText = true

theorem tests_header (z : Zod) (h : MessageHeader) :
    Tests (messageHeaderSchema z) h.toJson.toDoubles (Addressed z h ∧ Safe h.ttl) := by
  let cells : List Cell :=
    [⟨"message_id", z.uuid, .str h.messageId.toText, z.isUuid h.messageId.toText = true⟩,
      ⟨"timestamp", z.string, .str h.timestamp.toText, True⟩,
      ⟨"sender_id", z.uuid, .str h.senderId.toText, z.isUuid h.senderId.toText = true⟩,
      ⟨"receiver_id", z.uuid, .str h.receiverId.toText, z.isUuid h.receiverId.toText = true⟩,
      ⟨"intent", z.enum (Intent.all.map Intent.value), .str h.intent.value, True⟩,
      ⟨"ttl", z.default (z.int (0 ≤ ·)) (.int 30), .float (Float64.ofInt h.ttl), Safe h.ttl⟩,
      ⟨"protocol_version", z.default z.string (.str protocolVersion), .str h.protocolVersion, True⟩]
  refine (z.tests_object cells (by simp [cells]) ?_).congr ?_
  · simp only [cells, List.forall_mem_cons]
    refine ⟨z.tests_uuid _, z.tests_string _, z.tests_uuid _, z.tests_uuid _,
      (z.tests_enum _ _).congr (iff_of_true ?_ trivial),
      (z.tests_default (z.tests_int _ _) _).congr ?_,
      z.tests_default (z.tests_string _) _, List.forall_mem_nil _⟩
    · exact List.mem_map_of_mem (by cases h.intent <;> decide)
    · rw [Safe, decide_eq_true_iff, and_iff_left]
      exact_mod_cast Nat.zero_le h.ttl
  · simp [cells, Addressed, and_assoc]

theorem tests_ackInfo (z : Zod) (a : AckInfo) : Tests (ackInfoSchema z) a.toJson.toDoubles
    (z.isUuid a.ackedMessageId.toText = true) := by
  let cells : List Cell := [⟨"acked_message_id", z.uuid, .str a.ackedMessageId.toText,
    z.isUuid a.ackedMessageId.toText = true⟩]
  refine (z.tests_object cells (by simp [cells]) ?_).congr (by simp [cells])
  simp only [cells, List.forall_mem_cons]
  exact ⟨z.tests_uuid _, List.forall_mem_nil _⟩

theorem tests_chunkInfo (z : Zod) (c : ChunkInfo) : Tests (chunkInfoSchema z) c.toJson.toDoubles
    (Safe c.chunkIndex ∧ Safe c.totalChunks ∧ z.isUuid c.transferId.toText = true) := by
  let cells : List Cell :=
    [⟨"chunk_index", z.int (0 ≤ ·), .float (Float64.ofInt c.chunkIndex), Safe c.chunkIndex⟩,
      ⟨"total_chunks", z.int (1 ≤ ·), .float (Float64.ofInt c.totalChunks), Safe c.totalChunks⟩,
      ⟨"transfer_id", z.uuid, .str c.transferId.toText, z.isUuid c.transferId.toText = true⟩]
  refine (z.tests_object cells (by simp [cells]) ?_).congr (by simp [cells])
  simp only [cells, List.forall_mem_cons]
  refine ⟨(z.tests_int _ _).congr ?_, (z.tests_int _ _).congr ?_, z.tests_uuid _,
    List.forall_mem_nil _⟩
  · rw [Safe, decide_eq_true_iff, and_iff_left]
    exact_mod_cast Nat.zero_le c.chunkIndex
  · rw [Safe, decide_eq_true_iff, and_iff_left]
    exact_mod_cast c.positive

/-- The schema returns an envelope of finite numbers without `__proto__` as it is, if it is
readable. -/
theorem tests_envelope (z : Zod) {e : AgentTelepathy.TPCPEnvelope}
    (finite : emitted e.payload.modelDump = e.payload.modelDump)
    (plain : ∀ q, e.payload = .crdtSync q →
      "__proto__" ∉ q.state.keys ∧ "__proto__" ∉ q.vectorClock.keys) :
    Tests (tpcpEnvelopeSchema z) (received e) (Readable z e) := by
  let cells : List Cell :=
    [⟨"header", messageHeaderSchema z, e.header.toJson.toDoubles,
        Addressed z e.header ∧ Safe e.header.ttl⟩,
      ⟨"payload", payloadSchema z, e.payload.modelDump.toDoubles, Admits e.payload⟩,
      ⟨"signature", nullishString z, optional .str e.signature, True⟩,
      ⟨"ack_info", z.optional (z.nullable (ackInfoSchema z)),
        optional (fun a => a.toJson.toDoubles) e.ackInfo,
        ∀ a ∈ e.ackInfo, z.isUuid a.ackedMessageId.toText = true⟩,
      ⟨"chunk_info", z.optional (z.nullable (chunkInfoSchema z)),
        optional (fun c => c.toJson.toDoubles) e.chunkInfo, ∀ c ∈ e.chunkInfo,
          Safe c.chunkIndex ∧ Safe c.totalChunks ∧ z.isUuid c.transferId.toText = true⟩]
  have data : received e = .obj (cells.map fun c => (c.name, c.data)) := by
    rw [received, TPCPEnvelope.toJson, finite, toDoubles_obj]
    simp only [List.map_cons, List.map_nil, toDoubles_optional]
    rfl
  rw [data]
  refine (z.tests_object cells (by simp [cells]) ?_).congr ?_
  · simp only [cells, List.forall_mem_cons]
    exact ⟨tests_header z _, tests_payload z _ plain, tests_nullishString z _,
      z.tests_nullish _ (fun a null => by cases null) fun a => tests_ackInfo z a,
      z.tests_nullish _ (fun c null => by cases null) fun c => tests_chunkInfo z c,
      List.forall_mem_nil _⟩
  · simp only [cells, List.forall_mem_cons]
    constructor
    · rintro ⟨⟨addressed, ttl⟩, admitted, -, acked, chunk, -⟩
      exact ⟨addressed, ttl, admitted, acked, chunk⟩
    · intro readable
      exact ⟨⟨readable.addressed, readable.ttl⟩, readable.admitted, trivial, readable.acked,
        readable.chunk, List.forall_mem_nil _⟩

/-- An envelope whose payload comes back has no `__proto__`. -/
theorem plain_of_envelope {e : AgentTelepathy.TPCPEnvelope} {returned payload : Json}
    (finite : emitted e.payload.modelDump = e.payload.modelDump)
    (accepted : (tpcpEnvelopeSchema z).on (received e) = some returned)
    (found : returned.get? "payload" = some payload)
    (same : payload.toDoubles = e.payload.modelDump.toDoubles) : ∀ q, e.payload = .crdtSync q →
      "__proto__" ∉ q.state.keys ∧ "__proto__" ∉ q.vectorClock.keys := by
  have whole := Option.join_eq_some_iff.mp accepted
  rw [tpcpEnvelopeSchema, z.object_eq] at whole
  obtain ⟨members, members', sent, isObject, taken⟩ := lookup_of_object (by simp) whole
    (List.mem_cons_of_mem ("header", messageHeaderSchema z) List.mem_cons_self)
  obtain rfl := Option.some.inj isObject
  rw [received, TPCPEnvelope.toJson, finite, toDoubles_obj] at sent
  have here : payloadSchema z (some e.payload.modelDump.toDoubles) = some (some payload) := by
    rw [← Json.obj.inj (Option.some.inj sent)] at taken
    exact taken.trans (congrArg some found)
  intro q isSync
  rw [isSync] at here same
  exact plain_of_returned (Option.join_eq_some_iff.mpr here) same

/-- `TPCPEnvelopeSchema` accepts the text of a Python envelope with finite numbers, and returns all
that Python has sent, exactly if the envelope is readable. -/
theorem returned_iff_readable (z : Zod) {e : AgentTelepathy.TPCPEnvelope}
    (finite : allFinite e.payload.modelDump = true) :
    (tpcpEnvelopeSchema z).on (received e) = some (received e) ↔ Readable z e := by
  have same := emitted_of_allFinite _ finite
  constructor
  · intro accepted
    have found : (received e).get? "payload" = some e.payload.modelDump.toDoubles := by
      rw [received, TPCPEnvelope.toJson, same, toDoubles_obj]
      rfl
    have plain := plain_of_envelope same accepted found (Json.toDoubles_toDoubles _)
    exact ((tests_envelope z same plain).on_iff.mp accepted).1
  · intro readable
    refine (tests_envelope z same fun q isSync => ?_).on_iff.mpr ⟨readable, rfl⟩
    have admitted := readable.admitted
    rw [isSync] at admitted
    exact ⟨admitted.1, admitted.2.1⟩

/-- A reading of a CAN bus, which has no quality. -/
def canReading (header : MessageHeader) : AgentTelepathy.TPCPEnvelope where
  header := header
  payload := .telemetry ⟨"can_0x123", "raw", [⟨.finite ⟨false, 0, -1074, Binary64.normal_zero⟩,
    1767322800000, none⟩], "canbus"⟩
  signature := none
  ackInfo := none
  chunkInfo := none

/-- No reading of a CAN bus is accepted. -/
theorem not_returned_canReading :
    let z := Zod.plain Zod.hasUuidForm Zod.hasUuidForm_chars
    let e := canReading ⟨⟨0, 0, 0x4000, 0x8000, 1⟩, ⟨2026, 1, 2, 3, 0, 0, 0, by decide⟩,
      ⟨0, 0, 0x4000, 0x8000, 2⟩, UUID.nil, .stateSync, 30, protocolVersion⟩
    (tpcpEnvelopeSchema z).on (received e) ≠ some (received e) := by
  intro z e
  refine (returned_iff_readable z rfl).not.mpr fun readable => ?_
  obtain ⟨quality, none, -⟩ := (readable.admitted.1 _ List.mem_cons_self).2.2
  cases none

/-! ### Text -/

mutual

/-- A value that is written alike has no number that is emitted as null. -/
theorem emitted_of_alike : ∀ v : Json, Ecma.Alike v → emitted v = v
  | .null, _ | .bool _, _ | .int _, _ | .str _, _ => rfl
  | .float x, alike => by
    cases x with
    | finite b => rfl
    | infinite neg => exact alike.elim
    | nan => exact alike.elim
  | .arr l, alike => congrArg Json.arr (emittedItems_of_alike l alike)
  | .obj l, alike => congrArg Json.obj (emittedMembers_of_alike l alike.2)

theorem emittedItems_of_alike : ∀ l : List Json, JsonTree.ItemsPass
    { number := Numeral.Shared
      keys := JsonTree.SameOrder CodeUnits.codePoints.code CodeUnits.utf16.code }
    (Json.treeItems l) → emittedItems l = l
  | [], _ => rfl
  | v :: l, alike => by
    rw [emittedItems, emitted_of_alike v alike.1, emittedItems_of_alike l alike.2]

theorem emittedMembers_of_alike : ∀ l : List (String × Json), JsonTree.MembersPass
    { number := Numeral.Shared
      keys := JsonTree.SameOrder CodeUnits.codePoints.code CodeUnits.utf16.code }
    (Json.treeMembers l) → emittedMembers l = l
  | [], _ => rfl
  | (k, v) :: l, alike => by
    rw [emittedMembers, emitted_of_alike v alike.2.1, emittedMembers_of_alike l alike.2.2]

end

mutual

/-- JavaScript writes null where Python has emitted it. -/
theorem text_emitted : ∀ v : Json, Ecma.text (emitted v) = Ecma.text v
  | .null | .bool _ | .int _ | .str _ => rfl
  | .float x => by cases x <;> rfl
  | .arr l => by rw [emitted, Ecma.text, Ecma.text, textItems_emittedItems l]
  | .obj l => by rw [emitted, Ecma.text, Ecma.text, textMembers_emittedMembers l]

theorem textItems_emittedItems : ∀ l : List Json, Ecma.textItems (emittedItems l) = Ecma.textItems l
  | [] => rfl
  | v :: l => by
    rw [emittedItems, Ecma.textItems, Ecma.textItems, text_emitted v, textItems_emittedItems l]

theorem textMembers_emittedMembers :
    ∀ l : List (String × Json), Ecma.textMembers (emittedMembers l) = Ecma.textMembers l
  | [] => rfl
  | (k, v) :: l => by
    rw [emittedMembers, Ecma.textMembers, Ecma.textMembers, text_emitted v,
      textMembers_emittedMembers l]

end

/-- Python signs what JavaScript verifies exactly if both write the payload alike. -/
theorem canonical_eq_stringify_iff {v : Json} (distinct : v.tree.Distinct) :
    canonical v = utf8 (Ecma.stringify (Ecma.Value.parse (emitted v))) ↔ Ecma.Alike v := by
  rw [canonical, utf8_injective.eq_iff, Ecma.stringify_parse, text_emitted, Dialect.dumpsSorted_eq,
    String.ofList_inj, Ecma.python_eq_text_iff distinct]

end AgentTelepathy.TypeScript
