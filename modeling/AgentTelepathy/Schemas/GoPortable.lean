import AgentTelepathy.Foundation.GoText
import AgentTelepathy.Schemas.Acceptance
import AgentTelepathy.Schemas.GoPayload

/-!
# Which payloads of the Go library Python accepts

Go leaves empty fields out, where the model of Python has a default that is dumped. It
escapes what a browser might take for markup, writes a float as JavaScript does, and an
integer as the nearest double. So Python accepts what has none of these.
-/

namespace AgentTelepathy.Go

open Foundation GoJson
open Reader hiding literal

/-- What Go signs and sends: its canonical text, and the numbers that its documents have. -/
def emitter : Emitter Decimal := ⟨documents, fun d => Numeral.ofText (literal d)⟩

variable {ambient : Ambient} {name : String} {α : Type}

/-! ### Conditions -/

/-- The string has no character that Go escapes and Python does not. -/
def Plain (s : String) : Prop := ∀ c ∈ s.toList, c ∉ ['<', '>', '&', '\u2028', '\u2029']

/-- A string that Python reads and writes as Go has signed it. -/
def PlainText (s : Bytes) : Prop := Plain (textOf s)

/-- A field with `omitempty` that is there. -/
def Given (s : Bytes) : Prop := s ≠ [] ∧ PlainText s

/-- A float that is written alike; in particular it is no integer below `10 ^ 21`. -/
def SharedFloat (x : Float64) : Prop := Numeral.Shared (.inr x)

/-- The strings are plain, and the numbers in the document are written alike by all. -/
def shareable : JsonTree.Test Decimal where
  number d := (Numeral.ofText (literal d)).Shared ∧ ¬ NegativeZero d
  string := Plain

/-- A value of any type that is written alike. -/
def Shareable (v : GoValue) : Prop := ∃ t, wire v = some t ∧ t.Passes shareable

instance (s : String) : Decidable (Plain s) :=
  decidable_of_iff (s.toList.all fun c => decide (c ∉ ['<', '>', '&', '\u2028', '\u2029'])) (by
    simp [Plain])

/-- A reading has a quality, and its numbers are written alike. -/
def TelemetryReading.Portable (r : TelemetryReading) : Prop :=
  SharedFloat r.value ∧ Numeral.Exact r.timestampMs ∧ Given r.quality

/-- A reading as Python reads it. -/
def TelemetryReading.received (r : TelemetryReading) : AgentTelepathy.TelemetryReading :=
  ⟨r.value, r.timestampMs, some (textOf r.quality)⟩

theorem escape_eq_iff (c : Char) : escaping.escape c = JsonText.unicodeEscaping.escape c ↔
    c ∉ ['<', '>', '&', '\u2028', '\u2029'] := by
  by_cases markup : c ∈ ['<', '>', '&', '\u2028', '\u2029']
  · have table : ∀ c ∈ ['<', '>', '&', '\u2028', '\u2029'],
        escaping.escape c ≠ JsonText.unicodeEscaping.escape c :=
      JsonText.forall_mem_of_all (by decide)
    exact iff_of_false (table c markup) (not_not_intro markup)
  · refine iff_of_true ?_ markup
    simp only [escaping, JsonText.unicodeEscaping, JsonText.escapeWith, markup,
      not_false_eq_true, and_true]

theorem alike_iff (s : String) :
    JsonTree.Alike escaping JsonText.unicodeEscaping s ↔ Plain s :=
  forall₂_congr fun c _ => escape_eq_iff c

theorem sameOrder (names : List String) :
    JsonTree.SameOrder CodeUnits.utf8.code CodeUnits.codePoints.code names := fun j _ k _ => by
  rw [CodeUnits.ordered_utf8.code_le_iff, CodeUnits.ordered_codePoints.code_le_iff]

theorem plain_emitter {names : List String} (plain : ∀ k ∈ names, Plain k) :
    emitter.Plain names :=
  ⟨sameOrder names, fun k member => (alike_iff k).mpr (plain k member)⟩

theorem plain_namesOf :
    ∀ kind ∈ Payload.tags, ∀ k ∈ AgentTelepathy.Payload.namesOf kind, Plain k := by
  have table : (Payload.tags.all fun kind =>
      (AgentTelepathy.Payload.namesOf kind).all fun k => decide (Plain k)) = true := by
    decide +kernel
  simpa only [List.all_eq_true, decide_eq_true_eq] using table

theorem alike_emitter_iff {t : JsonTree Decimal} : t.Passes emitter.alike ↔ t.Passes shareable := by
  refine ⟨fun h => h.imp ⟨fun d => ?_, fun s => ?_, fun _ _ => trivial⟩,
    fun h => h.imp ⟨fun d => ?_, fun s => ?_, fun names _ => sameOrder names⟩⟩
  · exact (numberOf_eq_iff d).mp
  · exact (alike_iff s).mp
  · exact (numberOf_eq_iff d).mpr
  · exact (alike_iff s).mpr

/-! ### Cells -/

@[simp] theorem name_always (v : GoValue) : (always name v).1.name = name := rfl

@[simp] theorem name_omitempty (v : GoValue) : (omitempty name v).1.name = name := rfl

@[simp] theorem cell_always (v : GoValue) : cell (always name v) = wire v := rfl

theorem wire_string (s : Bytes) : wire (.string s) = some (.str (textOf s)) := by
  change some (JsonTree.str (readString (stringUnits s))) = _
  rw [stringUnits, readString_units, textOf]

/-- An integer in a document. -/
def ofInt (n : ℤ) : Decimal := ⟨decide (n < 0), n.natAbs, 0⟩

theorem wire_int (n : ℤ) : wire (.int n) = some (.num (ofInt n)) := rfl

theorem wire_float (b : Binary64) : wire (.float64 (.finite b)) = some (.num (.shortest b)) := rfl

theorem cell_omitempty_string (s : Bytes) : cell (omitempty name (.string s)) =
    if s = [] then none else some (.str (textOf s)) := by
  rw [cell, ← wire_string]
  by_cases empty : s = [] <;> simp [omitempty, isEmptyValue, empty]

theorem cell_omitempty_pointer {value : α → GoValue} (a : Option α) :
    cell (omitempty name (pointer value a)) = a.bind fun a => wire (value a) := by
  cases a <;> rfl

/-! ### Fields -/

section Fields

variable {read : Reader α} {dump : α → Json}

theorem matches_string_iff {s : Bytes} {a : String} :
    emitter.Matches str .str (wire (.string s)) a ↔ a = textOf s ∧ PlainText s := by
  rw [wire_string, Emitter.matches_str_iff]
  exact and_congr Iff.rfl (alike_iff _)

theorem matches_given_iff {s : Bytes} {a : String} :
    emitter.Matches str .str (cell (omitempty name (.string s))) a ↔ a = textOf s ∧ Given s := by
  rw [cell_omitempty_string, Given]
  split_ifs with empty
  · simp [empty]
  · rw [← wire_string, matches_string_iff]
    simp [empty]

theorem matches_optional_given_iff {s : Bytes} {a : Option String} :
    emitter.Matches (Reader.optional str) (AgentTelepathy.optional .str)
        (cell (omitempty name (.string s))) a ↔ a = some (textOf s) ∧ Given s := by
  rw [cell_omitempty_string, Given]
  split_ifs with empty
  · simp [empty]
  · rw [Emitter.matches_optional_iff (by simp), ← wire_string]
    simp [matches_string_iff, empty]

theorem matches_base64_iff {s : Bytes} {a : Base64Data} :
    emitter.Matches base64 (fun d => .str d.text) (wire (.string s)) a ↔
      a.text = textOf s ∧ PlainText s := by
  rw [wire_string, Emitter.matches_base64_iff]
  exact and_congr Iff.rfl (alike_iff _)

theorem numeral_ofInt (n : ℤ) : emitter.numeral (ofInt n) = .inl n := by
  have text : literal (ofInt n) = JsonText.intText n := by
    rw [literal, ofInt, if_pos (.inr rfl)]
    rfl
  exact (congrArg Numeral.ofText text).trans (Numeral.ofText_intText n)

theorem number_ofInt_iff (n : ℤ) :
    emitter.dialect.number (ofInt n) = JsonText.intText n ↔ Numeral.Exact n := by
  have written := numberOf_eq_iff (ofInt n)
  rw [show Numeral.ofText (literal (ofInt n)) = .inl n from numeral_ofInt n] at written
  refine written.trans (and_iff_left fun negative => ?_)
  have below := of_decide_eq_true negative.1
  have zero := Int.natAbs_eq_zero.mp negative.2
  omega

theorem matches_int_iff {n a : ℤ} :
    emitter.Matches (int ambient) .int (wire (.int n)) a ↔ a = n ∧ Numeral.Exact n := by
  rw [wire_int, Emitter.matches_int_iff (numeral_ofInt n), number_ofInt_iff]

/-- An integer that may be nil is there, and has its digits. -/
theorem matches_optional_int_iff {n a : Option ℤ} :
    emitter.Matches (Reader.optional (int ambient)) (AgentTelepathy.optional .int)
        (cell (omitempty name (pointer .int n))) a ↔ a = n ∧ ∃ i, n = some i ∧ Numeral.Exact i := by
  rw [cell_omitempty_pointer]
  cases n with
  | none => simp
  | some i =>
    rw [Option.bind_some, wire_int, Emitter.matches_optional_iff (by simp), ← wire_int]
    simp [matches_int_iff]

theorem matches_positive_iff {n : ℤ} {kind : ErrorKind} {a : { n : ℕ // 0 < n }} :
    emitter.Matches (Reader.positive ambient kind) (fun n => .int n.1) (wire (.int n)) a ↔
      a.1 = n ∧ Numeral.Exact n := by
  rw [wire_int, Emitter.matches_positive_iff (numeral_ofInt n), number_ofInt_iff]

theorem sends_shortest (b : Binary64) : emitter.Sends (.shortest b) b where
  zero mant := by
    refine ⟨b.neg, (numberOf_finite (Decimal.toFloat_shortest b)).trans ?_⟩
    rw [numberText, if_pos mant]
    rfl
  nonzero mant := by
    refine (numberOf_finite (Decimal.toFloat_shortest b)).trans ?_
    rw [numberText, if_neg mant]
  read := by
    refine congrArg Numeral.ofText (Eq.trans ?_ (numberOf_finite (Decimal.toFloat_shortest b)).symm)
    exact literal_shortest b

theorem matches_float_iff {x f : Float64} :
    emitter.Matches (float ambient) .float (wire (.float64 x)) f ↔ f = x ∧ SharedFloat x := by
  cases x with
  | finite b => rw [wire_float, Emitter.matches_float_iff (sends_shortest b)]; rfl
  | infinite neg => simp [wire, marshalValue, SharedFloat, Numeral.Shared]
  | nan => simp [wire, marshalValue, SharedFloat, Numeral.Shared]

theorem matches_optional_float_iff {x a : Option Float64} :
    emitter.Matches (Reader.optional (float ambient)) (AgentTelepathy.optional .float)
        (cell (omitempty name (pointer .float64 x))) a ↔
      a = x ∧ ∃ f, x = some f ∧ SharedFloat f := by
  rw [cell_omitempty_pointer]
  cases x with
  | none => simp
  | some f =>
    rw [Option.bind_some]
    cases f with
    | finite b =>
      rw [wire_float, Emitter.matches_optional_iff (by simp), ← wire_float]
      simp [matches_float_iff]
    | infinite neg => simp [wire, marshalValue, SharedFloat, Numeral.Shared]
    | nan => simp [wire, marshalValue, SharedFloat, Numeral.Shared]

/-! Slices and maps -/

theorem matches_slice_iff {vs : List GoValue} {as : List α} :
    emitter.Matches (list read) (fun l => .arr (l.map dump)) (wire (.slice vs)) as ↔
      List.Forall₂ (fun v a => emitter.Matches read dump (wire v) a) vs as := by
  have items : (∃ docs, marshalItems vs = some docs ∧
      List.Forall₂ (fun doc a => emitter.Matches read dump (some (tree doc)) a) docs as) ↔
        List.Forall₂ (fun v a => emitter.Matches read dump (wire v) a) vs as := by
    induction vs generalizing as with
    | nil => cases as <;> simp [marshalItems]
    | cons v vs ih =>
      cases as with
      | nil =>
        rw [marshalItems]
        cases marshalValue v <;> cases marshalItems vs <;> simp
      | cons a as =>
        rw [List.forall₂_cons, ← ih, marshalItems, wire]
        cases marshalValue v with
        | none => simp
        | some doc => cases marshalItems vs <;> simp
  rw [← items, wire, marshalValue]
  cases marshalItems vs with
  | none => simp
  | some docs =>
    simp only [Option.map_some, tree_arr, Emitter.matches_list_iff, List.forall₂_map_left_iff,
      Option.some.injEq, exists_eq_left']

/-- A struct is read as a record of its fields. -/
theorem matches_struct_iff {modelFields : α → List ModelField}
    (describes : Describes read modelFields) {fields : List (Field × GoValue)} {a : α}
    (dumped : dump a = .obj ((modelFields a).map fun f => (f.name, f.dumped)))
    (names : List String) (keys : (fields.map fun p => p.1.name) = names)
    (keys' : (modelFields a).map ModelField.name = names) (nodup : names.Nodup)
    (plain : ∀ k ∈ names, Plain k) :
    emitter.Matches read dump (wire (.struct fields)) a ↔
      List.Forall₂ emitter.Carries (rows fields) (modelFields a) := by
  have tree' : (dump a).tree = .obj ((modelFields a).map fun f => (f.name, f.dumped.tree)) := by
    rw [dumped, Json.tree, Json.treeMembers_eq_map, List.map_map]
    rfl
  have rows' : (rows fields).map Prod.fst = (modelFields a).map ModelField.name := by
    rw [keys', ← keys, rows, List.map_map]
    rfl
  cases written : marshalValue (.struct fields) with
  | some raw =>
    rw [wire, written, Option.map_some, tree_struct written (keys ▸ nodup),
      Emitter.matches_some_iff, tree',
      Emitter.record_iff describes rows' (keys' ▸ nodup) (keys' ▸ plain_emitter plain)]
  | none =>
    rw [wire, written]
    refine iff_of_false Emitter.not_matches_none fun all => ?_
    -- Every field would be written, and so the struct.
    have fields' : (marshalFields fields).isSome = true := by
      refine marshalFields_isSome fun p member => ?_
      have sent : (p.1.name, cell p) ∈ rows fields := List.mem_map_of_mem member
      rw [Dialect.rows_of_forall₂ all] at sent
      obtain ⟨q, -, same⟩ := List.mem_map.mp sent
      rw [← (Prod.mk.inj same).2]
      rfl
    rw [marshalValue, Option.map_eq_none_iff] at written
    rw [written] at fields'
    cases fields'

theorem matches_reading_iff {r : TelemetryReading} {a : AgentTelepathy.TelemetryReading} :
    emitter.Matches (AgentTelepathy.Payload.readReading ambient) AgentTelepathy.Payload.dumpReading
        (wire (.struct r.fields)) a ↔ a = r.received ∧ r.Portable := by
  rw [matches_struct_iff (AgentTelepathy.Payload.describes_reading ambient) rfl
    AgentTelepathy.Payload.readingNames rfl rfl (by decide) (by decide +kernel)]
  obtain ⟨value, timestampMs, quality⟩ := a
  simp [rows, TelemetryReading.fields, AgentTelepathy.Payload.readingFields,
    Emitter.carries_of_iff, matches_float_iff, matches_int_iff, matches_optional_given_iff,
    TelemetryReading.received, TelemetryReading.Portable]
  tauto

theorem wire_nil : wire .nil = some .null := rfl

theorem not_matches_list_null {as : List α} :
    ¬ emitter.Matches (list read) (fun l => .arr (l.map dump)) (wire .nil) as := by
  rw [wire_nil, Emitter.matches_some_iff]
  rintro ⟨reads, -⟩
  cases reads

/-- A slice is read item by item, if it is not nil. -/
theorem matches_items_iff {β : Type} {item : β → GoValue} {back : β → α} {portable : β → Prop}
    (items : ∀ b a, emitter.Matches read dump (wire (item b)) a ↔ a = back b ∧ portable b)
    {l : Option (List β)} {as : List α} :
    emitter.Matches (list read) (fun l => .arr (l.map dump))
        (wire (l.elim .nil fun l => .slice (l.map item))) as ↔
      ∃ bs, l = some bs ∧ as = bs.map back ∧ ∀ b ∈ bs, portable b := by
  cases l with
  | none => simp [not_matches_list_null]
  | some bs =>
    rw [Option.elim_some, matches_slice_iff, List.forall₂_map_left_iff]
    simp only [items, Option.some.injEq, exists_eq_left']
    induction bs generalizing as with
    | nil => cases as <;> simp
    | cons b bs ih =>
      cases as with
      | nil => simp
      | cons a as =>
        rw [List.forall₂_cons, ih, List.map_cons, List.cons.injEq, List.forall_mem_cons]
        exact and_and_and_comm

/-- A map is read and written as it was sent, if it is not nil and all in it is. -/
theorem matches_state_iff {v : GoValue} {a : Dict String Json} :
    emitter.Matches (dict any) (fun d => .obj d.items) (wire v) a ↔
      ∃ l, wire v = some (.obj l) ∧ a.items = l.map (fun p => (p.1, emitter.received p.2)) ∧
        (JsonTree.obj l).Passes shareable := by
  cases written : marshalValue v with
  | none => simp [wire, written]
  | some raw =>
    have distinct : (tree raw).Distinct := JsonTree.distinct_merged _
    rw [wire, written, Option.map_some]
    -- Only an object can be read as a state.
    cases here : tree raw with
    | obj l =>
      rw [here] at distinct
      have exact' : ∀ p ∈ l, ∀ a, any (emitter.received p.2) = .ok a ↔
          id a = emitter.received p.2 :=
        fun p _ a => by
          rw [any, Except.ok.injEq]
          exact eq_comm
      have both := Emitter.matches_dict_iff (E := emitter) (a := a) exact' distinct
      simp only [id, Prod.mk.eta, List.map_id'] at both
      rw [both, alike_emitter_iff]
      simp
    | num x =>
      rw [Emitter.matches_some_iff, Emitter.received_num]
      refine iff_of_false (fun h => ?_) (by simp)
      cases numeral : emitter.numeral x <;> simp [numeral, Numeral.toJson, dict, fail] at h
    | null | bool b | str s | arr l =>
      rw [Emitter.matches_some_iff]
      refine iff_of_false (fun h => ?_) (by simp)
      cases h.1

theorem wire_clock (l : List (Bytes × ℤ)) :
    ∃ m, wire (.map (l.map fun e => (e.1, .int e.2))) = some (.obj m) ∧
      ∀ p ∈ m, ∃ n, p.2 = .num (ofInt n) := by
  have encoded : marshalMembers (l.map fun e => (e.1, .int e.2)) =
      some (l.map fun e => (e.1, .num (ofInt e.2))) := by
    induction l with
    | nil => rfl
    | cons e l ih => rw [List.map_cons, marshalMembers, ih]; rfl
  rw [wire, marshalValue, encoded, Option.map_some, Option.map_some]
  obtain ⟨m, here, from'⟩ := tree_obj
    (((l.map fun e => (e.1, JsonTree.num (ofInt e.2))).insertionSort fun p q =>
      p.1.map UInt8.toNat ≤ q.1.map UInt8.toNat).map fun p => (stringUnits p.1, p.2))
  refine ⟨m, congrArg some here, fun p member => ?_⟩
  obtain ⟨q, hq, rfl⟩ := from' p member
  obtain ⟨r, hr, rfl⟩ := List.mem_map.mp hq
  obtain ⟨e, -, rfl⟩ := List.mem_map.mp ((List.perm_insertionSort _ _).mem_iff.mp hr)
  exact ⟨e.2, rfl⟩

theorem matches_clock_iff {d : Dict Bytes ℤ} {a : Dict String ℤ} :
    emitter.Matches (dict (int ambient))
        (fun d => .obj (d.items.map fun entry => (entry.1, .int entry.2)))
        (wire (.map (d.items.map fun e => (e.1, .int e.2)))) a ↔
      ∃ l, wire (.map (d.items.map fun e => (e.1, .int e.2))) = some (.obj l) ∧
        a.items.map (fun e => (e.1, Json.int e.2)) = l.map (fun p => (p.1, emitter.received p.2)) ∧
          (JsonTree.obj l).Passes shareable := by
  obtain ⟨l, written, ints⟩ := wire_clock d.items
  have distinct : (JsonTree.obj l).Distinct := by
    obtain ⟨raw, -, here⟩ := Option.map_eq_some_iff.mp written
    exact here ▸ JsonTree.distinct_merged _
  have exact' : ∀ p ∈ l, ∀ a, int ambient (emitter.received p.2) = .ok a ↔
      Json.int a = emitter.received p.2 := by
    intro p member a
    obtain ⟨n, value⟩ := ints p member
    rw [value, Emitter.received_num, numeral_ofInt]
    change Except.ok n = Except.ok a ↔ Json.int a = Json.int n
    rw [Except.ok.injEq, Json.int.injEq, eq_comm]
  rw [written, Emitter.matches_dict_iff exact' distinct, alike_emitter_iff]
  simp

end Fields

/-! ### Payloads -/

/-- The field has the tag of its type. -/
def Tagged (payloadType : Bytes) (tag : String) : Prop := textOf payloadType = tag

/-- Base64 data without line ends, which only Go skips. -/
def Decodes (data : Bytes) : Prop :=
  PlainText data ∧ (Base64.decode true (textOf data)).isSome = true

/-- An optional number that is there. -/
def GivenInt (n : Option ℤ) : Prop := ∃ i, n = some i ∧ Numeral.Exact i

/-- An optional float that is there. -/
def GivenFloat (x : Option Float64) : Prop := ∃ f, x = some f ∧ SharedFloat f

/-- Nothing of the payload is left out, and all of it is written alike. -/
def Payload.Portable : Payload → Prop
  | .text p => Tagged p.payloadType "text" ∧ PlainText p.content ∧ Given p.language
  | .vectorEmbedding p =>
    Tagged p.payloadType "vector_embedding" ∧ PlainText p.modelID ∧ Numeral.Exact p.dimensions ∧
      (∃ l, p.vector = some l ∧ 0 < p.dimensions ∧ l.length = p.dimensions ∧
        ∀ x ∈ l, SharedFloat x) ∧
      (∀ expected ∈ knownModels.lookup (textOf p.modelID), p.dimensions = expected) ∧
      Given p.rawTextFallback
  | .crdtSync p =>
    Tagged p.payloadType "crdt_sync" ∧ PlainText p.crdtType ∧
      (∃ d, p.state = some d ∧ Shareable (.map d.items)) ∧
      ∃ d, p.vectorClock = some d ∧ Shareable (.map (d.items.map fun e => (e.1, .int e.2)))
  | .image p =>
    Tagged p.payloadType "image" ∧ Decodes p.dataBase64 ∧ PlainText p.mimeType ∧
      GivenInt p.width ∧ GivenInt p.height ∧ Given p.sourceModel ∧ Given p.caption
  | .audio p =>
    Tagged p.payloadType "audio" ∧ Decodes p.dataBase64 ∧ PlainText p.mimeType ∧
      GivenInt p.sampleRate ∧ GivenFloat p.durationSeconds ∧ Given p.sourceModel ∧
      Given p.transcript
  | .video p =>
    Tagged p.payloadType "video" ∧ Decodes p.dataBase64 ∧ PlainText p.mimeType ∧
      GivenInt p.width ∧ GivenInt p.height ∧ GivenFloat p.durationSeconds ∧ GivenFloat p.fps ∧
      Given p.sourceModel ∧ Given p.description
  | .binary p =>
    Tagged p.payloadType "binary" ∧ Decodes p.dataBase64 ∧ PlainText p.mimeType ∧
      Given p.filename ∧ Given p.description
  | .telemetry p =>
    Tagged p.payloadType "telemetry" ∧ PlainText p.sensorID ∧ PlainText p.unit ∧
      (∃ l, p.readings = some l ∧ ∀ r ∈ l, r.Portable) ∧ PlainText p.sourceProtocol

/-- The tag of the payload type. -/
def Payload.kind : Payload → String
  | .text _ => "text"
  | .vectorEmbedding _ => "vector_embedding"
  | .crdtSync _ => "crdt_sync"
  | .image _ => "image"
  | .audio _ => "audio"
  | .video _ => "video"
  | .binary _ => "binary"
  | .telemetry _ => "telemetry"

theorem Payload.kind_mem (p : Payload) : p.kind ∈ AgentTelepathy.Payload.tags := by
  cases p <;> simp [Payload.kind, AgentTelepathy.Payload.tags]

theorem Payload.keys_rows (p : Payload) :
    (rows p.fields).map Prod.fst = AgentTelepathy.Payload.namesOf p.kind := by
  cases p <;> rfl

theorem accepts_iff (p : Payload) (q : AgentTelepathy.Payload) :
    emitter.Accepts ambient (.obj (JsonTree.present (rows p.fields))) q ↔
      q.tag = p.kind ∧ List.Forall₂ emitter.Carries (rows p.fields) (q.fields ambient) :=
  Emitter.accepts_iff p.kind_mem p.keys_rows (plain_emitter (plain_namesOf _ p.kind_mem))

theorem tagField_iff {s : Bytes} : ∀ tag ∈ Payload.tags, (emitter.Carries
    ("payload_type", wire (.string s)) (AgentTelepathy.Payload.tagField tag) ↔ Tagged s tag) := by
  have plain : ∀ tag ∈ Payload.tags, Plain tag := by decide +kernel
  intro tag known
  rw [wire_string, Emitter.carries_tag_iff, Option.some.injEq, JsonTree.str.injEq]
  exact and_iff_left ((alike_iff tag).mpr (plain tag known))

theorem exists_tag_iff {kind : String} {holds : AgentTelepathy.Payload → Prop} {α : Type}
    {make : α → AgentTelepathy.Payload} (only : ∀ q, q.tag = kind ↔ ∃ a, q = make a) :
    (∃ q, q.tag = kind ∧ holds q) ↔ ∃ a, holds (make a) := by
  constructor
  · rintro ⟨q, tag, here⟩
    obtain ⟨a, rfl⟩ := (only q).mp tag
    exact ⟨a, here⟩
  · rintro ⟨a, here⟩
    exact ⟨make a, (only _).mpr ⟨a, rfl⟩, here⟩

/-- The payloads with the tag of a kind. -/
theorem tag_eq_iff (q : AgentTelepathy.Payload) :
    (q.tag = "text" ↔ ∃ a, q = .text a) ∧
    (q.tag = "vector_embedding" ↔ ∃ a, q = .vectorEmbedding a) ∧
    (q.tag = "crdt_sync" ↔ ∃ a, q = .crdtSync a) ∧ (q.tag = "image" ↔ ∃ a, q = .image a) ∧
    (q.tag = "audio" ↔ ∃ a, q = .audio a) ∧ (q.tag = "video" ↔ ∃ a, q = .video a) ∧
    (q.tag = "binary" ↔ ∃ a, q = .binary a) ∧ (q.tag = "telemetry" ↔ ∃ a, q = .telemetry a) := by
  cases q <;> simp [AgentTelepathy.Payload.tag]

theorem exists_base64_iff {s : Bytes} :
    (∃ a : Base64Data, a.text = textOf s) ↔ (Base64.decode true (textOf s)).isSome = true :=
  ⟨fun ⟨a, same⟩ => same ▸ a.decodes, fun decodes => ⟨⟨_, decodes⟩, rfl⟩⟩

section Dicts

variable {a : Dict String Json} {b : Dict String ℤ}

theorem distinct_wire {v : GoValue} {t : JsonTree Decimal} (sent : wire v = some t) :
    t.Distinct := by
  obtain ⟨raw, -, rfl⟩ := Option.map_eq_some_iff.mp sent
  exact JsonTree.distinct_merged _

/-- A map is sent as an object. -/
theorem wire_map {members : List (Bytes × GoValue)} {t : JsonTree Decimal}
    (sent : wire (.map members) = some t) : ∃ l, t = .obj l := by
  obtain ⟨raw, written, rfl⟩ := Option.map_eq_some_iff.mp sent
  rw [marshalValue] at written
  obtain ⟨encoded, -, rfl⟩ := Option.map_eq_some_iff.mp written
  obtain ⟨l, here, -⟩ := tree_obj ((encoded.insertionSort
    fun p q => p.1.map UInt8.toNat ≤ q.1.map UInt8.toNat).map fun p => (stringUnits p.1, p.2))
  exact ⟨l, here⟩

/-- The state is read and written as it was sent exactly if it is there and all in it is
written alike. -/
theorem exists_state_iff {state : Option (Dict Bytes GoValue)} :
    (∃ a, emitter.Matches (dict any) (fun d => .obj d.items)
        (wire (state.elim .nil fun d => .map d.items)) a) ↔
      ∃ d, state = some d ∧ Shareable (.map d.items) := by
  simp only [matches_state_iff]
  cases state with
  | none => simp [wire_nil]
  | some d =>
    simp only [Option.elim_some, Option.some.injEq, exists_eq_left', Shareable]
    constructor
    · rintro ⟨a, l, sent, -, shared⟩
      exact ⟨_, sent, shared⟩
    · rintro ⟨t, sent, shared⟩
      obtain ⟨l, rfl⟩ := wire_map sent
      refine ⟨⟨l.map fun p => (p.1, emitter.received p.2), ?_⟩, l, sent, rfl, shared⟩
      rw [List.map_map]
      exact (distinct_wire sent).1

theorem exists_clock_iff {clock : Option (Dict Bytes ℤ)} :
    (∃ a, emitter.Matches (dict (int ambient))
        (fun d => .obj (d.items.map fun entry => (entry.1, .int entry.2)))
        (wire (clock.elim .nil fun d => .map (d.items.map fun e => (e.1, .int e.2)))) a) ↔
      ∃ d, clock = some d ∧ Shareable (.map (d.items.map fun e => (e.1, .int e.2))) := by
  cases clock with
  | none =>
    refine iff_of_false (fun ⟨a, h⟩ => ?_) (by simp)
    obtain ⟨reads, -⟩ := Emitter.matches_some_iff.mp (wire_nil ▸ h)
    cases reads
  | some d =>
    simp only [Option.elim_some, Option.some.injEq, exists_eq_left', Shareable, matches_clock_iff]
    constructor
    · rintro ⟨a, l, sent, -, shared⟩
      exact ⟨_, sent, shared⟩
    · rintro ⟨t, sent, shared⟩
      obtain ⟨l, rfl⟩ := wire_map sent
      obtain ⟨m, sent', ints⟩ := wire_clock d.items
      obtain rfl := JsonTree.obj.inj (Option.some.inj (sent.symm.trans sent'))
      -- Every value of the clock is a whole number in the text as well.
      have integers : ∃ as : List (String × ℤ), as.map (fun e => (e.1, Json.int e.2)) =
          l.map fun p => (p.1, emitter.received p.2) := by
        clear sent sent' shared
        induction l with
        | nil => exact ⟨[], rfl⟩
        | cons p l ih =>
          obtain ⟨⟨n, value⟩, rest⟩ := List.forall_mem_cons.mp ints
          obtain ⟨as, same⟩ := ih rest
          refine ⟨(p.1, n) :: as, ?_⟩
          rw [List.map_cons, List.map_cons, same, value, Emitter.received_num, numeral_ofInt]
          rfl
      obtain ⟨as, same⟩ := integers
      have keys : as.map Prod.fst = l.map Prod.fst := by
        have keys := congrArg (List.map Prod.fst) same
        rwa [List.map_map, List.map_map] at keys
      exact ⟨⟨as, keys ▸ (distinct_wire sent).1⟩, l, sent, same, shared⟩

end Dicts

section Kinds

attribute [local simp] rows Payload.fields AgentTelepathy.Payload.fields
  Emitter.carries_of_iff matches_string_iff matches_given_iff
  matches_optional_given_iff matches_base64_iff matches_int_iff matches_optional_int_iff
  matches_optional_float_iff

/-- Python accepts a payload exactly if it is portable. -/
theorem portable_iff (ambient : Ambient) (p : Payload) :
    (∃ q, emitter.Accepts ambient (.obj (JsonTree.present (rows p.fields))) q) ↔ p.Portable := by
  simp only [accepts_iff]
  -- Each kind of payload is accepted field by field, and the tag has to name it.
  cases p with
  | text p =>
    rw [Payload.kind, exists_tag_iff fun q => (tag_eq_iff q).1]
    simp [tagField_iff "text" (by decide)]
    constructor
    · rintro ⟨tag, q, ⟨-, content⟩, -, language⟩
      exact ⟨tag, content, language⟩
    · rintro ⟨tag, content, language⟩
      exact ⟨tag, ⟨_, _⟩, ⟨rfl, content⟩, rfl, language⟩
  | vectorEmbedding p =>
    rw [Payload.kind, exists_tag_iff fun q => (tag_eq_iff q).2.1]
    simp [tagField_iff "vector_embedding" (by decide), matches_positive_iff,
      matches_items_iff fun x f => matches_float_iff]
    constructor
    · rintro ⟨tag, q, ⟨modelId, plain⟩, ⟨dimensions, exact'⟩, ⟨vector, floats⟩, -, fallback⟩
      refine ⟨tag, plain, exact', ⟨_, vector, ?_, ?_, floats⟩, fun expected known => ?_, fallback⟩
      · rw [← dimensions]
        exact_mod_cast q.positive
      · rw [← dimensions, q.length_eq]
      · rw [← dimensions, q.known expected (modelId ▸ known)]
    · rintro ⟨tag, plain, exact', ⟨l, vector, positive, length, floats⟩, known, fallback⟩
      obtain ⟨n, dimensions⟩ := Int.eq_ofNat_of_zero_le positive.le
      rw [dimensions] at positive length known
      have known' : ∀ expected ∈ knownModels.lookup (textOf p.modelID), n = expected :=
        fun expected here => by exact_mod_cast known expected here
      exact ⟨tag, ⟨_, n, l, _, by exact_mod_cast positive, by exact_mod_cast length, known'⟩,
        ⟨rfl, plain⟩, ⟨dimensions.symm, exact'⟩, ⟨vector, floats⟩, rfl, fallback⟩
  | crdtSync p =>
    rw [Payload.kind, exists_tag_iff fun q => (tag_eq_iff q).2.2.1]
    simp [tagField_iff "crdt_sync" (by decide)]
    constructor
    · rintro ⟨tag, q, ⟨-, crdtType⟩, state, clock⟩
      exact ⟨tag, crdtType, exists_state_iff.mp ⟨_, state⟩, exists_clock_iff.mp ⟨_, clock⟩⟩
    · rintro ⟨tag, crdtType, state, clock⟩
      obtain ⟨a, state⟩ := exists_state_iff.mpr state
      obtain ⟨b, clock⟩ := exists_clock_iff.mpr clock
      exact ⟨tag, ⟨_, a, b⟩, ⟨rfl, crdtType⟩, state, clock⟩
  | image p =>
    rw [Payload.kind, exists_tag_iff fun q => (tag_eq_iff q).2.2.2.1]
    simp [tagField_iff "image" (by decide)]
    constructor
    · rintro ⟨tag, q, ⟨data, plain⟩, ⟨-, mimeType⟩, ⟨-, width⟩, ⟨-, height⟩, ⟨-, model⟩, -, caption⟩
      exact ⟨tag, ⟨plain, exists_base64_iff.mp ⟨_, data⟩⟩, mimeType, width, height, model, caption⟩
    · rintro ⟨tag, ⟨plain, decodes⟩, mimeType, width, height, model, caption⟩
      obtain ⟨data, same⟩ := exists_base64_iff.mpr decodes
      exact ⟨tag, ⟨data, _, _, _, _, _⟩, ⟨same, plain⟩, ⟨rfl, mimeType⟩, ⟨rfl, width⟩,
        ⟨rfl, height⟩, ⟨rfl, model⟩, rfl, caption⟩
  | audio p =>
    rw [Payload.kind, exists_tag_iff fun q => (tag_eq_iff q).2.2.2.2.1]
    simp [tagField_iff "audio" (by decide)]
    constructor
    · rintro ⟨tag, q, ⟨data, plain⟩, ⟨-, mimeType⟩, ⟨-, rate⟩, ⟨-, duration⟩, ⟨-, model⟩, -,
        transcript⟩
      exact ⟨tag, ⟨plain, exists_base64_iff.mp ⟨_, data⟩⟩, mimeType, rate, duration, model,
        transcript⟩
    · rintro ⟨tag, ⟨plain, decodes⟩, mimeType, rate, duration, model, transcript⟩
      obtain ⟨data, same⟩ := exists_base64_iff.mpr decodes
      exact ⟨tag, ⟨data, _, _, _, _, _⟩, ⟨same, plain⟩, ⟨rfl, mimeType⟩, ⟨rfl, rate⟩,
        ⟨rfl, duration⟩, ⟨rfl, model⟩, rfl, transcript⟩
  | video p =>
    rw [Payload.kind, exists_tag_iff fun q => (tag_eq_iff q).2.2.2.2.2.1]
    simp [tagField_iff "video" (by decide)]
    constructor
    · rintro ⟨tag, q, ⟨data, plain⟩, ⟨-, mimeType⟩, ⟨-, width⟩, ⟨-, height⟩, ⟨-, duration⟩,
        ⟨-, fps⟩, ⟨-, model⟩, -, description⟩
      exact ⟨tag, ⟨plain, exists_base64_iff.mp ⟨_, data⟩⟩, mimeType, width, height, duration, fps,
        model, description⟩
    · rintro ⟨tag, ⟨plain, decodes⟩, mimeType, width, height, duration, fps, model, description⟩
      obtain ⟨data, same⟩ := exists_base64_iff.mpr decodes
      exact ⟨tag, ⟨data, _, _, _, _, _, _, _⟩, ⟨same, plain⟩, ⟨rfl, mimeType⟩, ⟨rfl, width⟩,
        ⟨rfl, height⟩, ⟨rfl, duration⟩, ⟨rfl, fps⟩, ⟨rfl, model⟩, rfl, description⟩
  | binary p =>
    rw [Payload.kind, exists_tag_iff fun q => (tag_eq_iff q).2.2.2.2.2.2.1]
    simp [tagField_iff "binary" (by decide)]
    constructor
    · rintro ⟨tag, q, ⟨data, plain⟩, ⟨-, mimeType⟩, ⟨-, filename⟩, -, description⟩
      exact ⟨tag, ⟨plain, exists_base64_iff.mp ⟨_, data⟩⟩, mimeType, filename, description⟩
    · rintro ⟨tag, ⟨plain, decodes⟩, mimeType, filename, description⟩
      obtain ⟨data, same⟩ := exists_base64_iff.mpr decodes
      exact ⟨tag, ⟨data, _, _, _⟩, ⟨same, plain⟩, ⟨rfl, mimeType⟩, ⟨rfl, filename⟩, rfl,
        description⟩
  | telemetry p =>
    rw [Payload.kind, exists_tag_iff fun q => (tag_eq_iff q).2.2.2.2.2.2.2]
    simp [tagField_iff "telemetry" (by decide), matches_items_iff fun r a => matches_reading_iff]
    constructor
    · rintro ⟨tag, q, ⟨-, sensorID⟩, ⟨-, unit'⟩, ⟨l, readings, -, portable⟩, -, sourceProtocol⟩
      exact ⟨tag, sensorID, unit', ⟨l, readings, portable⟩, sourceProtocol⟩
    · rintro ⟨tag, sensorID, unit', ⟨l, readings, portable⟩, sourceProtocol⟩
      exact ⟨tag, ⟨_, _, _, _⟩, ⟨rfl, sensorID⟩, ⟨rfl, unit'⟩, ⟨l, readings, rfl, portable⟩, rfl,
        sourceProtocol⟩

end Kinds

end AgentTelepathy.Go
