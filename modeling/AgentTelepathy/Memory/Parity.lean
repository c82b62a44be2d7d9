import AgentTelepathy.Foundation.Ecma
import AgentTelepathy.Foundation.Transition
import AgentTelepathy.Memory.Crdt

/-!
# The map in TypeScript

`LWWMap` of the TypeScript library is written like the one in Python. Its numbers
are doubles, its strings are compared by UTF-16 code units, and values of one
timestamp and one writer by the stable text of `fast-json-stable-stringify`, where
Python compares the text of `json.dumps`, which has blanks and escapes and other
numbers.

Both maps, given the same calls, hold the same entries as long as each write that
meets an entry of its timestamp is decided alike by both orders.
-/

namespace AgentTelepathy

open Foundation Foundation.Transition

/-- One stored write of the TypeScript map. -/
structure TsRecord where
  value : Ecma.Value
  timestamp : Float64
  writerId : String

namespace TsRecord

/-- A record as TypeScript reads it. -/
def parse (r : Record) : TsRecord :=
  ⟨Ecma.Value.parse r.value, Float64.ofInt r.timestamp, r.writerId⟩

/-- The record as it stands in a serialized state. -/
def toJson (r : TsRecord) : Json :=
  .obj [("value", r.value.json), ("timestamp", .float r.timestamp), ("writer_id", .str r.writerId)]

/-- Whether a new record replaces an existing one. -/
def supersedes (new existing : TsRecord) : Bool :=
  if existing.timestamp.number.lt new.timestamp.number then true
  else if new.timestamp.number.eq existing.timestamp.number then
    if Ecma.units new.writerId > Ecma.units existing.writerId then true
    else if new.writerId = existing.writerId then
      Ecma.units (Ecma.stringify new.value) > Ecma.units (Ecma.stringify existing.value)
    else false
  else false

/-- What a key holds after a write. -/
def offer : Option TsRecord → TsRecord → TsRecord
  | none, new => new
  | some existing, new => if new.supersedes existing then new else existing

theorem offer_eq_or (held : Option TsRecord) (new : TsRecord) :
    offer held new = new ∨ held = some (offer held new) := by
  cases held with
  | none => exact .inl rfl
  | some existing =>
    rw [offer]
    split_ifs
    · exact .inl rfl
    · exact .inr rfl

end TsRecord

/-- The map of the TypeScript library. -/
structure TsLWWMap where
  nodeId : String
  state : Dict String TsRecord
  logicalClock : Float64

namespace TsLWWMap

/-- A new map. -/
def init (nodeId : String) : TsLWWMap := ⟨nodeId, Dict.empty, Float64.zero false⟩

/-- The first part of `set`: advance the clock and complete the record. -/
def stamp (m : TsLWWMap) (value : Ecma.Value) (timestamp : Option Float64)
    (writerId : Option String) : TsLWWMap × TsRecord :=
  match timestamp with
  | none =>
    -- From `2 ^ 53` on the sum may be rounded.
    let clock := Ecma.addOne m.logicalClock
    ({ m with logicalClock := clock }, ⟨value, clock, m.nodeId⟩)
  | some timestamp =>
    ({ m with logicalClock := Ecma.max m.logicalClock timestamp },
      ⟨value, timestamp, writerId.getD m.nodeId⟩)

/-- The second part of `set`. A name on `Object.prototype` is `in` every object, and
what it names cannot be taken apart like a record: this throws. -/
def store (m : TsLWWMap) (key : String) (record : TsRecord) : Option TsLWWMap :=
  if key ∈ Ecma.objectPrototype then none
  else
    -- Every other key that is `in` the object is its own.
    match m.state.get? key with
    | some existing =>
      if record.supersedes existing then some { m with state := m.state.set key record } else some m
    | none => some { m with state := m.state.set key record }

/-- `set(key, value, timestamp, writerId)`; what is undefined is `none`. -/
def set (m : TsLWWMap) (key : String) (value : Ecma.Value) (timestamp : Option Float64)
    (writerId : Option String) : Option TsLWWMap :=
  let (m, record) := m.stamp value timestamp writerId
  m.store key record

/-- One round of the loop of `merge`. -/
def mergeRecord (m : TsLWWMap) (item : String × TsRecord) : Option TsLWWMap :=
  m.set item.1 item.2.value (some item.2.timestamp) (some item.2.writerId)

/-- `merge(otherState)`. -/
def merge (m : TsLWWMap) (otherState : List (String × TsRecord)) : Option TsLWWMap :=
  (Ecma.entries otherState).foldlM mergeRecord m

/-- `serializeState()`. -/
def serializeState (m : TsLWWMap) : Json :=
  .obj ((Ecma.entries m.state.items).map fun item => (item.1, item.2.toJson))

theorem store_eq (m : TsLWWMap) {key : String} (own : key ∉ Ecma.objectPrototype) (r : TsRecord) :
    ∃ state, m.store key r = some { m with state } ∧ ∀ other, state.get? other =
      if other = key then some (TsRecord.offer (m.state.get? key) r) else m.state.get? other := by
  rw [store, if_neg own]
  cases present : m.state.get? key with
  | none => exact ⟨_, rfl, fun other => Dict.get?_set _ _ _ _⟩
  | some existing =>
    dsimp only [TsRecord.offer]
    split_ifs with newer
    · exact ⟨_, rfl, fun other => Dict.get?_set _ _ _ _⟩
    · refine ⟨m.state, rfl, fun other => ?_⟩
      split_ifs with same
      · rw [same, present]
      · rfl

end TsLWWMap

/-! ### One entry -/

/-- Records that serialize to one JSON value. -/
structure Record.Alike (r : Record) (s : TsRecord) : Prop where
  value : r.value.SameValue s.value.json
  timestamp : s.timestamp.number = .rat r.timestamp
  writerId : s.writerId = r.writerId

/-- Entries that are both absent or alike. -/
def EntriesAlike (e : Option Record) (f : Option TsRecord) : Prop := Option.Rel Record.Alike e f

/-- Whether both maps decide alike about a record that meets an entry: one that is
stored has no number that is not a double, writers of one timestamp are in one order
by code points and by code units, and values of one writer are one JSON value or in
one order by both texts. -/
def Record.Portable (r : Record) : Option Record → Prop
  | none => r.value.toDoubles.SameValue r.value
  | some e =>
    (r.supersedes e = true → r.value.toDoubles.SameValue r.value) ∧
      (r.timestamp = e.timestamp →
        if r.writerId = e.writerId then
          r.value.toDoubles.SameValue e.value ∨
            (dumps r.value > dumps e.value ↔
              Ecma.units (String.ofList (Ecma.text r.value)) >
                Ecma.units (String.ofList (Ecma.text e.value)))
        else r.writerId > e.writerId ↔ Ecma.units r.writerId > Ecma.units e.writerId)

instance (r : Record) (existing : Option Record) : Decidable (r.Portable existing) := by
  cases existing <;> unfold Record.Portable <;> infer_instance

variable {r e : Record} {s f : TsRecord}

theorem Record.supersedes_iff_or :
    r.supersedes e = true ↔ e.timestamp < r.timestamp ∨ e.timestamp = r.timestamp ∧
      (e.writerId < r.writerId ∨ e.writerId = r.writerId ∧ dumps e.value < dumps r.value) := by
  rw [supersedes_iff, rank, rank, Prod.Lex.toLex_lt_toLex, Prod.Lex.toLex_lt_toLex]

/-- The record that TypeScript makes of one that Python makes. -/
structure TsRecord.Reads (s : TsRecord) (r : Record) : Prop where
  value : s.value = Ecma.Value.parse r.value
  timestamp : s.timestamp.number = .rat r.timestamp
  writerId : s.writerId = r.writerId

theorem TsRecord.Reads.alike_iff (reads : s.Reads r) :
    r.Alike s ↔ r.value.toDoubles.SameValue r.value := by
  have value : s.value.json = r.value.toDoubles := congrArg Ecma.Value.json reads.value
  constructor
  · intro alike
    exact value ▸ alike.value.symm
  · intro exact
    exact ⟨value.symm ▸ exact.symm, reads.timestamp, reads.writerId⟩

/-- The comparisons of TypeScript, in terms of what Python compares. -/
theorem TsRecord.Reads.supersedes_iff_or (reads : s.Reads r) (alike : e.Alike f)
    (distinct : e.value.Distinct) (distinct' : f.value.json.Distinct) :
    s.supersedes f = true ↔ e.timestamp < r.timestamp ∨ e.timestamp = r.timestamp ∧
      (Ecma.units e.writerId < Ecma.units r.writerId ∨ e.writerId = r.writerId ∧
        Ecma.units (String.ofList (Ecma.text e.value)) <
          Ecma.units (String.ofList (Ecma.text r.value))) := by
  have order : f.timestamp.number.lt s.timestamp.number = decide (e.timestamp < r.timestamp) := by
    simp [reads.timestamp, alike.timestamp, Number.lt]
  have equal : s.timestamp.number.eq f.timestamp.number = decide (r.timestamp = e.timestamp) := by
    simp [reads.timestamp, alike.timestamp, Number.eq]
  have new : Ecma.stringify s.value = String.ofList (Ecma.text r.value) := by
    rw [reads.value]
    exact congrArg String.ofList (Ecma.text_mapNumbers (fun x => by cases x <;> rfl) r.value)
  have existing : Ecma.stringify f.value = String.ofList (Ecma.text e.value) := by
    rw [Ecma.stringify, Ecma.text_congr alike.value distinct distinct']
  rw [supersedes, order, equal, new, existing, reads.writerId, alike.writerId]
  by_cases later : e.timestamp < r.timestamp
  · simp [later]
  · by_cases time : r.timestamp = e.timestamp
    · by_cases writer : r.writerId = e.writerId
      · simp [time, writer]
      · simp [time, writer, Ne.symm writer]
    · simp [later, time, Ne.symm time]

/-- A write that meets an entry is portable if both maps decide alike, or leave one
JSON value anyway. -/
theorem Record.portable_iff (reads : s.Reads r) (alike : e.Alike f) (distinct : e.value.Distinct)
    (distinct' : f.value.json.Distinct) :
    r.Portable (some e) ↔ (r.supersedes e = true → r.value.toDoubles.SameValue r.value) ∧
      ((r.supersedes e = true ↔ s.supersedes f = true) ∨
        r.timestamp = e.timestamp ∧ r.writerId = e.writerId ∧
          r.value.toDoubles.SameValue e.value) := by
  rw [Portable]
  refine and_congr_right' ?_
  rw [supersedes_iff_or, reads.supersedes_iff_or alike distinct distinct']
  by_cases time : r.timestamp = e.timestamp
  · -- Only equal timestamps need the writers, and equal writers the texts.
    by_cases writer : r.writerId = e.writerId
    · simp [time, writer, or_comm]
    · simp [time, writer, Ne.symm writer]
  · simp [time, Ne.symm time]

theorem EntriesAlike.exists_right {y : Option TsRecord} (both : EntriesAlike (some r) y) :
    ∃ s, y = some s ∧ r.Alike s := by
  cases both with
  | some alike => exact ⟨_, rfl, alike⟩

theorem EntriesAlike.exists_left {x : Option Record} (both : EntriesAlike x (some s)) :
    ∃ r, x = some r ∧ r.Alike s := by
  cases both with
  | some alike => exact ⟨_, rfl, alike⟩

/-- A write to entries that are alike leaves entries alike exactly when it is portable. -/
theorem alike_offer_iff (reads : s.Reads r) (alike : e.Alike f) (distinct : e.value.Distinct)
    (distinct' : f.value.json.Distinct) :
    (Register.offer Record.rank (some e) r).Alike (TsRecord.offer (some f) s) ↔
      r.Portable (some e) := by
  have value : s.value.json = r.value.toDoubles := congrArg Ecma.Value.json reads.value
  rw [Record.portable_iff reads alike distinct distinct', Register.offer, TsRecord.offer]
  simp only [← Record.supersedes_iff]
  by_cases wins : r.supersedes e = true <;> by_cases wins' : s.supersedes f = true <;>
    simp only [wins, wins', if_true, if_false, Bool.false_eq_true]
  · simpa using reads.alike_iff
  · -- Only Python stores the record, which must be the entry all the same.
    constructor
    · intro after
      -- The entry of TypeScript has only doubles, so the record has.
      have entry := after.value.trans alike.value.symm
      have exact : r.value.toDoubles.SameValue e.value := by
        have doubles := after.value.toDoubles
        rw [f.value.doubles] at doubles
        exact doubles.trans alike.value.symm
      refine ⟨fun _ => exact.trans entry.symm, .inr ⟨?_, ?_, exact⟩⟩
      · have same := after.timestamp.symm.trans alike.timestamp
        exact_mod_cast Number.rat.inj same
      · rw [← after.writerId, alike.writerId]
    · rintro ⟨exact, same | ⟨time, writer, entry⟩⟩
      · simp at same
      · exact ⟨(exact trivial).symm.trans (entry.trans alike.value), time ▸ alike.timestamp,
          writer ▸ alike.writerId⟩
  · -- Only TypeScript stores it, rounded to doubles.
    constructor
    · intro after
      refine ⟨False.elim, .inr ⟨?_, ?_, value ▸ after.value.symm⟩⟩
      · have same := reads.timestamp.symm.trans after.timestamp
        exact_mod_cast Number.rat.inj same
      · rw [← reads.writerId, after.writerId]
    · rintro ⟨-, same | ⟨time, writer, entry⟩⟩
      · simp at same
      · exact ⟨value ▸ entry.symm, time ▸ reads.timestamp, writer ▸ reads.writerId⟩
  · simp [alike]

/-- The entries of one key after a write to it, if there is one. -/
theorem entryAlike_iff {x new : Option Record} {y new' : Option TsRecord}
    (reads : Option.Rel (fun r s => s.Reads r) new new') (before : EntriesAlike x y)
    (distinct : ∀ e ∈ x, e.value.Distinct) (distinct' : ∀ f ∈ y, f.value.json.Distinct) :
    EntriesAlike (new.elim x fun r => some (Register.offer Record.rank x r))
        (new'.elim y fun s => some (TsRecord.offer y s)) ↔
      ∀ r ∈ new, r.Portable x := by
  cases reads with
  | none => exact iff_of_true before nofun
  | @some r s reads =>
    have single : (∀ q ∈ some r, q.Portable x) ↔ r.Portable x := by simp
    rw [single, Option.elim_some, Option.elim_some, EntriesAlike, Option.rel_some_some]
    cases before with
    | none => exact reads.alike_iff
    | some alike => exact alike_offer_iff reads alike (distinct _ rfl) (distinct' _ rfl)

/-! ### All entries -/

/-- Two maps of one node, in whose values no key is repeated. -/
structure Paired (p : LWWMap) (t : TsLWWMap) : Prop where
  nodeId : t.nodeId = p.nodeId
  distinct : ∀ key, ∀ r ∈ p.state.get? key, r.value.Distinct
  distinct' : ∀ key, ∀ s ∈ t.state.get? key, s.value.json.Distinct

/-- The maps have equal clocks and alike entries. -/
structure Agree (p : LWWMap) (t : TsLWWMap) : Prop where
  clock : t.logicalClock.number = .rat p.logicalClock
  entries : ∀ key, EntriesAlike (p.state.get? key) (t.state.get? key)

/-- What the writes of a call do to every key of both maps. -/
structure Writes (p p' : LWWMap) (t t' : TsLWWMap) (new : String → Option Record)
    (new' : String → Option TsRecord) : Prop where
  get : ∀ key, p'.state.get? key = (new key).elim (p.state.get? key) fun r =>
    some (Register.offer Record.rank (p.state.get? key) r)
  get' : ∀ key, t'.state.get? key = (new' key).elim (t.state.get? key) fun s =>
    some (TsRecord.offer (t.state.get? key) s)

variable {p p' : LWWMap} {t t' : TsLWWMap} {new : String → Option Record}
  {new' : String → Option TsRecord}

/-- Writes leave entries alike exactly when each of them is portable. -/
theorem Writes.entries_iff (writes : Writes p p' t t' new new') (paired : Paired p t)
    (reads : ∀ key, Option.Rel (fun r s => s.Reads r) (new key) (new' key))
    (before : ∀ key, EntriesAlike (p.state.get? key) (t.state.get? key)) :
    (∀ key, EntriesAlike (p'.state.get? key) (t'.state.get? key)) ↔
      ∀ key, ∀ r ∈ new key, r.Portable (p.state.get? key) := by
  refine forall_congr' fun key => ?_
  rw [writes.get, writes.get']
  exact entryAlike_iff (reads key) (before key) (paired.distinct key) (paired.distinct' key)

/-- What held of the entry of a key and of the write to it still holds of the entry. -/
theorem forall_mem_elim_offer {α : Type*} {holds : α → Prop} {put : Option α → α → α}
    {held new : Option α} (keeps : ∀ r, put held r = r ∨ held = some (put held r))
    (old : ∀ x ∈ held, holds x) (fresh : ∀ x ∈ new, holds x) :
    ∀ x ∈ new.elim held fun r => some (put held r), holds x := by
  intro x found
  cases new with
  | none => exact old x found
  | some r =>
    obtain rfl := Option.some.inj found
    rcases keeps r with same | same
    · rw [same]
      exact fresh r rfl
    · exact old _ same

theorem Writes.paired (writes : Writes p p' t t' new new') (paired : Paired p t)
    (nodeId : t'.nodeId = p'.nodeId) (distinct : ∀ key, ∀ r ∈ new key, r.value.Distinct)
    (distinct' : ∀ key, ∀ s ∈ new' key, s.value.json.Distinct) : Paired p' t' := by
  refine ⟨nodeId, fun key => ?_, fun key => ?_⟩
  · rw [writes.get]
    exact forall_mem_elim_offer (Register.offer_eq_or _ _) (paired.distinct key) (distinct key)
  · rw [writes.get']
    exact forall_mem_elim_offer (TsRecord.offer_eq_or _) (paired.distinct' key) (distinct' key)

theorem paired_init (nodeId : String) : Paired (LWWMap.init nodeId) (TsLWWMap.init nodeId) := by
  refine ⟨rfl, ?_, ?_⟩ <;> intro key x found <;> cases found

theorem agree_init (nodeId : String) : Agree (LWWMap.init nodeId) (TsLWWMap.init nodeId) := by
  have zero : (Float64.zero false).number = .rat ((0 : ℤ) : ℚ) := by
    simp [Float64.zero, Float64.number]
  exact ⟨zero, fun _ => .none⟩

/-! ### Calls -/

/-- A call that both maps receive. -/
inductive MapCall
  | set (key : String) (value : Json) (timestamp : Option ℤ) (writerId : Option String)
  | merge (otherState : List (String × Record))

/-- The call of the map in Python. -/
def LWWMap.apply (m : LWWMap) : MapCall → Option LWWMap
  | .set key value timestamp writerId => some (m.set key value timestamp writerId)
  | .merge otherState => m.merge (otherState.map fun item => (item.1, item.2.toJson))

/-- The call of the map in TypeScript, with what it reads of the same arguments. -/
def TsLWWMap.apply (m : TsLWWMap) : MapCall → Option TsLWWMap
  | .set key value timestamp writerId =>
    m.set key (.parse value) (timestamp.map Float64.ofInt) writerId
  | .merge otherState => m.merge (otherState.map fun item => (item.1, TsRecord.parse item.2))

namespace MapCall

/-- The keys are not names on `Object.prototype`, no object has a key twice, and the
timestamps are numbers in both languages. -/
def Valid : MapCall → Prop
  | .set key value timestamp _ =>
    key ∉ Ecma.objectPrototype ∧ value.Distinct ∧ ∀ n ∈ timestamp, Float64.IsDouble n
  | .merge otherState =>
    (otherState.map Prod.fst).Nodup ∧ ∀ item ∈ otherState, item.1 ∉ Ecma.objectPrototype ∧
      item.2.value.Distinct ∧ Float64.IsDouble item.2.timestamp

/-- The condition on a call of a map: each record it writes is portable, and the clock
has not left the doubles. -/
def Portable (m : LWWMap) : MapCall → Prop
  | .set key value timestamp writerId =>
    let r := (m.stamp value timestamp writerId).2
    Float64.IsDouble r.timestamp ∧ r.Portable (m.state.get? key)
  | .merge otherState => ∀ item ∈ otherState, item.2.Portable (m.state.get? item.1)

instance (m : LWWMap) (c : MapCall) : Decidable (c.Portable m) := by
  cases c <;> unfold Portable <;> infer_instance

end MapCall

theorem TsRecord.reads_parse (double : Float64.IsDouble r.timestamp) : (TsRecord.parse r).Reads r :=
  ⟨rfl, double, rfl⟩

theorem distinct_parse {v : Json} (distinct : v.Distinct) : (Ecma.Value.parse v).json.Distinct :=
  Json.distinct_mapNumbers v distinct

/-- What a call does to both maps. -/
def Stepped (p : LWWMap) (t : TsLWWMap) (c : MapCall) : Prop :=
  ∃ p' t', p.apply c = some p' ∧ t.apply c = some t' ∧ Paired p' t' ∧ (Agree p' t' ↔ c.Portable p)

/-- Both maps complete the record of a `set` alike, and their clocks stay equal exactly
when its timestamp is a double. -/
theorem stamp_reads {value : Json} {timestamp : Option ℤ} {writerId : Option String}
    (paired : Paired p t) (agree : Agree p t) (double : ∀ n ∈ timestamp, Float64.IsDouble n)
    (stamped : (p.stamp value timestamp writerId).2 = r) :
    ∃ t₁ s, t.stamp (.parse value) (timestamp.map Float64.ofInt) writerId = (t₁, s) ∧
      t₁.nodeId = p.nodeId ∧ t₁.state = t.state ∧ r.value = value ∧ s.value = .parse value ∧
      (Float64.IsDouble r.timestamp → s.Reads r) ∧
      (t₁.logicalClock.number = .rat (max p.logicalClock r.timestamp : ℤ) ↔
        Float64.IsDouble r.timestamp) := by
  subst stamped
  refine ⟨_, _, rfl, ?_⟩
  cases timestamp with
  | none =>
    have clock := Ecma.number_addOne agree.clock
    have later : max p.logicalClock (p.logicalClock + 1) = p.logicalClock + 1 :=
      max_eq_right (Int.le_add_one le_rfl)
    refine ⟨paired.nodeId, rfl, rfl, rfl, fun double => ⟨rfl, clock.trans double, paired.nodeId⟩,
      ?_⟩
    simp only [LWWMap.stamp, Option.map_none, clock, later, Float64.IsDouble]
  | some n =>
    have double := double n rfl
    refine ⟨paired.nodeId, rfl, rfl, rfl, fun _ => ⟨rfl, double, ?_⟩, ?_⟩
    · exact congrArg writerId.getD paired.nodeId
    · exact iff_of_true (Ecma.number_max agree.clock double) double

/-- A `set` writes to one key. -/
theorem writes_set {key : String} {value : Json} {timestamp : Option ℤ} {writerId : Option String}
    (stamped : (p.stamp value timestamp writerId).2 = r)
    (entries : ∀ other, t'.state.get? other =
      if other = key then some (TsRecord.offer (t.state.get? key) s) else t.state.get? other) :
    Writes p (p.set key value timestamp writerId) t t'
      (fun other => if other = key then some r else none)
      (fun other => if other = key then some s else none) := by
  constructor
  · intro other
    rw [LWWMap.get?_set, stamped]
    split_ifs with same
    · rw [same, Option.elim_some]
    · rfl
  · intro other
    rw [entries]
    split_ifs with same
    · rw [same, Option.elim_some]
    · rfl

theorem stepped_set {key : String} {value : Json} {timestamp : Option ℤ} {writerId : Option String}
    (paired : Paired p t) (agree : Agree p t)
    (valid : (MapCall.set key value timestamp writerId).Valid) :
    Stepped p t (.set key value timestamp writerId) := by
  obtain ⟨own, distinct, double⟩ := valid
  obtain ⟨r, stamped⟩ : ∃ r, (p.stamp value timestamp writerId).2 = r := ⟨_, rfl⟩
  obtain ⟨t₁, s, stamped', nodeId, state, value', value'', reads, clock⟩ :=
    stamp_reads paired agree double stamped
  obtain ⟨after, stored, entries⟩ := t₁.store_eq own s
  rw [state] at entries
  have writes : Writes p (p.set key value timestamp writerId) t { t₁ with state := after } _ _ :=
    writes_set stamped entries
  have clock' : (p.set key value timestamp writerId).logicalClock =
      max p.logicalClock r.timestamp := by
    rw [LWWMap.logicalClock_set, stamped]
  have portable : (MapCall.set key value timestamp writerId).Portable p ↔
      Float64.IsDouble r.timestamp ∧ r.Portable (p.state.get? key) := by
    rw [← stamped]
    rfl
  refine ⟨_, { t₁ with state := after }, rfl, ?_, writes.paired paired ?_ ?_ ?_, ?_⟩
  · rw [TsLWWMap.apply, TsLWWMap.set, stamped']
    exact stored
  · rw [LWWMap.nodeId_set, nodeId]
  · intro other x found
    obtain rfl := Option.some.inj (Option.ite_none_right_eq_some.mp found).2
    rwa [value']
  · intro other x found
    obtain rfl := Option.some.inj (Option.ite_none_right_eq_some.mp found).2
    rw [value'']
    exact distinct_parse distinct
  -- The entries agree afterwards just when the entry that is kept is the same on both sides.
  · have inOrder (double : Float64.IsDouble r.timestamp) :
        (∀ other, EntriesAlike ((p.set key value timestamp writerId).state.get? other)
          (after.get? other)) ↔ r.Portable (p.state.get? key) := by
      have read : ∀ other, Option.Rel (fun r s => s.Reads r) (if other = key then some r else none)
          (if other = key then some s else none) := by
        intro other
        split_ifs
        · exact .some (reads double)
        · exact .none
      rw [writes.entries_iff paired read agree.entries]
      simp
    rw [portable]
    constructor
    · intro agree'
      have double := clock.mp (clock' ▸ agree'.clock)
      exact ⟨double, (inOrder double).mp agree'.entries⟩
    · rintro ⟨double, holds⟩
      exact ⟨clock' ▸ clock.mpr double, (inOrder double).mpr holds⟩

theorem lookup_eq_some_iff {items : List (String × Record)} (nodup : (items.map Prod.fst).Nodup)
    {key : String} : items.lookup key = some r ↔ (key, r) ∈ items :=
  Dict.get?_eq_some_iff (d := ⟨items, nodup⟩)

/-- A `merge` of records into the map in Python. -/
theorem apply_merge {items : List (String × Record)} (nodup : (items.map Prod.fst).Nodup) :
    ∃ p', p.apply (.merge items) = some p' ∧ p'.nodeId = p.nodeId ∧
      p'.logicalClock = items.foldl (fun n item => max n item.2.timestamp) p.logicalClock ∧
      ∀ key, p'.state.get? key = (items.lookup key).elim (p.state.get? key) fun r =>
        some (Register.offer Record.rank (p.state.get? key) r) := by
  -- Each record moves the clock and offers itself to its own key.
  have each : ∀ item ∈ items, ∀ (m : LWWMap) (n : ℤ), m.logicalClock = n ∧ m.nodeId = p.nodeId →
      ∃ m', m.mergeRecord (item.1, item.2.toJson) = some m' ∧
        (m'.logicalClock = max n item.2.timestamp ∧ m'.nodeId = p.nodeId) ∧
        ∀ key, m'.state.get? key = if key = item.1 then
          some (Register.offer Record.rank (m.state.get? key) item.2) else m.state.get? key := by
    rintro ⟨key, r⟩ - m n ⟨rfl, nodeId⟩
    refine ⟨m.set key r.value (some r.timestamp) (some r.writerId), rfl, ⟨?_, ?_⟩, fun other => ?_⟩
    · rw [LWWMap.logicalClock_set]
      rfl
    · rw [LWWMap.nodeId_set, nodeId]
    · rw [LWWMap.get?_set]
      split_ifs with same
      · rw [same]
        rfl
      · rfl
  obtain ⟨p', merged, ⟨clock, nodeId⟩, get⟩ :=
    Register.exists_foldlM (fun (m : LWWMap) key => m.state.get? key)
    _ (Register.offer Record.rank) (fun m n => m.logicalClock = n ∧ m.nodeId = p.nodeId)
    (fun n r => max n r.timestamp) nodup each ⟨rfl, rfl⟩
  refine ⟨p', ?_, nodeId, clock, get⟩
  rw [LWWMap.apply, LWWMap.merge, List.foldlM_map]
  exact merged

/-- The same into the map in TypeScript, in the order in which it enumerates them. -/
theorem apply_merge' {items : List (String × Record)} (nodup : (items.map Prod.fst).Nodup)
    (valid : ∀ item ∈ items, item.1 ∉ Ecma.objectPrototype ∧ Float64.IsDouble item.2.timestamp)
    {clock : ℤ} (value : t.logicalClock.number = .rat clock) :
    ∃ t', t.apply (.merge items) = some t' ∧ t'.nodeId = t.nodeId ∧
      t'.logicalClock.number =
        .rat (items.foldl (fun n item => max n item.2.timestamp) clock : ℤ) ∧
      ∀ key, t'.state.get? key = ((items.lookup key).map TsRecord.parse).elim (t.state.get? key)
        fun s => some (TsRecord.offer (t.state.get? key) s) := by
  -- TypeScript enumerates the entries in another order, with keys like integers first.
  have perm := Ecma.perm_entries items
  have nodup' := (perm.map Prod.fst).nodup_iff.mpr nodup
  have each : ∀ item ∈ Ecma.entries items, ∀ (m : TsLWWMap) (n : ℤ),
      m.logicalClock.number = .rat n ∧ m.nodeId = t.nodeId →
      ∃ m', m.mergeRecord (item.1, TsRecord.parse item.2) = some m' ∧
        (m'.logicalClock.number = .rat (max n item.2.timestamp : ℤ) ∧ m'.nodeId = t.nodeId) ∧
        ∀ key, m'.state.get? key = if key = item.1 then
          some (TsRecord.offer (m.state.get? key) (TsRecord.parse item.2)) else m.state.get?
            key := by
    rintro ⟨key, r⟩ member m n ⟨value, nodeId⟩
    obtain ⟨own, double⟩ := valid _ (perm.mem_iff.mp member)
    obtain ⟨state, stored, get⟩ := TsLWWMap.store_eq
      { m with logicalClock := Ecma.max m.logicalClock (Float64.ofInt r.timestamp) } own
      (TsRecord.parse r)
    refine ⟨_, stored, ⟨Ecma.number_max value double, nodeId⟩, fun other => ?_⟩
    rw [get]
    split_ifs with same
    · rw [same]
    · rfl
  obtain ⟨t', merged, ⟨clock', nodeId⟩, get⟩ :=
    Register.exists_foldlM (fun (m : TsLWWMap) key => m.state.get? key)
    _ (fun f r => TsRecord.offer f (TsRecord.parse r))
    (fun m (n : ℤ) => m.logicalClock.number = .rat n ∧ m.nodeId = t.nodeId)
    (fun n r => max n r.timestamp) nodup' each ⟨value, rfl⟩
  refine ⟨t', ?_, nodeId, ?_, fun key => ?_⟩
  · rw [TsLWWMap.apply, TsLWWMap.merge, Ecma.entries_map, List.foldlM_map]
    exact merged
  · -- The clock does not depend on the order of enumeration, and neither do the entries.
    have commutes : RightCommutative fun (n : ℤ) (item : String × Record) =>
        max n item.2.timestamp := ⟨fun _ _ _ => max_right_comm _ _ _⟩
    rw [clock', perm.foldl_eq]
  · have lookup : (Ecma.entries items).lookup key = items.lookup key := by
      ext r
      rw [lookup_eq_some_iff nodup', lookup_eq_some_iff nodup, perm.mem_iff]
    rw [get, lookup]
    cases items.lookup key <;> rfl

theorem stepped_merge {items : List (String × Record)} (paired : Paired p t)
    (agree : Agree p t) (valid : (MapCall.merge items).Valid) : Stepped p t (.merge items) := by
  obtain ⟨nodup, valid⟩ := valid
  obtain ⟨p', merged, nodeId, clock, get⟩ := apply_merge (p := p) nodup
  obtain ⟨t', merged', nodeId', clock', get'⟩ :=
    apply_merge' nodup (fun item member => ⟨(valid item member).1, (valid item member).2.2⟩)
      agree.clock
  have writes : Writes p p' t t' (fun key => items.lookup key)
      fun key => (items.lookup key).map TsRecord.parse := ⟨get, get'⟩
  have written {key : String} {r : Record} (found : items.lookup key = some r) :=
    valid _ ((lookup_eq_some_iff nodup).mp found)
  refine ⟨p', t', merged, merged', writes.paired paired ?_ ?_ ?_, ?_⟩
  · rw [nodeId', nodeId, paired.nodeId]
  · intro key r found
    exact (written found).2.1
  · intro key s found
    obtain ⟨r, here, rfl⟩ := Option.map_eq_some_iff.mp found
    exact distinct_parse (written here).2.1
  -- The records of both sides are the same items, read from one text.
  · have reads : ∀ key, Option.Rel (fun r s => s.Reads r) (items.lookup key)
        ((items.lookup key).map TsRecord.parse) := by
      intro key
      cases found : items.lookup key with
      | none => exact .none
      | some r => exact .some (TsRecord.reads_parse (written found).2.2)
    have inOrder := writes.entries_iff paired reads agree.entries
    have portable : (MapCall.merge items).Portable p ↔
        ∀ key, ∀ r ∈ items.lookup key, r.Portable (p.state.get? key) := by
      constructor
      · intro holds key r found
        exact holds _ ((lookup_eq_some_iff nodup).mp found)
      · rintro holds ⟨key, r⟩ member
        exact holds key r ((lookup_eq_some_iff nodup).mpr member)
    rw [portable, ← inOrder]
    exact ⟨Agree.entries, fun entries => ⟨clock ▸ clock', entries⟩⟩

theorem stepped {c : MapCall} (paired : Paired p t) (agree : Agree p t) (valid : c.Valid) :
    Stepped p t c := by
  cases c with
  | set key value timestamp writerId => exact stepped_set paired agree valid
  | merge otherState => exact stepped_merge paired agree valid

/-! ### Serialized states -/

theorem Record.alike_iff : r.Alike s ↔ r.toJson.SameValue s.toJson := by
  constructor
  · intro alike
    have timestamps := Json.sameValue_float_iff.mpr alike.timestamp
    have writers := Json.sameValue_str_iff.mpr alike.writerId.symm
    -- The two records have the same three members.
    refine Json.sameValue_obj_of_members (by simp) (by simp) ?_ ?_
    · intro key v member
      simp only [List.mem_cons, Prod.mk.injEq, List.not_mem_nil, or_false] at member
      rcases member with ⟨rfl, rfl⟩ | ⟨rfl, rfl⟩ | ⟨rfl, rfl⟩
      · exact ⟨s.value.json, by simp, alike.value⟩
      · exact ⟨.float s.timestamp, by simp, timestamps⟩
      · exact ⟨.str s.writerId, by simp, writers⟩
    · intro key v member
      simp only [List.mem_cons, Prod.mk.injEq, List.not_mem_nil, or_false] at member
      rcases member with ⟨rfl, rfl⟩ | ⟨rfl, rfl⟩ | ⟨rfl, rfl⟩
      · exact ⟨r.value, by simp, alike.value⟩
      · exact ⟨.int r.timestamp, by simp, timestamps⟩
      · exact ⟨.str r.writerId, by simp, writers⟩
  · intro same
    obtain ⟨value, here, values⟩ :=
      same.exists_member (List.mem_cons_self : ("value", r.value) ∈ _)
    obtain ⟨timestamp, here', timestamps⟩ := same.exists_member
      (List.mem_cons_of_mem _ List.mem_cons_self : ("timestamp", Json.int r.timestamp) ∈ _)
    obtain ⟨writer, here'', writers⟩ := same.exists_member
      (List.mem_cons_of_mem _ (List.mem_cons_of_mem _ List.mem_cons_self) :
        ("writer_id", Json.str r.writerId) ∈ _)
    obtain rfl : value = s.value.json := by simpa using here
    obtain rfl : timestamp = .float s.timestamp := by simpa using here'
    obtain rfl : writer = .str s.writerId := by simpa using here''
    exact ⟨values, Json.sameValue_float_iff.mp timestamps, (Json.sameValue_str_iff.mp writers).symm⟩

theorem LWWMap.mem_serializeItems {m : LWWMap} {key : String} {v : Json} :
    (key, v) ∈ m.serializeItems ↔ ∃ r, m.state.get? key = some r ∧ r.toJson = v := by
  rw [serializeItems, List.mem_map]
  constructor
  · rintro ⟨⟨k, r⟩, member, equal⟩
    obtain ⟨rfl, rfl⟩ := Prod.mk.inj equal
    exact ⟨r, Dict.get?_eq_some_iff.mpr member, rfl⟩
  · rintro ⟨r, found, rfl⟩
    exact ⟨(key, r), Dict.get?_eq_some_iff.mp found, rfl⟩

theorem TsLWWMap.mem_serializeItems {m : TsLWWMap} {key : String} {v : Json} :
    (key, v) ∈ (Ecma.entries m.state.items).map (fun item => (item.1, item.2.toJson)) ↔
      ∃ s, m.state.get? key = some s ∧ s.toJson = v := by
  rw [List.mem_map]
  constructor
  · rintro ⟨⟨k, s⟩, member, equal⟩
    obtain ⟨rfl, rfl⟩ := Prod.mk.inj equal
    exact ⟨s, Dict.get?_eq_some_iff.mpr ((Ecma.perm_entries _).mem_iff.mp member), rfl⟩
  · rintro ⟨s, found, rfl⟩
    exact ⟨(key, s), (Ecma.perm_entries _).mem_iff.mpr (Dict.get?_eq_some_iff.mp found), rfl⟩

/-- The maps agree exactly when they serialize to one JSON value and have equal clocks. -/
theorem agree_iff :
    Agree p t ↔ p.serializeState.SameValue t.serializeState ∧
      t.logicalClock.number = .rat p.logicalClock := by
  constructor
  · rintro ⟨clock, entries⟩
    refine ⟨Json.sameValue_obj_of_members ?_ ?_ ?_ ?_, clock⟩
    · rw [LWWMap.serializeItems, List.map_map]
      exact p.state.nodupKeys
    · rw [List.map_map]
      exact ((Ecma.perm_entries _).map Prod.fst).nodup_iff.mpr t.state.nodupKeys
    · intro key v member
      obtain ⟨r, found, rfl⟩ := LWWMap.mem_serializeItems.mp member
      obtain ⟨s, there, alike⟩ := (found ▸ entries key : EntriesAlike (some r) _).exists_right
      exact ⟨s.toJson, TsLWWMap.mem_serializeItems.mpr ⟨s, there, rfl⟩, Record.alike_iff.mp alike⟩
    · intro key v member
      obtain ⟨s, found, rfl⟩ := TsLWWMap.mem_serializeItems.mp member
      obtain ⟨r, there, alike⟩ := (found ▸ entries key : EntriesAlike _ (some s)).exists_left
      exact ⟨r.toJson, LWWMap.mem_serializeItems.mpr ⟨r, there, rfl⟩, Record.alike_iff.mp alike⟩
  · rintro ⟨same, clock⟩
    -- A key that one side lacks has no member in what the other side serializes.
    refine ⟨clock, fun key => ?_⟩
    cases here : p.state.get? key with
    | some r =>
      obtain ⟨v, member, alike⟩ := same.exists_member (LWWMap.mem_serializeItems.mpr ⟨r, here, rfl⟩)
      obtain ⟨s, there, rfl⟩ := TsLWWMap.mem_serializeItems.mp member
      rw [there]
      exact .some (Record.alike_iff.mpr alike)
    | none =>
      cases there : t.state.get? key with
      | none => exact .none
      | some s =>
        obtain ⟨v, member, -⟩ :=
          same.symm.exists_member (TsLWWMap.mem_serializeItems.mpr ⟨s, there, rfl⟩)
        obtain ⟨r, found, -⟩ := LWWMap.mem_serializeItems.mp member
        rw [here] at found
        cases found

/-! ### Runs -/

/-- After these calls both maps serialize to one JSON value and have equal clocks. -/
def InParity (p : LWWMap) (t : TsLWWMap) (calls : List MapCall) : Prop :=
  ∃ p' t', runPartial LWWMap.apply p calls = some p' ∧ runPartial TsLWWMap.apply t calls = some t' ∧
    p'.serializeState.SameValue t'.serializeState ∧ t'.logicalClock.number = .rat p'.logicalClock

/-- Every call is portable in the state in which the map in Python receives it. -/
def PortableRun : LWWMap → List MapCall → Prop
  | _, [] => True
  | p, c :: calls => c.Portable p ∧ ∀ p' ∈ p.apply c, PortableRun p' calls

theorem inParity_nil : InParity p t [] ↔ Agree p t := by
  rw [agree_iff]
  constructor
  · rintro ⟨p', t', here, there, holds⟩
    obtain rfl := Option.some.inj here
    obtain rfl := Option.some.inj there
    exact holds
  · intro holds
    exact ⟨p, t, rfl, rfl, holds⟩

theorem inParity_cons {c : MapCall} {calls : List MapCall} (here : p.apply c = some p')
    (there : t.apply c = some t') : InParity p t (c :: calls) ↔ InParity p' t' calls := by
  simp only [InParity, runPartial, here, there, Option.bind_some]

/-- From maps that agree, all prefixes of a run are in parity exactly when its calls
are portable. -/
theorem inParity_prefixes_iff {calls : List MapCall} (valid : ∀ c ∈ calls, c.Valid)
    (paired : Paired p t) (agree : Agree p t) :
    (∀ pre, pre <+: calls → InParity p t pre) ↔ PortableRun p calls := by
  -- The two maps move together as long as they agree; the first call that is not
  -- portable is the prefix after which they do not.
  induction calls generalizing p t with
  | nil =>
    refine iff_of_true ?_ trivial
    intro pre isPrefix
    rw [List.prefix_nil.mp isPrefix, inParity_nil]
    exact agree
  | cons c calls ih =>
    obtain ⟨p', t', here, there, paired', portable⟩ :=
      stepped paired agree (valid c List.mem_cons_self)
    have ih := fun agree' => ih (fun c member => valid c (List.mem_cons_of_mem _ member)) paired'
      agree'
    have rest : PortableRun p (c :: calls) ↔ c.Portable p ∧ PortableRun p' calls := by
      simp [PortableRun, here]
    rw [rest]
    constructor
    · intro holds
      have after (pre : List MapCall) (isPrefix : pre <+: calls) : InParity p' t' pre :=
        (inParity_cons here there).mp (holds (c :: pre) (List.cons_prefix_cons.mpr ⟨rfl, isPrefix⟩))
      have agree' := inParity_nil.mp (after [] List.nil_prefix)
      exact ⟨portable.mp agree', (ih agree').mp after⟩
    · rintro ⟨holds, later⟩ pre isPrefix
      have agree' := portable.mpr holds
      cases pre with
      | nil => exact inParity_nil.mpr agree
      | cons d pre =>
        obtain ⟨rfl, shorter⟩ := List.cons_prefix_cons.mp isPrefix
        exact (inParity_cons here there).mpr ((ih agree').mpr later pre shorter)

/-- Both maps of one node, given the same calls, serialize to one JSON value and have
equal clocks after each of them, exactly when every call is portable. -/
theorem typescript_parity_iff (nodeId : String) {calls : List MapCall}
    (valid : ∀ c ∈ calls, c.Valid) :
    (∀ pre, pre <+: calls → InParity (LWWMap.init nodeId) (TsLWWMap.init nodeId) pre) ↔
      PortableRun (LWWMap.init nodeId) calls :=
  inParity_prefixes_iff valid (paired_init nodeId) (agree_init nodeId)

/-- Local and remote writes of one key, with a tie that the writers decide. -/
def sharing : List MapCall :=
  [.set "k" (.int 1) none none, .set "k" (.str "x") (some 5) (some "b"),
    .merge [("k", ⟨.obj [("y", .null), ("x", .bool true)], 5, "c"⟩), ("j", ⟨.int 2, 3, "b"⟩)]]

theorem typescript_parity_sharing :
    InParity (LWWMap.init "a") (TsLWWMap.init "a") sharing := by
  have own (key : String) (plain : key = "k" ∨ key = "j") : key ∉ Ecma.objectPrototype := by
    rcases plain with rfl | rfl <;> decide
  have small (n : ℤ) (bound : n.natAbs ≤ 5) : Float64.IsDouble n :=
    Float64.isDouble_of_natAbs_le (bound.trans (by norm_num))
  have valid : ∀ c ∈ sharing, c.Valid := by
    simp only [sharing, List.forall_mem_cons]
    refine ⟨⟨own _ (.inl rfl), trivial, nofun⟩, ⟨own _ (.inl rfl), trivial, ?_⟩, ⟨by decide, ?_⟩,
      nofun⟩
    · rintro n found
      obtain rfl := Option.some.inj found
      exact small 5 (by decide)
    · simp only [List.forall_mem_cons]
      refine ⟨⟨own _ (.inl rfl), ?_, small 5 (by decide)⟩,
        ⟨own _ (.inr rfl), trivial, small 3 (by decide)⟩, nofun⟩
      exact ⟨by decide, trivial, trivial, trivial⟩
  refine (typescript_parity_iff "a" valid).mpr ⟨by decide +kernel, fun p first => ?_⟩ sharing
    List.prefix_rfl
  obtain rfl := Option.some.inj first
  refine ⟨by decide +kernel, fun p second => ?_⟩
  obtain rfl := Option.some.inj second
  exact ⟨by decide +kernel, fun _ _ => trivial⟩

/-- Two values of one timestamp and one writer. Python compares an escape with `z`,
TypeScript the letter itself. -/
def rivals : List MapCall :=
  [.set "k" (.str "z") (some 1) (some "w"), .set "k" (.str "é") (some 1) (some "w")]

theorem typescript_diverges :
    (∀ c ∈ rivals, c.Valid) ∧ ¬ InParity (LWWMap.init "a") (TsLWWMap.init "a") rivals := by
  constructor
  · have valid (value : String) : (MapCall.set "k" (.str value) (some 1) (some "w")).Valid := by
      refine ⟨by decide, trivial, fun n found => ?_⟩
      obtain rfl := Option.some.inj found
      exact Float64.isDouble_of_natAbs_le (by norm_num)
    simp [rivals, valid]
  · rintro ⟨p, t, python, typescript, same, -⟩
    have states : (runPartial LWWMap.apply (LWWMap.init "a") rivals).any (fun p =>
        (runPartial TsLWWMap.apply (TsLWWMap.init "a") rivals).any fun t =>
          decide (p.serializeState.SameValue t.serializeState)) = false := by decide +kernel
    rw [python, typescript] at states
    simp [same] at states

end AgentTelepathy
