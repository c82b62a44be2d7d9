import Mathlib.Data.Prod.Lex
import Mathlib.Data.String.Basic
import AgentTelepathy.Foundation.Dict
import AgentTelepathy.Foundation.JsonText
import AgentTelepathy.Foundation.Register

/-!
# The last-writer-wins map

A map keeps, for each key, one record of a value, a Lamport timestamp and the
writer's id. A write replaces the record of its key when its timestamp is
greater, on equal timestamps when its writer is greater, and on equal writers
when the JSON text of its value is greater. These nested comparisons are one
comparison in a lexicographic order, so every key is a register that keeps a
greatest record.
-/

namespace AgentTelepathy

open Foundation

/-- One stored write: a value, its timestamp and its writer. -/
structure Record where
  value : Json
  timestamp : ℤ
  writerId : String
deriving DecidableEq

namespace Record

/-- The text that decides between values of one timestamp and one writer. -/
def dumps (value : Json) : String := JsonText.dumpsSorted JsonText.defaultStyle value

/-- The record as it stands in a serialized state. -/
def toJson (r : Record) : Json :=
  .obj [("value", r.value), ("timestamp", .int r.timestamp), ("writer_id", .str r.writerId)]

/-- Read a record with an integer timestamp and a string writer. -/
def ofJson? (record : Json) : Option Record :=
  match record.get? "value", record.get? "timestamp", record.get? "writer_id" with
  | some value, some (.int timestamp), some (.str writerId) => some ⟨value, timestamp, writerId⟩
  | _, _, _ => none

@[simp] theorem ofJson?_toJson (r : Record) : ofJson? r.toJson = some r := rfl

/-- Whether a new record replaces an existing one. -/
def supersedes (new existing : Record) : Bool :=
  if new.timestamp > existing.timestamp then true
  else if new.timestamp = existing.timestamp then
    if new.writerId > existing.writerId then true
    else if new.writerId = existing.writerId then dumps new.value > dumps existing.value
    else false
  else false

/-- The order of records: timestamp, then writer, then text of the value. -/
def rank (r : Record) : ℤ ×ₗ String ×ₗ String :=
  toLex (r.timestamp, toLex (r.writerId, dumps r.value))

/-- The nested comparisons of a write compare ranks. -/
theorem supersedes_iff {new existing : Record} :
    supersedes new existing = true ↔ rank existing < rank new := by
  have byTimestamp : rank existing < rank new ↔ existing.timestamp < new.timestamp ∨
      existing.timestamp = new.timestamp ∧ (existing.writerId < new.writerId ∨
        existing.writerId = new.writerId ∧ dumps existing.value < dumps new.value) := by
    rw [rank, rank, Prod.Lex.toLex_lt_toLex, Prod.Lex.toLex_lt_toLex]
  rw [byTimestamp, supersedes]
  split_ifs with later sameTime above sameWriter
  · exact iff_of_true rfl (.inl later)
  · exact iff_of_true rfl (.inr ⟨sameTime.symm, .inl above⟩)
  · have notAbove : ¬ existing.writerId < new.writerId := above
    simp [sameTime, sameWriter]
  · refine iff_of_false (by simp) ?_
    rintro (earlier | ⟨-, below | ⟨same, -⟩⟩)
    · exact later earlier
    · exact above below
    · exact sameWriter same.symm
  · refine iff_of_false (by simp) ?_
    rintro (earlier | ⟨same, -⟩)
    · exact later earlier
    · exact sameTime same.symm

theorem timestamp_le_of_rank_le {r s : Record} (below : rank r ≤ rank s) :
    r.timestamp ≤ s.timestamp := by
  rcases Prod.Lex.le_iff.mp below with less | ⟨same, -⟩
  · exact le_of_lt less
  · exact le_of_eq same

/-- Records of one rank serialize to the same JSON, up to the order of members
inside their values. -/
theorem same_toJson_of_rank_eq {r s : Record} (h : rank r = rank s) :
    Json.Same r.toJson s.toJson := by
  have parts := Prod.ext_iff.mp (toLex.injective h)
  have timestamps : r.timestamp = s.timestamp := parts.1
  have inner := Prod.ext_iff.mp (toLex.injective parts.2)
  have writers : r.writerId = s.writerId := inner.1
  have values : Json.Same r.value s.value := JsonText.dumpsSorted_eq_iff.mp inner.2
  refine Json.same_obj_of_members (by simp) (by simp) ?_ ?_
  · intro k v member
    simp only [List.mem_cons, Prod.mk.injEq, List.not_mem_nil, or_false] at member
    rcases member with ⟨rfl, rfl⟩ | ⟨rfl, rfl⟩ | ⟨rfl, rfl⟩
    · exact ⟨s.value, by simp, values⟩
    · exact ⟨.int s.timestamp, by simp, by rw [timestamps]⟩
    · exact ⟨.str s.writerId, by simp, by rw [writers]⟩
  · intro k v member
    simp only [List.mem_cons, Prod.mk.injEq, List.not_mem_nil, or_false] at member
    rcases member with ⟨rfl, rfl⟩ | ⟨rfl, rfl⟩ | ⟨rfl, rfl⟩
    · exact ⟨r.value, by simp, values⟩
    · exact ⟨.int r.timestamp, by simp, by rw [timestamps]⟩
    · exact ⟨.str r.writerId, by simp, by rw [writers]⟩

end Record

/-- A replica: its id, the record of each key and its Lamport clock. -/
structure LWWMap where
  nodeId : String
  state : Dict String Record
  logicalClock : ℤ

namespace LWWMap

/-- A new map. -/
def init (nodeId : String) : LWWMap := ⟨nodeId, Dict.empty, 0⟩

/-- The first part of `set`: advance the clock and complete the record. -/
def stamp (m : LWWMap) (value : Json) (timestamp : Option ℤ) (writerId : Option String) :
    LWWMap × Record :=
  match timestamp with
  | none =>
    let clock := m.logicalClock + 1
    ({ m with logicalClock := clock }, ⟨value, clock, m.nodeId⟩)
  | some timestamp =>
    ({ m with logicalClock := max m.logicalClock timestamp },
      ⟨value, timestamp, writerId.getD m.nodeId⟩)

/-- The second part of `set`: store the record unless the present one stands,
and tell whether it was stored. -/
def store (m : LWWMap) (key : String) (record : Record) : LWWMap × Bool :=
  match m.state.get? key with
  | some existing =>
    if record.supersedes existing then ({ m with state := m.state.set key record }, true)
    else (m, false)
  | none => ({ m with state := m.state.set key record }, true)

/-- `set(key, value, timestamp, writer_id)`; a missing timestamp is `none`. -/
def set (m : LWWMap) (key : String) (value : Json) (timestamp : Option ℤ)
    (writerId : Option String) : LWWMap :=
  let (m, record) := m.stamp value timestamp writerId
  (m.store key record).1

/-- The value of a key. -/
def get (m : LWWMap) (key : String) : Option Json := (m.state.get? key).map Record.value

/-- One round of the loop of `merge`; nothing for a record it cannot read. -/
def mergeRecord (m : LWWMap) (item : String × Json) : Option LWWMap :=
  (Record.ofJson? item.2).map fun r => m.set item.1 r.value (some r.timestamp) (some r.writerId)

/-- `merge(other_state)`. -/
def merge (m : LWWMap) (otherState : List (String × Json)) : Option LWWMap :=
  otherState.foldlM mergeRecord m

/-- The items of `serialize_state()`. -/
def serializeItems (m : LWWMap) : List (String × Json) :=
  m.state.items.map fun item => (item.1, item.2.toJson)

/-- `serialize_state()`. -/
def serializeState (m : LWWMap) : Json := .obj m.serializeItems

@[simp] theorem get?_init (nodeId key : String) : (init nodeId).state.get? key = none := rfl

@[simp] theorem stamp_state (m : LWWMap) (value : Json) (timestamp : Option ℤ)
    (writerId : Option String) : (m.stamp value timestamp writerId).1.state = m.state := by
  cases timestamp <;> rfl

/-- Storing offers the record to the register of its key and leaves the others alone. -/
theorem get?_store (m : LWWMap) (key other : String) (record : Record) :
    (m.store key record).1.state.get? other =
      if other = key then some (Register.offer Record.rank (m.state.get? key) record)
      else m.state.get? other := by
  have atSet : (m.state.set key record).get? other =
      if other = key then some record else m.state.get? other := Dict.get?_set _ _ _ _
  cases present : m.state.get? key with
  | none => simpa [store, present, Register.offer] using atSet
  | some existing =>
    by_cases newer : record.supersedes existing = true
    · simpa [store, present, newer, Register.offer, Record.supersedes_iff.mp newer] using atSet
    · have older : ¬ Record.rank existing < Record.rank record :=
        fun below => newer (Record.supersedes_iff.mpr below)
      simp only [store, present, newer, Bool.false_eq_true, if_false, Register.offer, if_neg older]
      split_ifs with same
      · rw [same, present]
      · rfl

/-- A whole `set` offers the stamped record to the register of its key. -/
theorem get?_set (m : LWWMap) (key other : String) (value : Json) (timestamp : Option ℤ)
    (writerId : Option String) :
    (m.set key value timestamp writerId).state.get? other =
      if other = key then
        some (Register.offer Record.rank (m.state.get? key) (m.stamp value timestamp writerId).2)
      else m.state.get? other := by
  simp only [set, get?_store, stamp_state]

/-- The entry stands, or the record takes its place. -/
theorem store_eq (m : LWWMap) (key : String) (r : Record) :
    (∃ e, m.state.get? key = some e ∧ r.supersedes e = false) ∧ m.store key r = (m, false) ∨
      (¬ ∃ e, m.state.get? key = some e ∧ r.supersedes e = false) ∧
        m.store key r = ({ m with state := m.state.set key r }, true) := by
  unfold store
  cases m.state.get? key with
  | none => exact .inr ⟨nofun, rfl⟩
  | some e =>
    cases newer : r.supersedes e with
    | true =>
      refine .inr ⟨?_, by simp [newer]⟩
      rintro ⟨e', same, older⟩
      obtain rfl := Option.some.inj same
      rw [newer] at older
      cases older
    | false => exact .inl ⟨⟨e, rfl, newer⟩, by simp [newer]⟩

/-- Storing puts the record in place of an older one, or leaves the map as it is for
a newer one. -/
theorem store_cases (m : LWWMap) (key : String) (r : Record) :
    m.store key r = ({ m with state := m.state.set key r }, true) ∧
        (∀ e, m.state.get? key = some e → e.timestamp ≤ r.timestamp) ∨
      m.store key r = (m, false) ∧ ∃ e, m.state.get? key = some e ∧ r.timestamp ≤ e.timestamp := by
  rcases m.store_eq key r with ⟨⟨e, present, older⟩, stored⟩ | ⟨falls, stored⟩
  · have stands : Record.rank r ≤ Record.rank e :=
      not_lt.mp (mt Record.supersedes_iff.mpr (by simp [older]))
    exact .inr ⟨stored, e, present, Record.timestamp_le_of_rank_le stands⟩
  · refine .inl ⟨stored, fun e present => ?_⟩
    have newer : r.supersedes e = true := by
      by_contra older
      exact falls ⟨e, present, Bool.eq_false_of_not_eq_true older⟩
    exact Record.timestamp_le_of_rank_le (Record.supersedes_iff.mp newer).le

/-- The clock moves up to the timestamp of the record. -/
theorem logicalClock_stamp (m : LWWMap) (value : Json) (timestamp : Option ℤ)
    (writerId : Option String) :
    (m.stamp value timestamp writerId).1.logicalClock =
      max m.logicalClock (m.stamp value timestamp writerId).2.timestamp := by
  cases timestamp with
  | none => exact (max_eq_right (Int.le_add_one le_rfl)).symm
  | some timestamp => rfl

theorem logicalClock_set (m : LWWMap) (key : String) (value : Json) (timestamp : Option ℤ)
    (writerId : Option String) :
    (m.set key value timestamp writerId).logicalClock =
      max m.logicalClock (m.stamp value timestamp writerId).2.timestamp := by
  rw [← logicalClock_stamp]
  rcases (m.stamp value timestamp writerId).1.store_cases key
    (m.stamp value timestamp writerId).2 with ⟨same, -⟩ | ⟨same, -⟩ <;> simp only [set, same]

theorem nodeId_set (m : LWWMap) (key : String) (value : Json) (timestamp : Option ℤ)
    (writerId : Option String) : (m.set key value timestamp writerId).nodeId = m.nodeId := by
  have kept : (m.stamp value timestamp writerId).1.nodeId = m.nodeId := by cases timestamp <;> rfl
  rw [← kept]
  rcases (m.stamp value timestamp writerId).1.store_cases key
    (m.stamp value timestamp writerId).2 with ⟨same, -⟩ | ⟨same, -⟩ <;> simp only [set, same]

/-- Two maps whose registers hold records of one rank have equal serialized states. -/
theorem same_serializeState {m n : LWWMap}
    (ranks : ∀ key, (m.state.get? key).map Record.rank = (n.state.get? key).map Record.rank) :
    Json.Same m.serializeState n.serializeState := by
  have items : ∀ a b : LWWMap,
      (∀ key, (a.state.get? key).map Record.rank = (b.state.get? key).map Record.rank) →
      ∀ k v, (k, v) ∈ a.serializeItems → ∃ w, (k, w) ∈ b.serializeItems ∧ Json.Same v w := by
    intro a b same k v member
    obtain ⟨⟨key, r⟩, stored, eq⟩ := List.mem_map.mp member
    obtain ⟨rfl, rfl⟩ := Prod.mk.inj eq
    have found : a.state.get? key = some r := Dict.get?_eq_some_iff.mpr stored
    have ranked := same key
    rw [found] at ranked
    obtain ⟨s, there, rankEq⟩ := Option.map_eq_some_iff.mp ranked.symm
    exact ⟨s.toJson, List.mem_map.mpr ⟨(key, s), Dict.get?_eq_some_iff.mp there, rfl⟩,
      Record.same_toJson_of_rank_eq rankEq.symm⟩
  have keys : ∀ a : LWWMap, (a.serializeItems.map Prod.fst).Nodup := by
    intro a
    rw [serializeItems, List.map_map]
    exact a.state.nodupKeys
  refine Json.same_obj_of_members (keys m) (keys n) (items m n ranks) ?_
  intro k w member
  obtain ⟨v, there, same⟩ := items n m (fun key => (ranks key).symm) k w member
  exact ⟨v, there, same.symm⟩

end LWWMap

end AgentTelepathy
