import AgentTelepathy.Core.Inbound
import AgentTelepathy.Foundation.PyObjects
import AgentTelepathy.Memory.StateSync
import AgentTelepathy.Schemas.Wire

/-!
# Sending the state of a map

A local `set` takes any Python object, and the state that is sent holds these objects. The
sender signs the text that `json.dumps` writes of them, the frame holds the text of the
emitter, and the receiver checks the signature over what it has read of the frame. So a
state is accepted exactly if each of its values comes back as it was signed, and then each
record is merged with its timestamp and writer.
-/

namespace AgentTelepathy

open Foundation
open AgentIdentityManager (getPublicKeyString)

/-! ### The map of the sender -/

/-- A stored write of a Python object. -/
structure ObjectRecord where
  value : PyData
  timestamp : ℤ
  writerId : String

namespace ObjectRecord

/-- The text that decides between values; nothing where `json.dumps` raises. -/
def dumps (sorted : KeySort) (value : PyData) : Option String :=
  (value.object.dumps sorted).map fun v => String.ofList (JsonText.render JsonText.defaultStyle v)

/-- Whether a new record replaces an existing one; nothing where a comparison raises. -/
def supersedes (sorted : KeySort) (new existing : ObjectRecord) : Option Bool :=
  if new.timestamp > existing.timestamp then some true
  else if new.timestamp = existing.timestamp then
    if new.writerId > existing.writerId then some true
    else if new.writerId = existing.writerId then do
      let newText ← dumps sorted new.value
      let existingText ← dumps sorted existing.value
      return newText > existingText
    else some false
  else some false

/-- The members of the record in a serialized state. -/
def members (r : ObjectRecord) : List (String × PyObject) :=
  [("value", r.value.object), ("timestamp", .int r.timestamp), ("writer_id", .str r.writerId)]

/-- The record in a serialized state. -/
def toObject (r : ObjectRecord) : PyObject := .record r.members

/-- The record as a receiver reads it. -/
def received (r : ObjectRecord) : Record :=
  ⟨r.value.object.emit.merged, r.timestamp, r.writerId⟩

theorem distinct_members (r : ObjectRecord) : (r.members.map Prod.fst).Nodup := by
  simp [members]

theorem proper_toObject (r : ObjectRecord) : r.toObject.Proper :=
  PyObject.proper_record r.distinct_members (by simp [members, r.value.proper, PyObject.Proper])

theorem portable_toObject_iff (r : ObjectRecord) :
    r.toObject.Portable ↔ r.value.object.Portable := by
  rw [toObject, PyObject.portable_record_iff r.distinct_members]
  simp [members, PyObject.Portable]

theorem merged_emit_toObject (r : ObjectRecord) : r.toObject.emit.merged = r.received.toJson := by
  rw [toObject, PyObject.merged_emit_record r.distinct_members]
  rfl

end ObjectRecord

/-- A map as its local writers fill it. -/
structure ObjectMap where
  nodeId : String
  state : Dict String ObjectRecord
  logicalClock : ℤ

namespace ObjectMap

/-- A new map. -/
def init (nodeId : String) : ObjectMap := ⟨nodeId, Dict.empty, 0⟩

/-- `set(key, value)`; nothing where it raises. -/
def set (sorted : KeySort) (m : ObjectMap) (key : String) (value : PyData) : Option ObjectMap :=
  let clock := m.logicalClock + 1
  let m := { m with logicalClock := clock }
  let record : ObjectRecord := ⟨value, clock, m.nodeId⟩
  match m.state.get? key with
  | none => some { m with state := m.state.set key record }
  | some existing =>
    (record.supersedes sorted existing).map fun newer =>
      if newer then { m with state := m.state.set key record } else m

/-- Local `set` calls, one after another. -/
def setAll (sorted : KeySort) (m : ObjectMap) (writes : List (String × PyData)) :
    Option ObjectMap :=
  writes.foldlM (fun m write => m.set sorted write.1 write.2) m

/-- The members of `serialize_state()`. -/
def serializeItems (m : ObjectMap) : List (String × PyObject) :=
  m.state.items.map fun item => (item.1, item.2.toObject)

/-- `serialize_state()`. -/
def serializeState (m : ObjectMap) : PyObject := .record m.serializeItems

/-- The members of `payload.model_dump()` for a `CRDTSyncPayload` of the state. -/
def payloadItems (m : ObjectMap) (vectorClock : Dict String ℤ) : List (String × PyObject) :=
  [("payload_type", .str "crdt_sync"), ("crdt_type", .str "LWW-Map"),
    ("state", m.serializeState),
    ("vector_clock", .record (vectorClock.items.map fun entry => (entry.1, .int entry.2)))]

/-- `payload.model_dump()` for a `CRDTSyncPayload` of the state. -/
def payload (m : ObjectMap) (vectorClock : Dict String ℤ) : PyObject :=
  .record (m.payloadItems vectorClock)

/-- The payload as a receiver reads it. -/
def received (m : ObjectMap) (vectorClock : Dict String ℤ) : CRDTSyncPayload where
  crdtType := "LWW-Map"
  state := m.state.map fun r => r.received.toJson
  vectorClock := vectorClock

end ObjectMap

/-- `sign_payload(payload_dict)` on Python objects; nothing where `json.dumps` raises. -/
def AgentIdentityManager.signObject (sorted : KeySort) (sign : Bytes → Bytes)
    (payload : PyObject) : Option String :=
  (payload.dumps sorted).map fun v =>
    Base64.encode (sign (utf8 (String.ofList (JsonText.render JsonText.compactStyle v))))

/-- The value whose text is `envelope.model_dump_json()` for a signed payload of Python
objects. -/
def objectFrame (header : MessageHeader) (payload : PyObject) (signature : String) : Json :=
  .obj [("header", header.toJson), ("payload", payload.emit), ("signature", .str signature),
    ("ack_info", .null), ("chunk_info", .null)]

/-- `send_message(target, STATE_SYNC, payload)` with the state of a map: the frame that is
sent, and nothing where signing raises. -/
def ObjectMap.sendState {M : Type} (m : ObjectMap) (sorted : KeySort) (sign : Bytes → Bytes)
    (n : TPCPNode M) (ambient : Ambient) (target : UUID) (vectorClock : Dict String ℤ) :
    Option Json :=
  (AgentIdentityManager.signObject sorted sign (m.payload vectorClock)).map
    (objectFrame (n.createHeader ambient target .stateSync) (m.payload vectorClock))

/-! ### Local writes -/

namespace ObjectMap

variable {sorted : KeySort} {m : ObjectMap}

/-- No record is newer than the clock. -/
def Current (m : ObjectMap) : Prop :=
  ∀ key r, m.state.get? key = some r → r.timestamp ≤ m.logicalClock

theorem current_init (nodeId : String) : (init nodeId).Current := nofun

/-- A local `set` stores its value and never compares texts. -/
theorem set_eq (current : m.Current) (key : String) (value : PyData) :
    m.set sorted key value =
      some ⟨m.nodeId, m.state.set key ⟨value, m.logicalClock + 1, m.nodeId⟩,
        m.logicalClock + 1⟩ := by
  unfold set
  cases present : m.state.get? key with
  | none => simp [present]
  | some existing =>
    have newer : m.logicalClock + 1 > existing.timestamp :=
      Int.lt_add_one_of_le (current key existing present)
    simp [present, ObjectRecord.supersedes, newer]

theorem Current.set (current : m.Current) (key : String) (value : PyData) :
    ∃ m', m.set sorted key value = some m' ∧ m'.Current := by
  refine ⟨_, set_eq current key value, fun other r stored => ?_⟩
  rw [Dict.get?_set] at stored
  split_ifs at stored
  · obtain rfl := Option.some.inj stored
    exact le_rfl
  · exact (current other r stored).trans (Int.le_add_one le_rfl)

/-- Local writes never raise. -/
theorem Current.setAll (current : m.Current) (writes : List (String × PyData)) :
    ∃ m', m.setAll sorted writes = some m' ∧ m'.Current := by
  induction writes generalizing m with
  | nil => exact ⟨m, rfl, current⟩
  | cons write writes ih =>
    obtain ⟨between, stored, current'⟩ := current.set write.1 write.2
    obtain ⟨m', rest, current''⟩ := ih current'
    exact ⟨m', Option.bind_eq_some_iff.mpr ⟨between, stored, rest⟩, current''⟩

/-! ### The payload -/

variable {vectorClock : Dict String ℤ}

theorem distinct_serializeItems (m : ObjectMap) : (m.serializeItems.map Prod.fst).Nodup := by
  rw [serializeItems, List.map_map]
  exact m.state.nodupKeys

theorem distinct_clock (vectorClock : Dict String ℤ) :
    ((vectorClock.items.map fun entry => (entry.1, PyObject.int entry.2)).map Prod.fst).Nodup := by
  rw [List.map_map]
  exact vectorClock.nodupKeys

theorem distinct_payloadItems (m : ObjectMap) (vectorClock : Dict String ℤ) :
    ((m.payloadItems vectorClock).map Prod.fst).Nodup := by
  simp [payloadItems]

theorem proper_payload (m : ObjectMap) (vectorClock : Dict String ℤ) :
    (m.payload vectorClock).Proper := by
  have state : m.serializeState.Proper :=
    PyObject.proper_record m.distinct_serializeItems
      (List.forall_mem_map.mpr fun item _ => item.2.proper_toObject)
  have clock := PyObject.proper_record (distinct_clock vectorClock)
    (List.forall_mem_map.mpr fun _ _ => trivial)
  exact PyObject.proper_record (m.distinct_payloadItems vectorClock)
    (by simp [payloadItems, PyObject.Proper, state, clock])

/-- A payload is portable exactly if every value of the map is. -/
theorem portable_payload_iff (m : ObjectMap) (vectorClock : Dict String ℤ) :
    (m.payload vectorClock).Portable ↔ ∀ item ∈ m.state.items, item.2.value.object.Portable := by
  have state : m.serializeState.Portable ↔
      ∀ item ∈ m.state.items, item.2.value.object.Portable := by
    rw [serializeState, PyObject.portable_record_iff m.distinct_serializeItems, serializeItems,
      List.forall_mem_map]
    exact forall₂_congr fun item _ => item.2.portable_toObject_iff
  have clock := (PyObject.portable_record_iff (distinct_clock vectorClock)).mpr
    (List.forall_mem_map.mpr fun _ _ => trivial)
  rw [payload, PyObject.portable_record_iff (m.distinct_payloadItems vectorClock), ← state]
  simp [payloadItems, PyObject.Portable, clock]

/-- What a receiver reads of a payload is the dump of one whose state has come back. -/
theorem merged_emit_payload (m : ObjectMap) (vectorClock : Dict String ℤ) :
    (m.payload vectorClock).emit.merged =
      (Payload.crdtSync (m.received vectorClock)).modelDump := by
  have state : m.serializeState.emit.merged =
      .obj (m.state.map fun r => r.received.toJson).items := by
    rw [serializeState, PyObject.merged_emit_record m.distinct_serializeItems, serializeItems,
      List.map_map]
    refine congrArg Json.obj (List.map_congr_left fun item _ => ?_)
    exact Prod.ext rfl item.2.merged_emit_toObject
  have clock := PyObject.merged_emit_record (distinct_clock vectorClock)
  rw [List.map_map] at clock
  rw [payload, PyObject.merged_emit_record (m.distinct_payloadItems vectorClock)]
  simp only [payloadItems, List.map_cons, List.map_nil, state, clock]
  rfl

end ObjectMap

/-! ### The frame -/

mutual

/-- The emitter writes finite data only. -/
theorem allFinite_emit : ∀ o : PyObject, allFinite o.emit = true
  | .float f => by cases f <;> rfl
  | .list items => allFinite_emitItems items
  | .tuple items => allFinite_emitItems items
  | .dict items => allFinite_emitMembers items
  | .none | .bool _ | .int _ | .str _ => rfl

theorem allFinite_emitItems : ∀ l : List PyObject, allFiniteItems (PyObject.emitItems l) = true
  | [] => rfl
  | o :: l => Bool.and_eq_true_iff.mpr ⟨allFinite_emit o, allFinite_emitItems l⟩

theorem allFinite_emitMembers :
    ∀ l : List (PyKey × PyObject), allFiniteMembers (PyObject.emitMembers l) = true
  | [] => rfl
  | (_, o) :: l => Bool.and_eq_true_iff.mpr ⟨allFinite_emit o, allFinite_emitMembers l⟩

end

theorem allFiniteMembers_iff {l : List (String × Json)} :
    allFiniteMembers l = true ↔ ∀ p ∈ l, allFinite p.2 = true := by
  induction l with
  | nil => simp [allFiniteMembers]
  | cons p l ih => rw [allFiniteMembers, Bool.and_eq_true, ih, List.forall_mem_cons]

mutual

theorem allFinite_merged : ∀ v : Json, allFinite v = true → allFinite v.merged = true
  | .arr l, h => allFinite_mergedItems l h
  | .obj l, h => allFiniteMembers_iff.mpr fun p member =>
      allFiniteMembers_iff.mp (allFinite_mergedMembers l h) p (Dict.mem_of_mem_items_ofItems member)
  | .null, h | .bool _, h | .int _, h | .float _, h | .str _, h => h

theorem allFinite_mergedItems :
    ∀ l : List Json, allFiniteItems l = true → allFiniteItems (Json.mergedItems l) = true
  | [], h => h
  | v :: l, h => by
    obtain ⟨first, rest⟩ := Bool.and_eq_true_iff.mp h
    exact Bool.and_eq_true_iff.mpr ⟨allFinite_merged v first, allFinite_mergedItems l rest⟩

theorem allFinite_mergedMembers :
    ∀ l : List (String × Json), allFiniteMembers l = true →
      allFiniteMembers (Json.mergedMembers l) = true
  | [], h => h
  | (_, v) :: l, h => by
    obtain ⟨first, rest⟩ := Bool.and_eq_true_iff.mp h
    exact Bool.and_eq_true_iff.mpr ⟨allFinite_merged v first, allFinite_mergedMembers l rest⟩

end

/-- The envelope that a receiver reads. -/
def ObjectMap.envelope (m : ObjectMap) (vectorClock : Dict String ℤ) (header : MessageHeader)
    (signature : String) : TPCPEnvelope :=
  ⟨header, .crdtSync (m.received vectorClock), some signature, none, none⟩

/-- Every frame with a state is read, whatever its values are. -/
theorem modelValidate_objectFrame (ambient : Ambient) (m : ObjectMap)
    (vectorClock : Dict String ℤ) (header : MessageHeader) (signature : String) :
    TPCPEnvelope.modelValidate ambient
        (objectFrame header (m.payload vectorClock) signature).merged =
      .ok (m.envelope vectorClock header signature) := by
  have payload := m.merged_emit_payload vectorClock
  have finite : allFinite (Payload.crdtSync (m.received vectorClock)).modelDump = true :=
    payload ▸ allFinite_merged _ (allFinite_emit _)
  have head : header.toJson.merged = header.toJson :=
    Json.merged_of_distinct _ (by
      simp [MessageHeader.toJson, Json.Distinct, Json.DistinctMembers])
  have whole : (objectFrame header (m.payload vectorClock) signature).merged =
      (m.envelope vectorClock header signature).toJson := by
    rw [objectFrame, Json.merged, Dict.items_ofItems]
    · simp only [Json.mergedMembers, head, payload, Json.merged, TPCPEnvelope.toJson,
        ObjectMap.envelope, emitted_of_allFinite _ finite, optional, Option.elim]
    · rw [Json.keys_mergedMembers]
      simp
  rw [whole, TPCPEnvelope.modelValidate_toJson finite]

/-! ### Merging -/

/-- Timestamp and writer of a record. -/
def Record.stamp (r : Record) : ℤ ×ₗ String := toLex (r.timestamp, r.writerId)

theorem Record.stamp_le_of_rank_le {r s : Record} (below : rank r ≤ rank s) :
    r.stamp ≤ s.stamp := by
  rcases Prod.Lex.le_iff.mp below with less | ⟨same, inner⟩
  · exact Prod.Lex.le_iff.mpr (.inl less)
  · refine Prod.Lex.le_iff.mpr (.inr ⟨same, ?_⟩)
    rcases Prod.Lex.le_iff.mp inner with less | ⟨same, -⟩
    · exact less.le
    · exact same.le

/-- A register that holds nothing newer takes over the stamp of an offered record. -/
theorem Record.stamp_offer {held : Option Record} {r : Record}
    (older : ∀ s, held = some s → s.stamp ≤ r.stamp) :
    (Register.offer rank held r).stamp = r.stamp := by
  cases held with
  | none => rfl
  | some s =>
    rw [Register.offer]
    split_ifs with newer
    · rfl
    · exact le_antisymm (older s rfl) (stamp_le_of_rank_le (not_lt.mp newer))

/-- Merging records of different keys offers each to the register of its key. -/
theorem LWWMap.merge_records (n : LWWMap) {records : List (String × Record)}
    (distinct : (records.map Prod.fst).Nodup) :
    ∃ n', n.merge (records.map fun item => (item.1, item.2.toJson)) = some n' ∧
      (∀ item ∈ records, n'.state.get? item.1 =
        some (Register.offer Record.rank (n.state.get? item.1) item.2)) ∧
      ∀ key ∉ records.map Prod.fst, n'.state.get? key = n.state.get? key := by
  induction records generalizing n with
  | nil => exact ⟨n, rfl, List.forall_mem_nil _, fun _ _ => rfl⟩
  | cons item records ih =>
    obtain ⟨key, r⟩ := item
    obtain ⟨absent, distinct⟩ := List.nodup_cons.mp distinct
    obtain ⟨n', merged, stored, others⟩ :=
      ih (n.set key r.value (some r.timestamp) (some r.writerId)) distinct
    refine ⟨n', merged, List.forall_mem_cons.mpr ⟨?_, fun item member => ?_⟩, fun other ne => ?_⟩
    · rw [others key absent, get?_set, if_pos rfl]
      rfl
    · have named : item.1 ∈ records.map Prod.fst := List.mem_map_of_mem member
      have ne : item.1 ≠ key := fun same => absent (same ▸ named)
      rw [stored item member, get?_set, if_neg ne]
    · rw [List.map_cons, List.mem_cons, not_or] at ne
      obtain ⟨ne, rest⟩ := ne
      rw [others other rest, get?_set, if_neg ne]

/-- The state has survived in a memory that held other records before: the record of each
key has its timestamp and writer, unless a newer one was there. -/
def ObjectMap.SurvivesIn (m : ObjectMap) (held merged : LWWMap) : Prop :=
  ∀ key r, m.state.get? key = some r →
    (∀ s, held.state.get? key = some s → s.stamp ≤ toLex (r.timestamp, r.writerId)) →
      (merged.state.get? key).map Record.stamp = some (toLex (r.timestamp, r.writerId))

/-- Every state that is accepted survives. -/
theorem ObjectMap.survives_handleStateSync (m : ObjectMap) (vectorClock : Dict String ℤ)
    {memory : SharedMemory Unit} {held : LWWMap}
    (represents : SharedMemory.Represents memory held) :
    ∃ memory' merged,
      memory.handleStateSync inMemory (.crdtSync (m.received vectorClock)) = (memory', none) ∧
        SharedMemory.Represents memory' merged ∧ m.SurvivesIn held merged := by
  let records := m.state.items.map fun item => (item.1, item.2.received)
  have distinct : (records.map Prod.fst).Nodup := by
    rw [List.map_map]
    exact m.state.nodupKeys
  obtain ⟨merged, eq, stored, -⟩ := held.merge_records distinct
  obtain ⟨memory', done, represents'⟩ := represents.mergeItems eq
  have items : records.map (fun item => (item.1, item.2.toJson)) =
      (m.state.map fun r => r.received.toJson).items := List.map_map
  refine ⟨memory', merged, ?_, represents', fun key r present older => ?_⟩
  · rw [SharedMemory.handleStateSync, received]
    rw [items] at done
    exact done
  · have member := List.mem_map_of_mem (f := fun item => (item.1, item.2.received))
      (Dict.get?_eq_some_iff.mp present)
    rw [stored _ member, Option.map_some]
    exact congrArg some (Record.stamp_offer older)

/-! ### Acceptance -/

/-- A node that has a sender registered with a key. -/
def TPCPNode.Knows {M : Type} (n : TPCPNode M) (sender : UUID) (publicKey : String) : Prop :=
  ∃ peer address, n.peerRegistry.get? sender = some (peer, address) ∧ peer.publicKey = publicKey

/-- A node that knows the sender checks the signature with its key. -/
theorem TPCPNode.Knows.authenticate_iff {M : Type} {n : TPCPNode M} {e : TPCPEnvelope}
    {publicKey signature : String} {verify : Verifier} (knows : n.Knows e.header.senderId publicKey)
    (checked : e.header.intent ≠ .handshake) (signed : e.signature? = some signature) :
    n.authenticate verify e = .ok () ↔ TPCPNode.verifies verify publicKey signature e = true := by
  obtain ⟨peer, address, registered, rfl⟩ := knows
  refine ⟨fun authentic => ?_, authenticate_of_verifies registered signed⟩
  obtain ⟨peer', address', signature', registered', signed', verified⟩ :=
    authenticate_ok authentic checked
  obtain rfl := Option.some.inj (signed.symm.trans signed')
  obtain ⟨rfl, -⟩ := Prod.mk.inj (Option.some.inj (registered.symm.trans registered'))
  exact verified

/-- A node that knows a sender and nothing else. -/
def TPCPNode.knowing {M : Type} (sender : UUID) (publicKey : String) (memory : M) : TPCPNode M :=
  (TPCPNode.init ⟨UUID.nil, "", [], "", []⟩ false none memory).registerPeer
    ⟨sender, "", [], publicKey, []⟩ ""

theorem TPCPNode.knows_knowing {M : Type} (sender : UUID) (publicKey : String) (memory : M) :
    (TPCPNode.knowing sender publicKey memory).Knows sender publicKey :=
  ⟨_, _, Dict.get?_set_self _ _ _, rfl⟩

theorem SharedMemory.represents_init (nodeId : String) :
    Represents (init nodeId ()) (LWWMap.init nodeId) := ⟨rfl, rfl, fun _ => rfl⟩

/-- A receiver reads the frame. Every node that knows the sender takes it as authentic, and
the state survives in its memory. -/
def ObjectMap.Survives (m : ObjectMap) (ambient : Ambient) (verify : Verifier)
    (publicKey : String) (frame : Json) : Prop :=
  ∃ e, TPCPEnvelope.modelValidate ambient frame.merged = .ok e ∧
    ∀ (n : TPCPNode (SharedMemory Unit)) (held : LWWMap),
      n.Knows e.header.senderId publicKey → SharedMemory.Represents n.memory held →
        n.authenticate verify e = .ok () ∧
          ∃ memory merged, n.memory.handleStateSync inMemory e.payload = (memory, none) ∧
            SharedMemory.Represents memory merged ∧ m.SurvivesIn held merged

namespace ObjectMap

variable {M : Type} {sorted : KeySort} {m : ObjectMap} {n : TPCPNode M} {sender reader : Ambient}
  {target : UUID} {vectorClock : Dict String ℤ} {v : Json}

/-- The bytes that are signed for a payload whose text is that of a value. -/
theorem signed_eq_canonical_iff {w : Json} :
    utf8 (String.ofList (JsonText.render JsonText.compactStyle v)) = canonical w ↔
      v = w.sortKeys := by
  rw [canonical, JsonText.dumpsSorted, utf8_injective.eq_iff, String.ofList_inj]
  exact ⟨fun same => JsonText.render_injective same, fun same => by rw [same]⟩

/-- A signed frame survives exactly if the signature is one for what is read. -/
theorem survives_signed_iff {ed : Ed25519} {key : ed.PrivateKey}
    (dumped : (m.payload vectorClock).dumps sorted = some v) :
    (∀ frame, m.sendState sorted (ed.sign key) n sender target vectorClock = some frame →
      m.Survives reader ed.verify (getPublicKeyString (ed.publicBytes key)) frame) ↔
        ed.verify (ed.publicBytes key)
          (ed.sign key (utf8 (String.ofList (JsonText.render JsonText.compactStyle v))))
          (canonical (Payload.crdtSync (m.received vectorClock)).modelDump) = true := by
  let signature := Base64.encode
    (ed.sign key (utf8 (String.ofList (JsonText.render JsonText.compactStyle v))))
  let header := n.createHeader sender target .stateSync
  have sent : m.sendState sorted (ed.sign key) n sender target vectorClock =
      some (objectFrame header (m.payload vectorClock) signature) := by
    rw [sendState, AgentIdentityManager.signObject, dumped]
    rfl
  have parsed := modelValidate_objectFrame reader m vectorClock header signature
  have here : (m.envelope vectorClock header signature).signature? = some signature :=
    TPCPNode.signature?_eq_some rfl (Base64.encode_ne_empty (ed.sign_ne_nil key _))
  have verifies : TPCPNode.verifies ed.verify (getPublicKeyString (ed.publicBytes key)) signature
      (m.envelope vectorClock header signature) = _ :=
    AgentIdentityManager.verifyBytes_encode (ed.length_publicBytes key)
  have checked : (m.envelope vectorClock header signature).header.intent ≠ .handshake := by
    intro same
    cases same
  constructor
  · intro survives
    obtain ⟨e, parsed', accepted⟩ := survives _ sent
    obtain rfl := Except.ok.inj (parsed.symm.trans parsed')
    have knows := TPCPNode.knows_knowing header.senderId
      (getPublicKeyString (ed.publicBytes key)) (SharedMemory.init "" ())
    have authentic := (accepted _ _ knows (SharedMemory.represents_init "")).1
    exact verifies.symm.trans ((knows.authenticate_iff checked here).mp authentic)
  · intro verified frame sent'
    obtain rfl := Option.some.inj (sent.symm.trans sent')
    refine ⟨_, parsed, fun n held knows represents => ⟨?_, ?_⟩⟩
    · exact (knows.authenticate_iff checked here).mpr (verifies.trans verified)
    · exact m.survives_handleStateSync vectorClock represents

/-- A state that can be signed survives, in every scheme of signatures, exactly if its values
are portable. -/
theorem survives_iff (signable : ((m.payload vectorClock).dumps sorted).isSome) :
    (∀ (ed : Ed25519) (key : ed.PrivateKey) (frame : Json),
      m.sendState sorted (ed.sign key) n sender target vectorClock = some frame →
        m.Survives reader ed.verify (getPublicKeyString (ed.publicBytes key)) frame) ↔
      ∀ item ∈ m.state.items, item.2.value.object.Portable := by
  obtain ⟨v, dumped⟩ := Option.isSome_iff_exists.mp signable
  have portable : v = (Payload.crdtSync (m.received vectorClock)).modelDump.sortKeys ↔
      ∀ item ∈ m.state.items, item.2.value.object.Portable := by
    rw [← merged_emit_payload, ← portable_payload_iff m vectorClock]
    exact PyObject.dumps_eq_iff _ (m.proper_payload vectorClock) dumped
  rw [← portable, ← signed_eq_canonical_iff]
  constructor
  · intro all
    -- In this scheme a signature stands for no other bytes.
    let key : transparent.PrivateKey := ⟨List.replicate 32 0, List.length_replicate⟩
    have verified := (survives_signed_iff dumped).mp (all transparent key)
    exact List.append_cancel_left (of_decide_eq_true verified)
  · intro same ed key
    refine (survives_signed_iff dumped).mpr ?_
    rw [← same]
    exact ed.verify_sign key _

/-! ### Filled maps -/

/-- The map that local writes fill. -/
def filled (sorted : KeySort) (nodeId : String) (writes : List (String × PyData)) : ObjectMap :=
  ((init nodeId).setAll sorted writes).get
    (Option.isSome_iff_exists.mpr
      (((current_init nodeId).setAll writes).imp fun _ stored => stored.1))

/-- The state of a map that local writes have filled survives every sync that can be signed,
exactly if its values are portable. -/
theorem filled_survives_iff (sorted : KeySort) (nodeId : String)
    (writes : List (String × PyData)) (n : TPCPNode M) (sender reader : Ambient) (target : UUID)
    (vectorClock : Dict String ℤ)
    (signable : (((filled sorted nodeId writes).payload vectorClock).dumps sorted).isSome) :
    (∀ (ed : Ed25519) (key : ed.PrivateKey) (frame : Json),
      (filled sorted nodeId writes).sendState sorted (ed.sign key) n sender target vectorClock =
          some frame →
        (filled sorted nodeId writes).Survives reader ed.verify
          (getPublicKeyString (ed.publicBytes key)) frame) ↔
      ∀ item ∈ (filled sorted nodeId writes).state.items, item.2.value.object.Portable :=
  survives_iff signable

/-! ### Three dictionaries -/

/-- A node of a new process. -/
def fresh : TPCPNode Unit := TPCPNode.knowing UUID.nil "" ()

/-- Validation of frames in their own form. -/
def strict : Ambient := Ambient.strict UUID.nil ⟨2026, 1, 2, 3, 4, 5, 0, by decide⟩

/-- Numbered steps, with a tuple. -/
def plan : PyData where
  object := .dict
    [(.number (.int 1), .tuple [.float (.ofInt 2), .none]), (.number (.int 2), .str "b")]
  proper := by
    simp [PyObject.Proper, PyObject.ProperMembers, PyObject.ProperItems, PyKey.differs,
      PyNumber.eq, PyNumber.value, Number.eq]

/-- The names of these keys are in the other order. -/
def scores : PyData where
  object := .dict [(.number (.int 2), .str "b"), (.number (.int 10), .str "j")]
  proper := by
    simp [PyObject.Proper, PyObject.ProperMembers, PyKey.differs, PyNumber.eq, PyNumber.value,
      Number.eq]

/-- Not-a-number. -/
def unknown : PyData := ⟨.float .nan, trivial⟩

/-- A dictionary with the key `None`. -/
def unnamed : PyData := ⟨.dict [(.none, .int 1)], by simp [PyObject.Proper, PyObject.ProperMembers]⟩

theorem portable_plan : plan.object.Portable := by
  refine ⟨by simp [PyKey.Plain], ?_, ⟨⟨_, rfl⟩, trivial, trivial⟩, trivial, trivial⟩
  refine List.pairwise_pair.mpr (.inl ⟨?_, by decide⟩)
  simp [PyKey.lt?, PyNumber.gt_int]

theorem not_portable_scores : ¬ scores.object.Portable := by
  intro portable
  rcases List.pairwise_pair.mp portable.2.1 with ⟨-, names⟩ | ⟨above, -⟩
  · exact absurd names (by decide)
  · exact absurd above (by simp [PyKey.lt?, PyNumber.gt_int])

theorem filled_survives_iff_plan :
    (∀ (ed : Ed25519) (key : ed.PrivateKey) (frame : Json),
      (filled .byRank "a" [("plan", scores), ("plan", plan)]).sendState .byRank (ed.sign key)
          fresh strict UUID.nil Dict.empty = some frame →
        (filled .byRank "a" [("plan", scores), ("plan", plan)]).Survives strict ed.verify
          (getPublicKeyString (ed.publicBytes key)) frame) ∧ plan.object.Portable := by
  refine ⟨(filled_survives_iff .byRank "a" [("plan", scores), ("plan", plan)] fresh strict strict
    UUID.nil Dict.empty ?_).mpr ?_, portable_plan⟩
  · decide
  · have items : (filled .byRank "a" [("plan", scores), ("plan", plan)]).state.items =
        [("plan", ⟨plan, 2, "a"⟩)] := rfl
    rw [items, List.forall_mem_singleton]
    exact portable_plan

/-- If the state of a map with one value can be signed, it survives. -/
def Arrives (value : PyData) : Prop :=
  (((filled .byRank "a" [("k", value)]).payload Dict.empty).dumps .byRank).isSome →
    ∀ (ed : Ed25519) (key : ed.PrivateKey) (frame : Json),
      (filled .byRank "a" [("k", value)]).sendState .byRank (ed.sign key) fresh strict UUID.nil
          Dict.empty = some frame →
        (filled .byRank "a" [("k", value)]).Survives strict ed.verify
          (getPublicKeyString (ed.publicBytes key)) frame

theorem Arrives.portable {value : PyData} (arrives : Arrives value)
    (signable : (((filled .byRank "a" [("k", value)]).payload Dict.empty).dumps .byRank).isSome) :
    value.object.Portable := by
  have portable := (survives_iff signable).mp (arrives signable)
  have items : (filled .byRank "a" [("k", value)]).state.items = [("k", ⟨value, 1, "a"⟩)] := rfl
  rw [items, List.forall_mem_singleton] at portable
  exact portable

/-- Keys in the other order than their names, not-a-number, and the key `None`. -/
theorem not_arrives : ¬ Arrives scores ∧ ¬ Arrives unknown ∧ ¬ Arrives unnamed := by
  refine ⟨fun arrives => ?_, fun arrives => ?_, fun arrives => ?_⟩
  · exact not_portable_scores (arrives.portable (by decide))
  · obtain ⟨b, finite⟩ := arrives.portable (by decide)
    cases finite
  · exact (arrives.portable (by decide)).1 .none List.mem_cons_self

end ObjectMap

end AgentTelepathy
