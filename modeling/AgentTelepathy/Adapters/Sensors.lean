import AgentTelepathy.Foundation.JsonRead
import AgentTelepathy.Foundation.Scalar
import AgentTelepathy.Memory.Streams
import AgentTelepathy.Schemas.Envelope

/-!
# Sensor bridges

The adapters for ROS 2, MQTT and Home Assistant turn each reading into a
`CRDTSyncPayload` with one record. The ROS 2 adapter stamps every record with `1` and
has one key. The other two stamp with the wall clock in milliseconds; the key of an
MQTT topic has `_` for each `/`, and the key of an entity is its id.
-/

namespace AgentTelepathy

open Foundation

/-- What the adapters keep: the id of their agent and their logical clock. -/
structure Bridge where
  agentId : UUID
  logicalClock : ℤ

namespace Bridge

/-- `str(self.identity.agent_id)`. -/
def writerId (b : Bridge) : String := b.agentId.toText

/-- `_tick()`. -/
def tick (b : Bridge) : Bridge := { b with logicalClock := b.logicalClock + 1 }

/-- The payload with one record that an adapter packs. -/
def packRecord (b : Bridge) (key : String) (value : Json) (timestamp : ℤ) :
    Bridge × CRDTSyncPayload :=
  let b := b.tick
  (b,
    { crdtType := "LWW-Map"
      state := Dict.ofItems [(key, Record.toJson ⟨value, timestamp, b.writerId⟩)]
      vectorClock := Dict.ofItems [(b.writerId, b.logicalClock)] })

/-- The payloads of messages, each packed by an adapter, which may ignore it. -/
def payloads {M : Type*} (pack : Bridge → M → Bridge × Option CRDTSyncPayload) :
    Bridge → List M → List CRDTSyncPayload
  | _, [] => []
  | b, message :: messages =>
    (pack b message).2.toList ++ payloads pack (pack b message).1 messages

/-- A new map after the states of payloads are merged in order. -/
def merged (nodeId : String) (payloads : List CRDTSyncPayload) : Option LWWMap :=
  payloads.foldlM (fun m p => m.merge p.state.items) (LWWMap.init nodeId)

end Bridge

namespace ROS2Adapter

/-- `_handle_ros_telemetry(msg)`: what is not JSON is ignored. -/
def handleRosTelemetry (b : Bridge) (data : String) : Bridge × Option CRDTSyncPayload :=
  match JsonText.loads data with
  | some telemetryData =>
    let (b, payload) := b.packRecord "robot_telemetry" telemetryData 1
    (b, some payload)
  | none => (b, none)

/-- The one key. -/
def key (_ : Unit) : String := "robot_telemetry"

/-- What a message reads. -/
def reading? (data : String) : Option (Reading Unit) :=
  (JsonText.loads data).map fun value => ⟨(), value, 1⟩

end ROS2Adapter

namespace MQTTAdapter

/-- A message with the time at which it is packed, in nanoseconds. -/
structure Message where
  topic : String
  payload : String
  timeNs : ℤ

/-- `f"mqtt_{topic.replace('/', '_')}"`. -/
def key (topic : String) : String :=
  "mqtt_" ++ String.ofList (topic.toList.map fun c => if c = '/' then '_' else c)

/-- What a message reads: JSON, or else text. -/
def reading (message : Message) : Reading String :=
  ⟨message.topic, (JsonText.loads message.payload).getD (.str message.payload),
    message.timeNs / 1000000⟩

/-- `pack_thought(raw_output)`. -/
def packThought (b : Bridge) (message : Message) : Bridge × Option CRDTSyncPayload :=
  let value := (JsonText.loads message.payload).getD (.str message.payload)
  let (b, payload) := b.packRecord (key message.topic) value (message.timeNs / 1000000)
  (b, some payload)

end MQTTAdapter

namespace HomeAssistantAdapter

/-- A change of state of an entity, with the time at which it is packed. -/
structure StateChange where
  entityId : String
  newState : Json
  timeNs : ℤ

/-- `f"ha_{entity_id}"`. -/
def key (entityId : String) : String := "ha_" ++ entityId

/-- `pack_thought(raw_output)`: nothing is packed if the new state is no dictionary. -/
def packThought (b : Bridge) (change : StateChange) : Bridge × Option CRDTSyncPayload :=
  match change.newState.getD "state" .null with
  | some value =>
    let (b, payload) := b.packRecord (key change.entityId) value (change.timeNs / 1000000)
    (b, some payload)
  | none => (b, none)

/-- What a change reads. -/
def reading? (change : StateChange) : Option (Reading String) :=
  (change.newState.getD "state" .null).map fun value =>
    ⟨change.entityId, value, change.timeNs / 1000000⟩

end HomeAssistantAdapter

/-! ### What is packed is what is read -/

namespace Bridge

variable {M σ : Type*} {pack : Bridge → M → Bridge × Option CRDTSyncPayload} {key : σ → String}
  {read : M → Option (Reading σ)}

/-- An adapter packs the record of what it reads. -/
def Packs (pack : Bridge → M → Bridge × Option CRDTSyncPayload) (key : σ → String)
    (read : M → Option (Reading σ)) : Prop :=
  ∀ b message, (pack b message).1.agentId = b.agentId ∧
    (pack b message).2.map (fun p => p.state.items) =
      (read message).map fun r => [(key r.source, (r.record b.writerId).toJson)]

theorem merge_singleton (m : LWWMap) (r : Reading σ) (writerId : String) :
    m.merge [(key r.source, (r.record writerId).toJson)] = some (r.store key writerId m) := rfl

/-- Merging what an adapter packs stores what it reads. -/
theorem merged_payloads (packs : Packs pack key read) (b : Bridge) (nodeId : String)
    (messages : List M) :
    merged nodeId (payloads pack b messages) =
      some (Reading.shown key b.writerId nodeId (messages.filterMap read)) := by
  have all : ∀ (b : Bridge) (m : LWWMap),
      (payloads pack b messages).foldlM (fun m p => m.merge p.state.items) m =
        some (Reading.storeAll key b.writerId m (messages.filterMap read)) := by
    induction messages with
    | nil => exact fun b m => rfl
    | cons message messages ih =>
      intro b m
      obtain ⟨agent, items⟩ := packs b message
      have writer : (pack b message).1.writerId = b.writerId := congrArg UUID.toText agent
      rw [payloads]
      cases packed : (pack b message).2 with
      | none =>
        rw [packed] at items
        have unread : read message = none := Option.map_eq_none_iff.mp items.symm
        rw [List.filterMap_cons_none unread, Option.toList_none, List.nil_append, ih, writer]
      | some payload =>
        rw [packed, Option.map_some] at items
        obtain ⟨r, reads, same⟩ := Option.map_eq_some_iff.mp items.symm
        rw [List.filterMap_cons_some reads, Option.toList_some, List.singleton_append,
          List.foldlM_cons, ← same, merge_singleton]
        exact (ih _ _).trans (by rw [writer]; rfl)
  exact all b (LWWMap.init nodeId)

theorem packs_ros2 : Packs ROS2Adapter.handleRosTelemetry ROS2Adapter.key ROS2Adapter.reading? := by
  intro b data
  unfold ROS2Adapter.handleRosTelemetry ROS2Adapter.reading?
  cases JsonText.loads data with
  | none => exact ⟨rfl, rfl⟩
  | some value => exact ⟨rfl, rfl⟩

theorem packs_mqtt :
    Packs MQTTAdapter.packThought MQTTAdapter.key fun message =>
      some (MQTTAdapter.reading message) :=
  fun _ _ => ⟨rfl, rfl⟩

theorem packs_homeAssistant :
    Packs HomeAssistantAdapter.packThought HomeAssistantAdapter.key
      HomeAssistantAdapter.reading? := by
  intro b change
  unfold HomeAssistantAdapter.packThought HomeAssistantAdapter.reading?
  cases change.newState.getD "state" .null with
  | none => exact ⟨rfl, rfl⟩
  | some value => exact ⟨rfl, rfl⟩

/-! ### When the latest readings are shown -/

theorem haKey_injective {s t : String}
    (same : HomeAssistantAdapter.key s = HomeAssistantAdapter.key t) : s = t :=
  (String.append_right_inj _).mp same

/-- Millisecond stamps follow the clock. -/
theorem ordered_filterMap {σ M : Type*} {read : M → Option (Reading σ)} {timeNs : M → ℤ}
    {messages : List M} (stamps : ∀ x r, read x = some r → r.stamp = timeNs x / 1000000)
    (clock : messages.Pairwise fun x y => timeNs x ≤ timeNs y) :
    (messages.filterMap read).Pairwise fun q r => q.stamp ≤ r.stamp := by
  rw [List.pairwise_filterMap]
  refine clock.imp fun {x y} le q readsX r readsY => ?_
  rw [stamps x q readsX, stamps y r readsY]
  exact Int.ediv_le_ediv (by decide) le

/-- With one source and one stamp, the last reading must have the greatest text of all. -/
theorem clear_ros2_iff {readings : List (Reading Unit)} (stamps : ∀ r ∈ readings, r.stamp = 1) :
    Reading.Clear ROS2Adapter.key readings ↔ ∀ before r, readings = before ++ [r] →
      ∀ q ∈ before, Record.dumps q.value ≤ Record.dumps r.value := by
  constructor
  · intro clear before r split q member
    have here : q ∈ readings := split ▸ List.mem_append_left _ member
    have last : r ∈ readings := split ▸ List.mem_append_right _ (List.mem_singleton.mpr rfl)
    exact clear.decided before r [] split nofun q member rfl
      ((stamps q here).trans (stamps r last).symm)
  · intro greatest
    refine ⟨fun _ _ _ _ _ => rfl, fun before r after split latest q member _ _ => ?_⟩
    cases after with
    | nil => exact greatest before r split q member
    | cons p after => exact absurd rfl (latest p List.mem_cons_self)

/-- Entities have keys of their own. -/
theorem clear_homeAssistant_iff {readings : List (Reading String)} :
    Reading.Clear HomeAssistantAdapter.key readings ↔
      ∀ before r after, readings = before ++ r :: after → (∀ q ∈ after, q.source ≠ r.source) →
        ∀ q ∈ before, q.source = r.source → q.stamp = r.stamp →
          Record.dumps q.value ≤ Record.dumps r.value :=
  ⟨fun clear => clear.decided, fun decided => ⟨fun _ _ _ _ same => haKey_injective same, decided⟩⟩

/-- For each adapter and every sequence of messages, with a clock that does not go back:
merging what is packed shows the latest reading of each source, and leaves the entries
of other sources alone, exactly when the sources have keys of their own and the latest
reading of each has the greatest text among those with its stamp. -/
theorem sensors_faithful_iff (b : Bridge) (nodeId : String) :
    (∀ messages : List String,
      ∃ readings, readings = messages.filterMap ROS2Adapter.reading? ∧
        merged nodeId (payloads ROS2Adapter.handleRosTelemetry b messages) =
          some (Reading.shown ROS2Adapter.key b.writerId nodeId readings) ∧
        (Reading.Faithful ROS2Adapter.key b.writerId nodeId readings ↔
          ∀ before r, readings = before ++ [r] →
            ∀ q ∈ before, Record.dumps q.value ≤ Record.dumps r.value)) ∧
    (∀ messages : List MQTTAdapter.Message,
      (messages.Pairwise fun x y => x.timeNs ≤ y.timeNs) →
      ∃ readings, readings = messages.map MQTTAdapter.reading ∧
        merged nodeId (payloads MQTTAdapter.packThought b messages) =
          some (Reading.shown MQTTAdapter.key b.writerId nodeId readings) ∧
        (Reading.Faithful MQTTAdapter.key b.writerId nodeId readings ↔
          Reading.Clear MQTTAdapter.key readings)) ∧
    ∀ messages : List HomeAssistantAdapter.StateChange,
      (messages.Pairwise fun x y => x.timeNs ≤ y.timeNs) →
      ∃ readings, readings = messages.filterMap HomeAssistantAdapter.reading? ∧
        merged nodeId (payloads HomeAssistantAdapter.packThought b messages) =
          some (Reading.shown HomeAssistantAdapter.key b.writerId nodeId readings) ∧
        (Reading.Faithful HomeAssistantAdapter.key b.writerId nodeId readings ↔
          ∀ before r after, readings = before ++ r :: after →
            (∀ q ∈ after, q.source ≠ r.source) →
            ∀ q ∈ before, q.source = r.source → q.stamp = r.stamp →
              Record.dumps q.value ≤ Record.dumps r.value) := by
  refine ⟨fun messages => ⟨_, rfl, merged_payloads packs_ros2 b nodeId messages, ?_⟩,
    fun messages clock => ⟨_, rfl, ?_, ?_⟩,
    fun messages clock => ⟨_, rfl, merged_payloads packs_homeAssistant b nodeId messages, ?_⟩⟩
  · have stamps : ∀ r ∈ messages.filterMap ROS2Adapter.reading?, r.stamp = 1 := by
      intro r member
      obtain ⟨data, -, reads⟩ := List.mem_filterMap.mp member
      obtain ⟨value, -, rfl⟩ := Option.map_eq_some_iff.mp reads
      rfl
    have ordered : (messages.filterMap ROS2Adapter.reading?).Pairwise
        fun q r => q.stamp ≤ r.stamp :=
      List.pairwise_of_forall_mem_list fun q first r second =>
        ((stamps q first).trans (stamps r second).symm).le
    rw [Reading.faithful_iff ordered, clear_ros2_iff stamps]
  · have packed := merged_payloads packs_mqtt b nodeId messages
    rwa [← Function.comp_def, List.filterMap_eq_map] at packed
  · have ordered : (messages.filterMap fun message => some (MQTTAdapter.reading message)).Pairwise
        fun q r => q.stamp ≤ r.stamp := by
      refine ordered_filterMap (fun message r reads => ?_) clock
      cases reads
      rfl
    rw [← Function.comp_def, List.filterMap_eq_map] at ordered
    exact Reading.faithful_iff ordered nodeId
  · have stamps : ∀ change r, HomeAssistantAdapter.reading? change = some r →
        r.stamp = change.timeNs / 1000000 := by
      intro change r reads
      obtain ⟨value, -, rfl⟩ := Option.map_eq_some_iff.mp reads
      rfl
    rw [Reading.faithful_iff (ordered_filterMap stamps clock), clear_homeAssistant_iff]

/-- Two topics with keys of their own, one of which has two readings. -/
def topics : List MQTTAdapter.Message :=
  [⟨"line/1", "20", 5000000⟩, ⟨"line/2", "ready", 5000000⟩, ⟨"line/1", "3", 5900000⟩]

theorem sensors_faithful_iff_topics :
    Reading.Faithful MQTTAdapter.key (UUID.nil.toText) "a" (topics.map MQTTAdapter.reading) := by
  obtain ⟨readings, same, -, faithful⟩ := (sensors_faithful_iff ⟨UUID.nil, 0⟩ "a").2.1 topics
    (by decide)
  subst same
  exact faithful.mpr (Reading.clear_of_pairwise (by decide +kernel) (by decide +kernel))

/-- In the same millisecond, or with one constant stamp, a reading loses to an earlier one
of greater text; and two topics can have one key. -/
theorem sensors_not_faithful :
    (¬ ∀ messages : List String, Reading.Faithful ROS2Adapter.key (UUID.nil.toText) "a"
      (messages.filterMap ROS2Adapter.reading?)) ∧
    (¬ ∀ messages : List MQTTAdapter.Message,
      (messages.Pairwise fun x y => x.timeNs ≤ y.timeNs) →
      Reading.Faithful MQTTAdapter.key (UUID.nil.toText) "a"
        (messages.map MQTTAdapter.reading)) ∧
    ¬ ∀ messages : List HomeAssistantAdapter.StateChange,
      (messages.Pairwise fun x y => x.timeNs ≤ y.timeNs) →
      Reading.Faithful HomeAssistantAdapter.key (UUID.nil.toText) "a"
        (messages.filterMap HomeAssistantAdapter.reading?) := by
  refine ⟨fun faithful => ?_, fun faithful => ?_, fun faithful => ?_⟩
  · obtain ⟨v, shown, same⟩ := (faithful ["3", "20"]).latest [⟨(), .int 3, 1⟩] ⟨(), .int 20, 1⟩ []
      (by decide +kernel) nofun
    have earlier : (Reading.shown ROS2Adapter.key (UUID.nil.toText) "a"
        (["3", "20"].filterMap ROS2Adapter.reading?)).get "robot_telemetry" = some (.int 3) := by
      decide +kernel
    obtain rfl := Option.some.inj (earlier.symm.trans shown)
    exact absurd same (by decide)
  · have same := (faithful [⟨"a/b", "1", 0⟩, ⟨"a_b", "2", 0⟩] (by decide)).injective
      (q := ⟨"a/b", .int 1, 0⟩) (r := ⟨"a_b", .int 2, 0⟩) (by decide +kernel) (by decide +kernel)
      (by decide +kernel)
    exact absurd same (by decide)
  · obtain ⟨v, shown, same⟩ := (faithful
      [⟨"light", .obj [("state", .str "on")], 0⟩, ⟨"light", .obj [("state", .str "off")], 0⟩]
      (by decide)).latest [⟨"light", .str "on", 0⟩] ⟨"light", .str "off", 0⟩ [] (by decide +kernel)
      nofun
    have earlier : (Reading.shown HomeAssistantAdapter.key (UUID.nil.toText) "a"
        ([⟨"light", .obj [("state", .str "on")], 0⟩,
          ⟨"light", .obj [("state", .str "off")], 0⟩].filterMap
            HomeAssistantAdapter.reading?)).get "ha_light" = some (.str "on") := by
      decide +kernel
    obtain rfl := Option.some.inj (earlier.symm.trans shown)
    exact absurd same (by decide)

end Bridge

end AgentTelepathy
