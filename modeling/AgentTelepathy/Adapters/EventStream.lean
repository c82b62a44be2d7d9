import AgentTelepathy.Adapters.Sensors
import AgentTelepathy.Foundation.Loop
import AgentTelepathy.Security.Crypto

/-!
# The event stream of Home Assistant

The adapter reads the lines of an event stream in a loop, packs each change of state into
an envelope, and calls back with it. Only the whole of a connection is guarded: what one
line raises ends the loop, so the changes on later lines of the connection are lost.
-/

namespace AgentTelepathy

open Foundation

/-! ### Texts -/

namespace PyText

/-- The characters that `str.strip` takes off. -/
def isSpace (c : Char) : Bool :=
  let n := c.toNat
  (9 ≤ n && n ≤ 13) || (28 ≤ n && n ≤ 32) || n = 133 || n = 160 || n = 5760 ||
    (8192 ≤ n && n ≤ 8202) || n = 8232 || n = 8233 || n = 8239 || n = 8287 || n = 12288

/-- `s.strip()`. -/
def strip (s : String) : String :=
  String.ofList ((s.toList.dropWhile isSpace).reverse.dropWhile isSpace).reverse

end PyText

/-- What the standard library does with JSON. A Python string may have unpaired surrogates,
which UTF-8 does not encode, so what is read as which string is left open. -/
structure PyJson where
  /-- `json.loads`; nothing where it raises. -/
  loads : String → Option Json
  /-- `str` of what is not a string. -/
  str : Json → String
  /-- Whether what `json.dumps` makes of a value can be encoded. -/
  encodes : Json → Bool

/-- What an f-string makes of a value. -/
def PyJson.format (py : PyJson) : Json → String
  | .str s => s
  | v => py.str v

/-- The exceptions that end a connection. -/
inductive StreamError
  | unicodeDecodeError
  | jsonDecodeError
  | attributeError
  | valueError
  | runtimeError
deriving DecidableEq

/-- A line that `readline` returns, with the identifier and the times that packing it asks
for, and whether the callback raises if it is called for it. -/
structure StreamLine where
  raw : ByteArray
  uuid4 : UUID
  now : DateTime
  timeNs : ℤ
  callbackRaises : Bool
  nonempty : raw.size ≠ 0

/-- `raw_line.decode('utf-8').strip()`; nothing where decoding raises. -/
def StreamLine.decoded? (line : StreamLine) : Option String :=
  (String.fromUTF8? line.raw).map PyText.strip

/-- An adapter: its agent and clock, and the key of its identity manager if it has one. -/
structure HomeAssistantAdapter where
  bridge : Bridge
  identityManager : Option (Bytes → Bytes)

/-- What became of a line. -/
inductive Fate
  | skipped
  | raised (error : StreamError)
  /-- The callback was called with an envelope. -/
  | invoked (envelope : TPCPEnvelope)
deriving DecidableEq

namespace HomeAssistantAdapter

variable {py : PyJson} {a : HomeAssistantAdapter} {line : StreamLine} {d : Json}

/-- `pack_thought(UUID(int=0), raw_output, Intent.STATE_SYNC)`. The clock ticks before what
the payload and its signature raise. -/
def packEnvelope (py : PyJson) (a : HomeAssistantAdapter) (line : StreamLine) (rawOutput : Json) :
    HomeAssistantAdapter × Except StreamError TPCPEnvelope :=
  match rawOutput.getD "entity_id" (.str "unknown_entity"),
      rawOutput.getD "new_state" (.obj []) with
  | some entityId, some stateData =>
    match packThought a.bridge ⟨py.format entityId, stateData, line.timeNs⟩,
        stateData.getD "state" .null with
    | (bridge, some payload), some value =>
      (⟨bridge, a.identityManager⟩,
        if py.encodes (.str (py.format entityId)) then
          match a.identityManager with
          | none => .error .runtimeError
          | some sign =>
            if py.encodes value then
              .ok
                { header := ⟨line.uuid4, line.now, a.bridge.agentId, UUID.nil, .stateSync, 30,
                    protocolVersion⟩
                  payload := .crdtSync payload
                  signature := some (AgentIdentityManager.signBytes sign
                    (canonical (Payload.crdtSync payload).modelDump))
                  ackInfo := none
                  chunkInfo := none }
            else .error .valueError
        else .error .valueError)
    | _, _ => (a, .error .attributeError)
  | _, _ => (a, .error .attributeError)

/-- The data of the change of state that the text of a data line tells of, if it does. -/
def changeOf (py : PyJson) (rawJson : String) : Except StreamError (Option Json) :=
  match py.loads rawJson with
  | none => .error .jsonDecodeError
  | some event =>
    match event.getD "event_type" .null with
    | none => .error .attributeError
    | some eventType =>
      if eventType = .str "state_changed" then .ok (event.getD "data" (.obj [])) else .ok none

/-- The data of the change of state that a line tells of, if it does. -/
def event? (py : PyJson) (line : StreamLine) : Except StreamError (Option Json) :=
  match line.decoded? with
  | none => .error .unicodeDecodeError
  | some decoded =>
    if "data: ".toList <+: decoded.toList then
      let rawJson := String.ofList (decoded.toList.drop 6)
      if rawJson = "ping" then .ok none else changeOf py rawJson
    else .ok none

/-- One turn of the read loop. An exception leaves the loop, be it of the callback. -/
def turn (py : PyJson) (a : HomeAssistantAdapter) (line : StreamLine) :
    Loop.Turn HomeAssistantAdapter Fate :=
  match event? py line with
  | .error error => ⟨a, .raised error, true⟩
  | .ok none => ⟨a, .skipped, false⟩
  | .ok (some data) =>
    match a.packEnvelope py line data with
    | (a, .error error) => ⟨a, .raised error, true⟩
    | (a, .ok e) => ⟨a, .invoked e, line.callbackRaises⟩

/-- The adapter after one connection, and what became of the lines that it read. The
connection ends when `readline` returns nothing, or with an exception. -/
def readLoop (py : PyJson) (a : HomeAssistantAdapter) (lines : List StreamLine) :
    HomeAssistantAdapter × List Fate := Loop.run (turn py) a lines

/-- What became of the lines of one connection after another: whatever ends a connection,
the adapter connects again. -/
def listen (py : PyJson) : HomeAssistantAdapter → List (List StreamLine) → List (List Fate)
  | _, [] => []
  | a, lines :: connections =>
    (a.readLoop py lines).2 :: listen py (a.readLoop py lines).1 connections

/-! ### Lines -/

/-- A data line that is no ping, with its text. -/
def Carries (line : StreamLine) (rawJson : String) : Prop :=
  line.decoded? = some ("data: " ++ rawJson) ∧ rawJson ≠ "ping"

/-- A line tells of a change of state, with this data. -/
def Changes (py : PyJson) (line : StreamLine) (d : Json) : Prop :=
  ∃ rawJson members, Carries line rawJson ∧ py.loads rawJson = some (.obj members) ∧
    members.lookup "event_type" = some (.str "state_changed") ∧
    (members.lookup "data").getD (.obj []) = d

/-- A well-formed change of state, with an object as the new state. -/
structure StateChanged (py : PyJson) (line : StreamLine) (data state : List (String × Json)) :
    Prop where
  changes : Changes py line (.obj data)
  newState : data.lookup "new_state" = some (.obj state)

/-- The entity of a change of state. -/
def entityOf (py : PyJson) (data : List (String × Json)) : String :=
  py.format ((data.lookup "entity_id").getD (.str "unknown_entity"))

/-- The value of a state. -/
def valueOf (state : List (String × Json)) : Json := (state.lookup "state").getD .null

/-- An object whose new state is an object if there is one, both with texts that can be
encoded. -/
def Packable (py : PyJson) (d : Json) : Prop :=
  ∃ data state, d = .obj data ∧ (data.lookup "new_state").getD (.obj []) = .obj state ∧
    py.encodes (.str (entityOf py data)) = true ∧ py.encodes (valueOf state) = true

/-- The lines after which a connection ends. -/
inductive Ends (py : PyJson) (managed : Bool) (line : StreamLine) : Prop
  | undecodable (raises : line.decoded? = none)
  | malformed (rawJson : String) (carries : Carries line rawJson)
      (raises : py.loads rawJson = none)
  | notObject (rawJson : String) (event : Json) (carries : Carries line rawJson)
      (loaded : py.loads rawJson = some event) (other : ∀ members, event ≠ .obj members)
  | unpacked (d : Json) (changes : Changes py line d)
      (raises : ¬ (Packable py d ∧ managed = true))
  | callback (d : Json) (changes : Changes py line d) (raises : line.callbackRaises = true)

/-- An envelope for everyone, with the new state of the entity in one record. -/
structure Mirrors (py : PyJson) (agentId : UUID) (line : StreamLine)
    (data state : List (String × Json)) (e : TPCPEnvelope) : Prop where
  sender : e.header.senderId = agentId
  receiver : e.header.receiverId = UUID.nil
  intent : e.header.intent = .stateSync
  payload : ∃ p, e.payload = .crdtSync p ∧
    p.state.items = [(key (entityOf py data),
      Record.toJson ⟨valueOf state, line.timeNs / 1000000, agentId.toText⟩)]

theorem Carries.unique {r r' : String} (carries : Carries line r) (carries' : Carries line r') :
    r = r' :=
  (String.append_right_inj _).mp (Option.some.inj (carries.1.symm.trans carries'.1))

theorem Changes.unique {d' : Json} (changes : Changes py line d) (changes' : Changes py line d') :
    d = d' := by
  obtain ⟨r, members, carries, loaded, -, rfl⟩ := changes
  obtain ⟨r', members', carries', loaded', -, rfl⟩ := changes'
  obtain rfl := carries.unique carries'
  cases loaded.symm.trans loaded'
  rfl

/-- After a line with an object a connection ends only for what becomes of a change of
state. -/
theorem ends_iff_of_object {managed : Bool} {rawJson : String} {members : List (String × Json)}
    (carries : Carries line rawJson) (loaded : py.loads rawJson = some (.obj members)) :
    Ends py managed line ↔ ∃ d, Changes py line d ∧
      (Packable py d ∧ managed = true → line.callbackRaises = true) := by
  constructor
  · rintro (raises | ⟨r, carries', raises⟩ | ⟨r, v, carries', loaded', other⟩ |
      ⟨d, changes, raises⟩ | ⟨d, changes, raises⟩)
    · cases carries.1.symm.trans raises
    · obtain rfl := carries.unique carries'
      cases loaded.symm.trans raises
    · obtain rfl := carries.unique carries'
      exact absurd (Option.some.inj (loaded'.symm.trans loaded)) (other members)
    · exact ⟨d, changes, fun able => absurd able raises⟩
    · exact ⟨d, changes, fun _ => raises⟩
  · rintro ⟨d, changes, raises⟩
    by_cases able : Packable py d ∧ managed = true
    · exact .callback d changes (raises able)
    · exact .unpacked d changes able

theorem eq_append_of_front {decoded : String} (front : "data: ".toList <+: decoded.toList) :
    decoded = "data: " ++ String.ofList (decoded.toList.drop 6) := by
  obtain ⟨rest, split⟩ := front
  have dropped : decoded.toList.drop 6 = rest := by
    rw [← split]
    exact List.drop_left' rfl
  rw [dropped]
  apply String.toList_inj.mp
  rw [String.toList_append]
  exact split.symm.trans (congrArg ("data: ".toList ++ ·) String.toList_ofList.symm)

theorem event?_of_carries (py : PyJson) {rawJson : String} (carries : Carries line rawJson) :
    event? py line = changeOf py rawJson := by
  have front : "data: ".toList <+: ("data: " ++ rawJson).toList := by
    rw [String.toList_append]
    exact List.prefix_append _ _
  have rest : String.ofList (("data: " ++ rawJson).toList.drop 6) = rawJson :=
    ((String.append_right_inj _).mp (eq_append_of_front front)).symm
  simp only [event?, carries.1, if_pos front, rest, if_neg carries.2]

theorem event?_of_not_carries {decoded : String} (text : line.decoded? = some decoded)
    (other : ∀ rawJson, ¬ Carries line rawJson) : event? py line = .ok none := by
  simp only [event?, text]
  by_cases front : "data: ".toList <+: decoded.toList
  · have split : line.decoded? = some ("data: " ++ String.ofList (decoded.toList.drop 6)) :=
      text.trans (congrArg some (eq_append_of_front front))
    -- A data line that does not carry a text is a ping.
    rw [if_pos front, if_pos (by_contra fun noPing => other _ ⟨split, noPing⟩)]
  · rw [if_neg front]

theorem event?_of_changes (changes : Changes py line d) : event? py line = .ok (some d) := by
  obtain ⟨rawJson, members, carries, loaded, type, rfl⟩ := changes
  rw [event?_of_carries py carries, changeOf, loaded]
  simp [Json.getD, type]

/-! ### Packing -/

/-- The record and the payload that a change of state comes to. -/
def packed (py : PyJson) (a : HomeAssistantAdapter) (line : StreamLine)
    (data state : List (String × Json)) : Bridge × CRDTSyncPayload :=
  a.bridge.packRecord (key (entityOf py data)) (valueOf state) (line.timeNs / 1000000)

/-- What is no object, or has a new state that is none, is not packed. -/
theorem packEnvelope_of_not_dict
    (other : ∀ data state, d = .obj data →
      (data.lookup "new_state").getD (.obj []) ≠ Json.obj state) :
    a.packEnvelope py line d = (a, .error .attributeError) := by
  cases d with
  | obj data =>
    -- `new_state` has no `get`.
    have stateOther := fun state => other data state rfl
    unfold packEnvelope
    simp only [Json.getD]
    cases found : (data.lookup "new_state").getD (.obj []) with
    | obj state => exact absurd found (stateOther state)
    | _ => rfl
  | _ => rfl

theorem packEnvelope_of_dict (py : PyJson) (a : HomeAssistantAdapter) (line : StreamLine)
    {data state : List (String × Json)}
    (newState : (data.lookup "new_state").getD (.obj []) = Json.obj state) :
    ∃ e, Mirrors py a.bridge.agentId line data state e ∧
      a.packEnvelope py line (.obj data) =
        (⟨(packed py a line data state).1, a.identityManager⟩,
          if py.encodes (.str (entityOf py data)) then
            if a.identityManager.isSome then
              if py.encodes (valueOf state) then .ok e else .error .valueError
            else .error .runtimeError
          else .error .valueError) := by
  refine ⟨{ header := ⟨line.uuid4, line.now, a.bridge.agentId, UUID.nil, .stateSync, 30,
      protocolVersion⟩
            payload := .crdtSync (packed py a line data state).2
            signature := a.identityManager.map fun sign => AgentIdentityManager.signBytes sign
              (canonical (Payload.crdtSync (packed py a line data state).2).modelDump)
            ackInfo := none
            chunkInfo := none }, ⟨rfl, rfl, rfl, _, rfl, rfl⟩, ?_⟩
  unfold packEnvelope
  simp only [Json.getD, newState]
  cases manager : a.identityManager with
  | none => rfl
  | some sign => rfl

/-- An adapter of the same agent, which signs alike. -/
structure SameAgent (a r : HomeAssistantAdapter) : Prop where
  manager : r.identityManager = a.identityManager
  agent : r.bridge.agentId = a.bridge.agentId

theorem SameAgent.trans {b r : HomeAssistantAdapter} (first : SameAgent a b)
    (second : SameAgent b r) : SameAgent a r :=
  ⟨second.manager.trans first.manager, second.agent.trans first.agent⟩

theorem sameAgent_packEnvelope (py : PyJson) (a : HomeAssistantAdapter) (line : StreamLine)
    (d : Json) : SameAgent a (a.packEnvelope py line d).1 := by
  by_cases dict : ∃ data state, d = .obj data ∧
      (data.lookup "new_state").getD (.obj []) = Json.obj state
  · obtain ⟨data, state, rfl, newState⟩ := dict
    obtain ⟨e, -, packs⟩ := packEnvelope_of_dict py a line newState
    rw [packs]
    exact ⟨rfl, rfl⟩
  · rw [packEnvelope_of_not_dict fun data state same newState => dict ⟨data, state, same, newState⟩]
    exact ⟨rfl, rfl⟩

/-- What is packed from objects mirrors them. -/
theorem mirrors_of_packEnvelope {data state : List (String × Json)} {e : TPCPEnvelope}
    (newState : (data.lookup "new_state").getD (.obj []) = Json.obj state)
    (packs : (a.packEnvelope py line (.obj data)).2 = .ok e) :
    Mirrors py a.bridge.agentId line data state e := by
  obtain ⟨e', mirrors, packs'⟩ := packEnvelope_of_dict py a line newState
  rw [packs'] at packs
  dsimp only at packs
  split_ifs at packs
  obtain rfl := Except.ok.inj packs
  exact mirrors

theorem packEnvelope_ok_iff :
    (∃ e, (a.packEnvelope py line d).2 = .ok e) ↔
      Packable py d ∧ a.identityManager.isSome = true := by
  by_cases dict : ∃ data state, d = .obj data ∧
      (data.lookup "new_state").getD (.obj []) = Json.obj state
  · obtain ⟨data, state, rfl, newState⟩ := dict
    obtain ⟨e, -, packs⟩ := packEnvelope_of_dict py a line newState
    have packable : Packable py (.obj data) ↔
        py.encodes (.str (entityOf py data)) = true ∧ py.encodes (valueOf state) = true := by
      constructor
      · rintro ⟨data', state', same, newState', encodes⟩
        cases same
        cases newState.symm.trans newState'
        exact encodes
      · exact fun encodes => ⟨data, state, rfl, newState, encodes⟩
    rw [packs, packable]
    dsimp only
    split_ifs with encodesKey manager encodesValue
    · exact iff_of_true ⟨e, rfl⟩ ⟨⟨encodesKey, encodesValue⟩, manager⟩
    · exact iff_of_false (fun ⟨_, failed⟩ => failed) fun both => encodesValue both.1.2
    · exact iff_of_false (fun ⟨_, failed⟩ => failed) fun both => manager both.2
    · exact iff_of_false (fun ⟨_, failed⟩ => failed) fun both => encodesKey both.1.1
  · rw [packEnvelope_of_not_dict fun data state same newState => dict ⟨data, state, same, newState⟩]
    constructor
    · rintro ⟨e, raised⟩
      cases raised
    · rintro ⟨⟨data, state, same, newState, -⟩, -⟩
      exact absurd ⟨data, state, same, newState⟩ dict

/-! ### Turns -/

theorem sameAgent_turn (py : PyJson) (a : HomeAssistantAdapter) (line : StreamLine) :
    SameAgent a (turn py a line).state := by
  unfold turn
  split
  · exact ⟨rfl, rfl⟩
  · exact ⟨rfl, rfl⟩
  · rename_i data _
    have kept := sameAgent_packEnvelope py a line data
    split
    · rename_i result
      rw [result] at kept
      exact kept
    · rename_i result
      rw [result] at kept
      exact kept

/-- What a turn on a change of state comes to. -/
theorem turn_of_changes (changes : Changes py line d) :
    (∃ e, (a.packEnvelope py line d).2 = .ok e ∧ (turn py a line).note = .invoked e ∧
        (turn py a line).ends = line.callbackRaises) ∨
      (∃ error, (a.packEnvelope py line d).2 = .error error ∧
        (turn py a line).note = .raised error ∧ (turn py a line).ends = true) := by
  simp only [turn, event?_of_changes changes]
  rcases a.packEnvelope py line d with ⟨a', error | e⟩
  · exact .inr ⟨error, rfl, rfl, rfl⟩
  · exact .inl ⟨e, rfl, rfl, rfl⟩

theorem turn_ends_iff_of_changes (changes : Changes py line d) :
    (turn py a line).ends = true ↔
      (Packable py d ∧ a.identityManager.isSome = true → line.callbackRaises = true) := by
  rw [← packEnvelope_ok_iff]
  rcases turn_of_changes (a := a) changes with ⟨e, packs, -, ends⟩ | ⟨error, packs, -, ends⟩
  · rw [ends]
    exact ⟨fun raises _ => raises, fun raises => raises ⟨e, packs⟩⟩
  · -- Packing has raised, so there is no envelope for the callback.
    refine iff_of_true ends ?_
    rintro ⟨e, packs'⟩
    cases packs.symm.trans packs'

/-- A line with an object that tells of no change of state is skipped. -/
theorem turn_of_other_event {rawJson : String} {members : List (String × Json)}
    (carries : Carries line rawJson) (loaded : py.loads rawJson = some (.obj members))
    (other : members.lookup "event_type" ≠ some (.str "state_changed")) :
    turn py a line = ⟨a, .skipped, false⟩ := by
  have otherType : (members.lookup "event_type").getD .null ≠ .str "state_changed" := by
    cases found : members.lookup "event_type" with
    | none => exact Json.noConfusion
    | some eventType => exact fun same => other (found.trans (congrArg some same))
  simp only [turn, event?_of_carries py carries, changeOf, loaded, Json.getD, if_neg otherType]

theorem turn_ends_iff_of_object {rawJson : String} {members : List (String × Json)}
    (carries : Carries line rawJson) (loaded : py.loads rawJson = some (.obj members)) :
    (turn py a line).ends = true ↔ Ends py a.identityManager.isSome line := by
  rw [ends_iff_of_object carries loaded]
  by_cases type : members.lookup "event_type" = some (.str "state_changed")
  · have changes : Changes py line ((members.lookup "data").getD (.obj [])) :=
      ⟨rawJson, members, carries, loaded, type, rfl⟩
    rw [turn_ends_iff_of_changes changes]
    constructor
    · exact fun raises => ⟨_, changes, raises⟩
    · rintro ⟨d, changes', raises⟩
      rwa [changes.unique changes']
  · -- The event is of another type, and has no change of state to it.
    rw [turn_of_other_event carries loaded type]
    refine iff_of_false Bool.false_ne_true ?_
    rintro ⟨d, ⟨r, members', carries', loaded', type', -⟩, -⟩
    obtain rfl := carries.unique carries'
    cases loaded.symm.trans loaded'
    exact type type'

/-- A turn leaves the loop exactly on the lines after which a connection ends. -/
theorem turn_ends_iff (py : PyJson) (a : HomeAssistantAdapter) (line : StreamLine) :
    (turn py a line).ends = true ↔ Ends py a.identityManager.isSome line := by
  cases text : line.decoded? with
  | none =>
    have raises : (turn py a line).ends = true := by simp only [turn, event?, text]
    exact iff_of_true raises (.undecodable text)
  | some decoded =>
    by_cases carries : ∃ rawJson, Carries line rawJson
    · obtain ⟨rawJson, carries⟩ := carries
      have event := event?_of_carries py carries
      cases loaded : py.loads rawJson with
      | none =>
        have raises : (turn py a line).ends = true := by
          simp only [turn, event, changeOf, loaded]
        exact iff_of_true raises (.malformed rawJson carries loaded)
      | some value =>
        cases value with
        | obj members => exact turn_ends_iff_of_object carries loaded
        | null | bool | int | float | str | arr =>
          have raises : (turn py a line).ends = true := by
            simp only [turn, event, changeOf, loaded, Json.getD]
          exact iff_of_true raises (.notObject rawJson _ carries loaded fun _ => Json.noConfusion)
    · -- No text, or a ping.
      have skips : (turn py a line).ends = false := by
        simp only [turn, event?_of_not_carries text fun r h => carries ⟨r, h⟩]
      refine iff_of_false (by simp [skips]) ?_
      rintro (raises | ⟨r, h⟩ | ⟨r, -, h⟩ | ⟨-, ⟨r, -, h, -⟩⟩ | ⟨-, ⟨r, -, h, -⟩⟩)
      · exact absurd (text.symm.trans raises) (Option.some_ne_none decoded)
      all_goals exact carries ⟨r, h⟩

/-- A change of state is shown by the envelope that the callback is called with. -/
def Shown (py : PyJson) (agentId : UUID) (line : StreamLine) (fate : Fate) : Prop :=
  ∃ data state e, StateChanged py line data state ∧ fate = .invoked e ∧
    Mirrors py agentId line data state e

/-- The adapter can sign, and the texts of the change of state can be encoded. -/
def Sendable (py : PyJson) (managed : Bool) (line : StreamLine) : Prop :=
  managed = true ∧ ∀ data state, StateChanged py line data state →
    py.encodes (.str (entityOf py data)) = true ∧ py.encodes (valueOf state) = true

theorem StateChanged.newState_eq {data state : List (String × Json)}
    (changed : StateChanged py line data state) :
    (data.lookup "new_state").getD (.obj []) = Json.obj state := by
  rw [changed.newState, Option.getD_some]

theorem StateChanged.unique {data state data' state' : List (String × Json)}
    (changed : StateChanged py line data state) (changed' : StateChanged py line data' state') :
    data = data' ∧ state = state' := by
  cases changed.changes.unique changed'.changes
  cases changed.newState.symm.trans changed'.newState
  exact ⟨rfl, rfl⟩

theorem StateChanged.sendable_iff {managed : Bool} {data state : List (String × Json)}
    (changed : StateChanged py line data state) :
    Sendable py managed line ↔ Packable py (.obj data) ∧ managed = true := by
  constructor
  · rintro ⟨signs, encodes⟩
    exact ⟨⟨data, state, rfl, changed.newState_eq, encodes data state changed⟩, signs⟩
  · rintro ⟨⟨data', state', same, newState, encodes⟩, signs⟩
    cases same
    cases changed.newState_eq.symm.trans newState
    refine ⟨signs, fun data' state' changed' => ?_⟩
    obtain ⟨rfl, rfl⟩ := changed.unique changed'
    exact encodes

theorem shown_turn_iff {data state : List (String × Json)}
    (changed : StateChanged py line data state) :
    Shown py a.bridge.agentId line (turn py a line).note ↔
      Sendable py a.identityManager.isSome line := by
  rw [changed.sendable_iff, ← packEnvelope_ok_iff]
  rcases turn_of_changes (a := a) changed.changes with
    ⟨e, packs, note, -⟩ | ⟨error, packs, note, -⟩
  · refine iff_of_true ⟨data, state, e, changed, note, ?_⟩ ⟨e, packs⟩
    exact mirrors_of_packEnvelope changed.newState_eq packs
  · refine iff_of_false ?_ ?_
    · rintro ⟨data', state', e, -, invoked, -⟩
      cases note.symm.trans invoked
    · rintro ⟨e, packs'⟩
      cases packs.symm.trans packs'

/-! ### Connections -/

/-- In one connection the callback is called for every well-formed change of state, once
and in order, exactly if each can be signed and encoded, and none comes after a line that
ends the connection: one that cannot be decoded, a data line that is neither a ping nor an
object, a change of state that cannot be packed, or one on which the callback raises. -/
theorem shown_iff_not_ended (py : PyJson) (a : HomeAssistantAdapter) (lines : List StreamLine) :
    (∀ (i : ℕ) line, lines[i]? = some line → (∃ data state, StateChanged py line data state) →
        ∃ fate, (a.readLoop py lines).2[i]? = some fate ∧ Shown py a.bridge.agentId line fate) ↔
      ∀ (i : ℕ) line, lines[i]? = some line → (∃ data state, StateChanged py line data state) →
        Sendable py a.identityManager.isSome line ∧
          ∀ j earlier, j < i → lines[j]? = some earlier →
            ¬ Ends py a.identityManager.isSome earlier := by
  have start : SameAgent a a := ⟨rfl, rfl⟩
  refine Loop.granted_iff (fun r line kept => kept.trans (sameAgent_turn py r line)) ?_ ?_ start
  · intro r line kept
    rw [turn_ends_iff, kept.manager]
  · rintro r line kept ⟨data, state, changed⟩
    rw [← kept.manager, ← kept.agent]
    exact shown_turn_iff changed

/-- Whatever ends a connection, the next one is read by an adapter of the same agent. -/
theorem getElem?_listen {connections : List (List StreamLine)} {lines : List StreamLine} {k : ℕ}
    (found : connections[k]? = some lines) :
    ∃ r, SameAgent a r ∧ (listen py a connections)[k]? = some (r.readLoop py lines).2 := by
  induction connections generalizing a k with
  | nil => cases found
  | cons first connections ih =>
    cases k with
    | zero =>
      obtain rfl := Option.some.inj found
      exact ⟨a, ⟨rfl, rfl⟩, rfl⟩
    | succ k =>
      have start : SameAgent a a := ⟨rfl, rfl⟩
      have after : SameAgent a (a.readLoop py first).1 :=
        Loop.run_invariant (fun r line kept => kept.trans (sameAgent_turn py r line)) start
      obtain ⟨r, same, fates⟩ := ih (a := (a.readLoop py first).1) found
      exact ⟨r, after.trans same, fates⟩

/-- A line with some text. -/
def lineOf (text : String) (nonempty : text.toByteArray.size ≠ 0) : StreamLine :=
  ⟨text.toByteArray, ⟨40, 0, 0, 0, 0⟩, ⟨2026, 3, 1, 12, 0, 0, 0, DateTime.valid_noon⟩, 0, false,
    nonempty⟩

theorem decoded_lineOf {text : String} (nonempty : text.toByteArray.size ≠ 0) :
    (lineOf text nonempty).decoded? = some (PyText.strip text) := by
  have decoded : String.fromUTF8? text.toByteArray = some text := dif_pos text.isValidUTF8
  rw [StreamLine.decoded?, lineOf, decoded]
  rfl

/-- JSON as it is read where every text can be encoded. -/
def plain : PyJson := ⟨JsonText.loads, Record.dumps, fun _ => true⟩

def homeAdapter : HomeAssistantAdapter := ⟨⟨UUID.nil, 0⟩, some fun _ => [1]⟩

/-- The text of a change of state of a light. -/
def changeText (newState : String) : String :=
  "\x7b\"event_type\": \"state_changed\", \"data\": \x7b\"entity_id\": \"light.a\", " ++
    "\"new_state\": " ++ newState ++ "\x7d\x7d"

def changeOfLight (newState : Json) : Json :=
  .obj [("entity_id", .str "light.a"), ("new_state", newState)]

/-- The light is turned on, the light is removed, and an event that is cut off. -/
def turnedOn : StreamLine :=
  lineOf ("data: " ++ changeText "\x7b\"state\": \"on\"\x7d" ++ "\n") (by decide)

def removed : StreamLine := lineOf ("data: " ++ changeText "null" ++ "\n") (by decide)

def cutOff : StreamLine := lineOf "data: \x7b\"event_type\"\n" (by decide)

theorem turnedOn_changes : Changes plain turnedOn
    (changeOfLight (.obj [("state", .str "on")])) := by
  refine ⟨changeText "\x7b\"state\": \"on\"\x7d", [("event_type", .str "state_changed"),
    ("data", changeOfLight (.obj [("state", .str "on")]))], ⟨?_, by decide⟩, ?_, rfl, rfl⟩
  · rw [turnedOn, decoded_lineOf]
    decide +kernel
  · decide +kernel

theorem removed_changes : Changes plain removed (changeOfLight .null) := by
  refine ⟨changeText "null", [("event_type", .str "state_changed"),
    ("data", changeOfLight .null)], ⟨?_, by decide⟩, ?_, rfl, rfl⟩
  · rw [removed, decoded_lineOf]
    decide +kernel
  · decide +kernel

/-- A change of state after a line that ends the connection is not shown. -/
theorem not_shown_after {bad : StreamLine} (ends : Ends plain true bad) :
    ¬ ∀ (i : ℕ) line, [bad, turnedOn][i]? = some line →
      (∃ data state, StateChanged plain line data state) →
        ∃ fate, (homeAdapter.readLoop plain [bad, turnedOn]).2[i]? = some fate ∧
          Shown plain homeAdapter.bridge.agentId line fate := by
  intro all
  obtain ⟨fate, found, -⟩ :=
    all 1 turnedOn rfl ⟨_, [("state", .str "on")], turnedOn_changes, rfl⟩
  have last : (turn plain homeAdapter bad).ends = true :=
    (turn_ends_iff plain homeAdapter bad).mpr ends
  -- The loop has ended when the second line would be reached.
  rw [readLoop, Loop.run_cons_of_ends last] at found
  cases found

/-- A change of state after the removal of an entity, or after an event that is cut off, is
lost. -/
theorem not_shown_after_removed :
    (¬ ∀ (i : ℕ) line, [removed, turnedOn][i]? = some line →
      (∃ data state, StateChanged plain line data state) →
        ∃ fate, (homeAdapter.readLoop plain [removed, turnedOn]).2[i]? = some fate ∧
          Shown plain homeAdapter.bridge.agentId line fate) ∧
    ¬ ∀ (i : ℕ) line, [cutOff, turnedOn][i]? = some line →
      (∃ data state, StateChanged plain line data state) →
        ∃ fate, (homeAdapter.readLoop plain [cutOff, turnedOn]).2[i]? = some fate ∧
          Shown plain homeAdapter.bridge.agentId line fate := by
  refine ⟨not_shown_after (.unpacked _ removed_changes ?_),
    not_shown_after (.malformed "\x7b\"event_type\"" ⟨?_, by decide⟩ ?_)⟩
  · rintro ⟨⟨data, state, same, newState, -⟩, -⟩
    cases same
    cases newState
  · rw [cutOff, decoded_lineOf]
    decide +kernel
  · decide +kernel

end HomeAssistantAdapter

end AgentTelepathy
