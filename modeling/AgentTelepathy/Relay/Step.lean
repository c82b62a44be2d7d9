import AgentTelepathy.Relay.Handling
import AgentTelepathy.Relay.Run

/-!
# What a step of the relay can do

The registry, the pending challenges and the records of both are the tables of
the server. A step leaves them, sweeps expired challenges, issues or settles a
challenge, takes back what a send has shown to be dead, or forgets what belongs
to a connection whose handler ends.
-/

namespace AgentTelepathy

open Foundation Foundation.Transition

namespace Relay

variable {r t : Relay} {e : RelayEvent} {ws : ℕ}

/-! ### Connections -/

theorem update_eq (r : Relay) (ws : ℕ) (change : Connection → Connection) :
    r.update ws change = { r with connections := (r.update ws change).connections } := by
  unfold update
  split <;> rfl

theorem get?_update (r : Relay) (ws w : ℕ) (change : Connection → Connection) :
    (r.update ws change).connections.get? w =
      if w = ws then (r.connections.get? ws).map change else r.connections.get? w := by
  unfold update
  split
  · rename_i absent
    split_ifs with same
    · rw [same, absent, Option.map_none]
    · rfl
  · rename_i connection found
    rw [Dict.get?_set, found, Option.map_some]

@[simp] theorem server_suspend (r : Relay) (ws : ℕ) (task : HandlerTask) :
    (r.suspend ws task).server = r.server := by
  rw [suspend, update_eq]

@[simp] theorem log_suspend (r : Relay) (ws : ℕ) (task : HandlerTask) :
    (r.suspend ws task).log = r.log := by
  rw [suspend, update_eq]

@[simp] theorem clock_suspend (r : Relay) (ws : ℕ) (task : HandlerTask) :
    (r.suspend ws task).clock = r.clock := by
  rw [suspend, update_eq]

@[simp] theorem sends_suspend (r : Relay) (ws : ℕ) (task : HandlerTask) :
    (r.suspend ws task).sends = r.sends := by
  rw [suspend, update_eq]

@[simp] theorem failures_suspend (r : Relay) (ws : ℕ) (task : HandlerTask) :
    (r.suspend ws task).failures = r.failures := by
  rw [suspend, update_eq]

theorem lose_eq (r : Relay) (ws : ℕ) :
    r.lose ws = { r with connections := (r.lose ws).connections } :=
  update_eq r ws _

theorem get?_suspend (r : Relay) (ws w : ℕ) (task : HandlerTask) :
    (r.suspend ws task).connections.get? w =
      if w = ws then (r.connections.get? ws).map fun c => { c with task }
      else r.connections.get? w := get?_update r ws w _

theorem get?_lose (r : Relay) (ws w : ℕ) :
    (r.lose ws).connections.get? w =
      if w = ws then (r.connections.get? ws).map fun c => { c with isOpen := false }
      else r.connections.get? w := get?_update r ws w _

@[simp] theorem server_perform (r : Relay) (ws : ℕ) (action : Action) :
    (r.perform ws action).server = r.server := by
  cases action with
  | receive | send => exact server_suspend r ws _
  | close leaving => rw [perform, server_suspend, lose_eq]

@[simp] theorem log_perform (r : Relay) (ws : ℕ) (action : Action) :
    (r.perform ws action).log = r.log := by
  cases action with
  | receive | send => exact log_suspend r ws _
  | close leaving => rw [perform, log_suspend, lose_eq]

@[simp] theorem failures_perform (r : Relay) (ws : ℕ) (action : Action) :
    (r.perform ws action).failures = r.failures := by
  cases action with
  | receive | send => exact failures_suspend r ws _
  | close leaving => rw [perform, failures_suspend, lose_eq]

/-- The sends that an action calls. -/
def calls (r : Relay) : Action → List Send
  | .send purpose target frame => [⟨target, purpose, frame, r.isOpen target⟩]
  | .receive | .close _ => []

theorem sends_perform (r : Relay) (ws : ℕ) (action : Action) :
    (r.perform ws action).sends = r.sends ++ r.calls action := by
  cases action with
  | receive => rw [perform, sends_suspend, calls, List.append_nil]
  | send => rfl
  | close leaving => rw [perform, sends_suspend, lose_eq, calls, List.append_nil]

@[simp] theorem server_exit (r : Relay) (ws : ℕ) : (r.exit ws).server = r.server.disconnect ws :=
  server_suspend _ ws _

@[simp] theorem log_exit (r : Relay) (ws : ℕ) : (r.exit ws).log = r.log := log_suspend _ ws _

@[simp] theorem sends_exit (r : Relay) (ws : ℕ) :
    (r.exit ws).sends = r.sends := sends_suspend _ ws _

@[simp] theorem failures_exit (r : Relay) (ws : ℕ) : (r.exit ws).failures = r.failures :=
  failures_suspend _ ws _

/-- A handler that ends has ended. -/
theorem task?_exit_self {connection : Connection}
    (found : r.connections.get? ws = some connection) : (r.exit ws).task? ws = some .exited := by
  rw [task?, exit, get?_suspend, if_pos rfl, found]
  rfl

/-! ### Steps -/

/-- A message is processed by a handler that waits for one. -/
theorem next_message {m : Message} {readings : Readings} {entropy : Entropy}
    (step : r.next (.message ws m readings entropy) = some t) :
    ∃ ip isOpen, r.connections.get? ws = some ⟨ip, isOpen, .receiving⟩ ∧
      r.clock ≤ readings.consume ∧ readings.Ordered ∧ t = r.receive ws ip m readings entropy := by
  rw [next] at step
  split at step
  · rename_i ip isOpen found
    obtain ⟨⟨later, ordered⟩, same⟩ := Option.ite_none_right_eq_some.mp step
    exact ⟨ip, isOpen, found, later, ordered, (Option.some.inj same).symm⟩
  · cases step

/-- A send ends for the handler that awaits it. -/
theorem next_sent {outcome : SendOutcome} (step : r.next (.sent ws outcome) = some t) :
    ∃ purpose target transmitted, r.task? ws = some (.sending purpose target transmitted) ∧
      r.Possible target transmitted outcome ∧ t = r.resume ws purpose target outcome := by
  rw [next] at step
  split at step
  · rename_i purpose target transmitted found
    obtain ⟨possible, same⟩ := Option.ite_none_right_eq_some.mp step
    exact ⟨purpose, target, transmitted, found, possible, (Option.some.inj same).symm⟩
  · cases step

/-- A handler goes on after closing its connection. -/
theorem next_closed (step : r.next (.closed ws) = some t) :
    r.task? ws = some (.closing true) ∧ t = r.exit ws ∨
      r.task? ws = some (.closing false) ∧ t = r.suspend ws .receiving := by
  rw [next] at step
  split at step
  · rename_i leaving found
    cases leaving with
    | true => exact .inl ⟨found, (Option.some.inj step).symm⟩
    | false => exact .inr ⟨found, (Option.some.inj step).symm⟩
  · cases step

/-- Only the loop of a closed connection ends. -/
theorem next_finish (step : r.next (.finish ws) = some t) :
    ∃ ip, r.connections.get? ws = some ⟨ip, false, .receiving⟩ ∧ t = r.exit ws := by
  rw [next] at step
  split at step
  · rename_i ip found
    exact ⟨ip, found, (Option.some.inj step).symm⟩
  · cases step

/-- An accepted message with JSON is processed. -/
theorem receive_of_accepts {m : Message} {readings : Readings} {data : Json} (ip : String)
    (entropy : Entropy) (accepts : r.server.Accepts ws m readings) (json : m.data = some data) :
    ∃ bucket, r.receive ws ip m readings entropy =
      ({ r with
        server := ((r.server.charge ws bucket).processData r.log.verify ws ip data readings
          entropy.hex).1
        clock := readings.stamp } : Relay).perform ws
        ((r.server.charge ws bucket).processData r.log.verify ws ip data readings
          entropy.hex).2 := by
  obtain ⟨bucket, handled⟩ := ADNSRelayServer.handleMessage_of_accepts accepts json
  exact ⟨bucket, by rw [receive, handled]⟩

/-! ### Tables -/

end Relay

/-- The registry, the pending challenges and the records of both. -/
structure Tables where
  registry : Dict Key Registration
  pendingChallenges : Dict Key Challenge
  issued : List (Key × Challenge)
  answers : List Answer

/-- The tables of a server. -/
def ADNSRelayServer.tables (s : ADNSRelayServer) : Tables :=
  ⟨s.registry, s.pendingChallenges, s.issued, s.answers⟩

theorem registry_of_tables {s : ADNSRelayServer} {tables : Tables} (same : s.tables = tables)
    (id : Key) : s.registry.get? id = tables.registry.get? id := by
  rw [← same]
  rfl

theorem pending_of_tables {s : ADNSRelayServer} {tables : Tables} (same : s.tables = tables)
    (id : Key) : s.pendingChallenges.get? id = tables.pendingChallenges.get? id := by
  rw [← same]
  rfl

/-- The agents that a handler deregisters after a send. -/
def Purpose.deregisters (outcome : SendOutcome) : Purpose → List Key
  | .forward _ target => if outcome = .closed then [target] else []
  | .broadcast routing peer rest stale =>
    if rest.all fun p => !p.1.differs routing.senderId then
      if outcome = .ok then stale else stale ++ [peer]
    else []
  | .challenge _ | .confirm _ => []

/-- The agent whose pending challenge a handler drops after a send. -/
def Purpose.drops? (outcome : SendOutcome) : Purpose → Option Key
  | .challenge id => if outcome = .ok then none else some id
  | .confirm _ | .forward _ _ | .broadcast _ _ _ _ => none

namespace ADNSRelayServer

@[simp] theorem pendingChallenges_settle (s : ADNSRelayServer) (id : Key) (challenge : Challenge)
    (verdict : Verdict) (ws : ℕ) (now : ℚ) :
    (s.settle id challenge verdict ws now).pendingChallenges = s.pendingChallenges.erase id := rfl

theorem get?_registry_settle (s : ADNSRelayServer) (id : Key) (challenge : Challenge)
    (verdict : Verdict) (ws : ℕ) (now : ℚ) (k : Key) :
    (s.settle id challenge verdict ws now).registry.get? k =
      if k = id ∧ verdict.isVerified = true then some ⟨ws, challenge.publicKey⟩
      else s.registry.get? k := by
  cases verdict with
  | empty | failed => simp [settle, Verdict.isVerified]
  | verified signature => simp [settle, Dict.get?_set, Verdict.isVerified]

theorem fanOut_fst (s : ADNSRelayServer) (routing : Routing) (stale : List Key)
    (peers : List (Key × ℕ)) :
    (s.fanOut routing stale peers).1 =
      { s with
        registry :=
          deregister (if peers.all fun p => !p.1.differs routing.senderId then stale else [])
            s.registry } := by
  induction peers with
  | nil => rfl
  | cons head peers ih =>
    obtain ⟨peer, ws⟩ := head
    by_cases other : peer.differs routing.senderId = true
    · rw [fanOut, if_pos other]
      simp [other, deregister]
    · have skipped : peer.differs routing.senderId = false := Bool.eq_false_of_not_eq_true other
      rw [fanOut, if_neg other, ih, List.all_cons, skipped]
      rfl

/-- What a handler does to the tables after a send. -/
theorem tables_resumeSend (s : ADNSRelayServer) (outcome : SendOutcome) (purpose : Purpose) :
    (s.resumeSend outcome purpose).1.tables =
      { s.tables with
        registry := deregister (purpose.deregisters outcome) s.registry
        pendingChallenges :=
          match purpose.drops? outcome with
          | none => s.pendingChallenges
          | some id => s.pendingChallenges.erase id } := by
  cases purpose with
  | challenge id =>
    rw [resumeSend, Purpose.drops?]
    split_ifs <;> rfl
  | confirm id => rfl
  | forward routing target =>
    rw [resumeSend, Purpose.deregisters]
    split_ifs <;> rfl
  | broadcast routing peer rest stale =>
    rw [resumeSend, fanOut_fst, Purpose.deregisters]
    rfl

end ADNSRelayServer

/-- The connection whose handler takes part in an event. -/
def RelayEvent.handler? : RelayEvent → Option ℕ
  | .message ws _ _ _ | .sent ws _ | .closed ws | .finish ws => some ws
  | .connect _ _ _ | .lose _ | .sign _ => none

/-- The signatures made in an event. -/
def RelayEvent.signings : RelayEvent → List Signing
  | .sign signing => [signing]
  | .connect _ _ _ | .message _ _ _ _ | .sent _ _ | .closed _ | .lose _ | .finish _ => []

namespace Relay

open ADNSRelayServer

variable {r t : Relay} {e : RelayEvent} {ws : ℕ}

/-- The remote address of the connection that a message arrives on. -/
def address (r : Relay) : RelayEvent → String
  | .message ws _ _ _ => ((r.connections.get? ws).map Connection.ip).getD ""
  | _ => ""

/-- What an event can do to the tables of the server. -/
inductive TableStep (r : Relay) (e : RelayEvent) (t : Relay) : Prop
  | same (tables : t.server.tables = r.server.tables)
  | sweep {ws : ℕ} {m : Message} {readings : Readings} {entropy : Entropy}
      (event : e = .message ws m readings entropy)
      (tables : t.server.tables = (r.server.cleanupStaleChallenges readings.cleanup).tables)
  | issue {ws : ℕ} {m : Message} {readings : Readings} {entropy : Entropy}
      (event : e = .message ws m readings entropy) {data : Json} {id : Key} {publicKey : String}
      (read : r.server.read? ws m readings = some data)
      (requested : r.server.requested? ws (r.address e) readings.limit data = some (id, publicKey))
      (tables : t.server.tables =
        ((r.server.cleanupStaleChallenges readings.cleanup).issue id
          ⟨ws, entropy.hex, publicKey, readings.stamp⟩).tables)
  | settle {ws : ℕ} {m : Message} {readings : Readings} {entropy : Entropy}
      (event : e = .message ws m readings entropy) {data content : Json} {id : Key}
      {challenge : Challenge} (read : r.server.read? ws m readings = some data)
      (answered : r.server.answered? data = some (id, challenge, content))
      (tables : t.server.tables =
        (r.server.settle id challenge (judge r.log.verify challenge content) ws
          readings.consume).tables)
  | resume {ws : ℕ} {outcome : SendOutcome} {purpose : Purpose} {target : ℕ} {transmitted : Bool}
      (event : e = .sent ws outcome)
      (task : r.task? ws = some (.sending purpose target transmitted))
      (tables : t.server.tables =
        { r.server.tables with
          registry := deregister (purpose.deregisters outcome) r.server.registry
          pendingChallenges :=
            match purpose.drops? outcome with
            | none => r.server.pendingChallenges
            | some id => r.server.pendingChallenges.erase id })
  | leave {ws : ℕ} (handler : e.handler? = some ws) (exited : t.task? ws = some .exited)
      (tables : t.server.tables = (r.server.disconnect ws).tables)

/-- A message that answers a pending challenge settles it. -/
theorem tables_receive_of_answered {m : Message} {readings : Readings} {data content : Json}
    {id : Key} {challenge : Challenge} (ip : String) (entropy : Entropy)
    (read : r.server.read? ws m readings = some data)
    (answered : r.server.answered? data = some (id, challenge, content)) :
    (r.receive ws ip m readings entropy).server.tables =
      (r.server.settle id challenge (judge r.log.verify challenge content) ws
        readings.consume).tables := by
  obtain ⟨accepts, json⟩ := read?_eq_some_iff.mp read
  obtain ⟨⟨header, senderId, names⟩, pending, found⟩ := answered?_eq_some_iff.mp answered
  obtain ⟨bucket, received⟩ := receive_of_accepts ip entropy accepts json
  rw [received, server_perform, processData_of_response names]
  rcases (r.server.charge ws bucket).handleChallengeResponse_cases r.log.verify id senderId data ws
      readings.consume with ⟨-, none | none⟩ | ⟨challenge', content', pending', found', same⟩
  · exact absurd (pending.symm.trans none) (Option.some_ne_none _)
  · exact absurd (found.symm.trans none) (Option.some_ne_none _)
  · obtain rfl : challenge = challenge' := Option.some.inj (pending.symm.trans pending')
    obtain rfl : content = content' := Option.some.inj (found.symm.trans found')
    rw [same]
    rfl

/-- A message that obtains a challenge sweeps the table and stores it. -/
theorem tables_receive_of_requested {ip : String} {m : Message} {readings : Readings}
    {data : Json} {id : Key} {publicKey : String} (entropy : Entropy)
    (read : r.server.read? ws m readings = some data)
    (requested : r.server.requested? ws ip readings.limit data = some (id, publicKey)) :
    (r.receive ws ip m readings entropy).server.tables =
      ((r.server.cleanupStaleChallenges readings.cleanup).issue id
        ⟨ws, entropy.hex, publicKey, readings.stamp⟩).tables := by
  obtain ⟨accepts, json⟩ := read?_eq_some_iff.mp read
  obtain ⟨⟨header, intent, senderId, names, request⟩, unowned, admits, claimed⟩ :=
    requested?_eq_some_iff.mp requested
  obtain ⟨bucket, received⟩ := receive_of_accepts ip entropy accepts json
  set charged := r.server.charge ws bucket
  rw [received, server_perform, processData_of_unowned names request (s := charged) unowned]
  obtain ⟨limits, swept⟩ := charged.sweep_eq ip readings
  rcases charged.initiateChallenge_cases id senderId data ws ip readings entropy.hex with
    ⟨-, full | unclaimed⟩ | ⟨publicKey', -, claimed', same⟩
  · exact absurd admits full
  · exact absurd (claimed.symm.trans unclaimed) (Option.some_ne_none _)
  · obtain rfl : publicKey = publicKey' := Option.some.inj (claimed.symm.trans claimed')
    rw [same, swept]
    rfl

/-- A message is ignored, sweeps the table, or issues or settles a challenge. -/
theorem tableStep_receive {ip : String} {isOpen : Bool} {task : HandlerTask} {m : Message}
    {readings : Readings} {entropy : Entropy}
    (found : r.connections.get? ws = some ⟨ip, isOpen, task⟩) :
    TableStep r (.message ws m readings entropy) (r.receive ws ip m readings entropy) := by
  have handled := r.server.handled r.log.verify ws ip m readings entropy.hex
  have address : r.address (.message ws m readings entropy) = ip := by
    rw [Relay.address, found, Option.map_some, Option.getD_some]
  rw [receive]
  generalize result : r.server.handleMessage r.log.verify ws ip m readings entropy.hex = pair
    at handled ⊢
  obtain ⟨s, action⟩ := pair
  cases handled with
  | crashed =>
    exact .leave rfl (task?_exit_self (r := { r with clock := readings.stamp }) found)
      (by rw [server_exit])
  | ignored => exact .same (by rw [server_perform]; rfl)
  | parsed bucket bucketFound paid small data json =>
    have accepts : r.server.Accepts ws m readings := ⟨⟨bucket, bucketFound, paid⟩, small⟩
    have read : r.server.read? ws m readings = some data := read?_eq_some_iff.mpr ⟨accepts, json⟩
    set charged := r.server.charge ws (bucket.consume readings.consume).1
    dsimp only
    -- One case for each way `_process_data` can end: ignored, an answer, a request, a message.
    rcases charged.processData_cases r.log.verify ws ip data readings entropy.hex with
      same | ⟨header, senderId, id, names, same⟩ |
      ⟨header, intent, senderId, id, names, request, unowned, same⟩ |
      ⟨header, intent, senderId, id, registration, -, -, -, -, same⟩
    · exact .same (by rw [server_perform, same]; rfl)
    · rcases charged.handleChallengeResponse_cases r.log.verify id senderId data ws
          readings.consume with ⟨ignored, -⟩ | ⟨challenge, content, pending, answer, settled⟩
      · exact .same (by rw [server_perform, same, ignored]; rfl)
      · have answered : r.server.answered? data = some (id, challenge, content) :=
          answered?_eq_some_iff.mpr ⟨⟨header, senderId, names⟩, pending, answer⟩
        exact .settle rfl read answered (by rw [server_perform, same, settled]; rfl)
    · obtain ⟨limits, swept⟩ := charged.sweep_eq ip readings
      rcases charged.initiateChallenge_cases id senderId data ws ip readings entropy.hex with
        ⟨refused, -⟩ | ⟨publicKey, admits, claimed, issued⟩
      · exact .sweep rfl (by rw [server_perform, same, refused, swept]; rfl)
      · have requested : r.server.requested? ws ip readings.limit data = some (id, publicKey) :=
          requested?_eq_some_iff.mpr ⟨⟨header, intent, senderId, names, request⟩, unowned, admits,
            claimed⟩
        exact .issue rfl read (address ▸ requested)
          (by rw [server_perform, same, issued, swept]; rfl)
    · rcases charged.route_cases id data header ws with ignored |
        ⟨message, -, ⟨_, _, _, -, -, routed⟩ | ⟨_, _, -, -, routed⟩⟩
      · exact .same (by rw [server_perform, same, ignored]; rfl)
      · exact .same (by rw [server_perform, same, routed]; rfl)
      · exact .same (by rw [server_perform, same, routed]; rfl)

theorem tables_resume (r : Relay) (ws : ℕ) (purpose : Purpose) (target : ℕ)
    (outcome : SendOutcome) : (r.resume ws purpose target outcome).server.tables =
      { r.server.tables with
        registry := deregister (purpose.deregisters outcome) r.server.registry
        pendingChallenges :=
          match purpose.drops? outcome with
          | none => r.server.pendingChallenges
          | some id => r.server.pendingChallenges.erase id } := by
  rw [resume, server_perform, ← tables_resumeSend]

/-- What a step does to the tables of the server. -/
theorem tableStep_of_next (step : r.next e = some t) : TableStep r e t := by
  cases e with
  | connect ws ip now =>
    obtain ⟨-, same⟩ := Option.ite_none_right_eq_some.mp step
    cases same
    exact .same rfl
  | message ws m readings entropy =>
    obtain ⟨ip, isOpen, found, -, -, rfl⟩ := next_message step
    exact tableStep_receive found
  | sent ws outcome =>
    obtain ⟨purpose, target, transmitted, task, -, rfl⟩ := next_sent step
    exact .resume rfl task (tables_resume r ws purpose target outcome)
  | closed ws =>
    rcases next_closed step with ⟨task, rfl⟩ | ⟨-, rfl⟩
    · obtain ⟨connection, found, -⟩ := Option.map_eq_some_iff.mp task
      exact .leave rfl (task?_exit_self found) (by rw [server_exit])
    · exact .same (by rw [server_suspend])
  | lose ws =>
    obtain ⟨-, same⟩ := Option.ite_none_right_eq_some.mp step
    cases same
    exact .same (by rw [lose_eq])
  | finish ws =>
    obtain ⟨ip, found, rfl⟩ := next_finish step
    exact .leave rfl (task?_exit_self found) (by rw [server_exit])
  | sign signing =>
    cases step
    exact .same rfl

/-- Entries disappear, and nothing is recorded. -/
structure Forgets (s t : ADNSRelayServer) : Prop where
  registry : ∀ k v, t.registry.get? k = some v → s.registry.get? k = some v
  pending : ∀ k v, t.pendingChallenges.get? k = some v → s.pendingChallenges.get? k = some v
  issued : t.issued = s.issued
  answers : t.answers = s.answers

/-- Seen from the entries that are left, a step forgets, issues or settles. -/
theorem TableStep.forgets_or (step : TableStep r e t) :
    Forgets r.server t.server ∨
    (∃ ws m readings entropy data id publicKey, e = .message ws m readings entropy ∧
      r.server.read? ws m readings = some data ∧
      r.server.requested? ws (r.address e) readings.limit data = some (id, publicKey) ∧
      t.server.tables = ((r.server.cleanupStaleChallenges readings.cleanup).issue id
        ⟨ws, entropy.hex, publicKey, readings.stamp⟩).tables) ∨
    ∃ ws m readings entropy data id challenge content, e = .message ws m readings entropy ∧
      r.server.read? ws m readings = some data ∧
      r.server.answered? data = some (id, challenge, content) ∧
      t.server.tables = (r.server.settle id challenge (judge r.log.verify challenge content) ws
        readings.consume).tables := by
  have fields (s : ADNSRelayServer) (tables : Tables) (same : s.tables = tables) :
      s.registry = tables.registry ∧ s.pendingChallenges = tables.pendingChallenges ∧
        s.issued = tables.issued ∧ s.answers = tables.answers := by
    rw [← same]
    exact ⟨rfl, rfl, rfl, rfl⟩
  cases step with
  | same tables =>
    obtain ⟨registry, pending, issued, answers⟩ := fields _ _ tables
    exact .inl ⟨fun _ _ => registry ▸ id, fun _ _ => pending ▸ id, issued, answers⟩
  | sweep event tables =>
    obtain ⟨registry, pending, issued, answers⟩ := fields _ _ tables
    refine .inl ⟨fun _ _ => registry ▸ id, ?_, issued, answers⟩
    intro k v found
    rw [pending] at found
    exact (Dict.get?_filter_eq_some_iff.mp found).1
  | issue event read requested tables =>
    exact .inr (.inl ⟨_, _, _, _, _, _, _, event, read, requested, tables⟩)
  | settle event read answered tables =>
    exact .inr (.inr ⟨_, _, _, _, _, _, _, _, event, read, answered, tables⟩)
  -- After a send entries and challenges are only deleted.
  | resume event task tables =>
    obtain ⟨registry, pending, issued, answers⟩ := fields _ _ tables
    refine .inl ⟨?_, ?_, issued, answers⟩
    · intro k v found
      rw [registry] at found
      exact get?_of_get?_deregister found
    · intro k v found
      rw [pending] at found
      split at found
      · exact found
      · exact Dict.get?_of_get?_erase found
  | leave handler exited tables =>
    obtain ⟨registry, pending, issued, answers⟩ := fields _ _ tables
    refine .inl ⟨?_, ?_, issued, answers⟩
    · intro k v found
      rw [registry] at found
      exact (Dict.get?_filter_eq_some_iff.mp found).1
    · intro k v found
      rw [pending] at found
      exact (Dict.get?_filter_eq_some_iff.mp found).1

/-- What is signed is logged. -/
theorem log_of_next (step : r.next e = some t) : t.log = r.log ++ e.signings := by
  cases e with
  | connect ws ip now =>
    obtain ⟨-, same⟩ := Option.ite_none_right_eq_some.mp step
    cases same
    exact (List.append_nil _).symm
  | message ws m readings entropy =>
    obtain ⟨ip, isOpen, -, -, -, rfl⟩ := next_message step
    rw [RelayEvent.signings, List.append_nil]
    unfold receive
    dsimp only
    split
    · rw [log_exit]
    · rw [log_perform]
  | sent ws outcome =>
    obtain ⟨purpose, target, transmitted, -, -, rfl⟩ := next_sent step
    rw [resume, log_perform, RelayEvent.signings, List.append_nil]
  | closed ws =>
    rcases next_closed step with ⟨-, rfl⟩ | ⟨-, rfl⟩
    · rw [log_exit, RelayEvent.signings, List.append_nil]
    · rw [log_suspend, RelayEvent.signings, List.append_nil]
  | lose ws =>
    obtain ⟨-, same⟩ := Option.ite_none_right_eq_some.mp step
    cases same
    rw [lose_eq, RelayEvent.signings, List.append_nil]
  | finish ws =>
    obtain ⟨ip, -, rfl⟩ := next_finish step
    rw [log_exit, RelayEvent.signings, List.append_nil]
  | sign signing =>
    cases step
    rfl

/-- Signatures are never forgotten. -/
theorem log_subset_of_next (step : r.next e = some t) : r.log ⊆ t.log := by
  rw [log_of_next step]
  exact List.subset_append_left _ _

end Relay

end AgentTelepathy
