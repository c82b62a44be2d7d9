import AgentTelepathy.Relay.Step

/-!
# Handlers and their sends

A handler changes its await only in its own events. It starts to send in an event
that ends in a send: a challenge, a confirmation, or the routing of a frame that
it received from the connection registered for the sender; a broadcast goes on
from peer to peer with the same frame.
-/

namespace AgentTelepathy

open Foundation Foundation.Transition

namespace Relay

open ADNSRelayServer

variable {r t : Relay} {e : RelayEvent} {ws w target : ℕ} {purpose : Purpose} {frame : Json}

/-! ### Tasks -/

theorem task?_update (r : Relay) (ws w : ℕ) (change : Connection → Connection) :
    (r.update ws change).task? w =
      if w = ws then (r.connections.get? ws).map fun c => (change c).task else r.task? w := by
  rw [task?, get?_update]
  split_ifs
  · rw [Option.map_map]
    rfl
  · rfl

theorem task?_suspend (r : Relay) (ws w : ℕ) (task : HandlerTask) :
    (r.suspend ws task).task? w =
      if w = ws then (r.task? ws).map fun _ => task else r.task? w := by
  rw [suspend, task?_update]
  split_ifs
  · rw [task?, Option.map_map]
    rfl
  · rfl

@[simp] theorem task?_lose (r : Relay) (ws w : ℕ) : (r.lose ws).task? w = r.task? w := by
  rw [lose, task?_update]
  split_ifs with same
  · rw [same]
    rfl
  · rfl

/-- The await to which an action leads. -/
def awaits (r : Relay) : Action → HandlerTask
  | .receive => .receiving
  | .send purpose target _ => .sending purpose target (r.isOpen target)
  | .close leaving => .closing leaving

theorem task?_perform (r : Relay) (ws w : ℕ) (action : Action) :
    (r.perform ws action).task? w =
      if w = ws then (r.task? ws).map fun _ => r.awaits action else r.task? w := by
  cases action with
  | receive => exact task?_suspend r ws w _
  | send purpose target frame => exact task?_suspend r ws w _
  | close leaving => rw [perform, task?_suspend, task?_lose, task?_lose, awaits]

theorem task?_exit (r : Relay) (ws w : ℕ) :
    (r.exit ws).task? w = if w = ws then (r.task? ws).map fun _ => .exited else r.task? w :=
  task?_suspend _ ws w _

theorem task?_eq_of_get? {ip : String} {isOpen : Bool} {task : HandlerTask}
    (found : r.connections.get? ws = some ⟨ip, isOpen, task⟩) : r.task? ws = some task := by
  rw [task?, found, Option.map_some]

/-! ### Actions -/

/-- The handler that takes an action in an event, and the action. -/
def action? (r : Relay) (e : RelayEvent) : Option (ℕ × Action) :=
  match e with
  | .message ws m readings entropy =>
    (r.server.handleMessage r.log.verify ws (r.address e) m readings entropy.hex).2.map
      fun action => (ws, action)
  | .sent ws outcome =>
    match r.task? ws with
    | some (.sending purpose _ _) => some (ws, (r.server.resumeSend outcome purpose).2)
    | _ => none
  | _ => none

/-- The next await and the new sends of a step. -/
structure Acts (r : Relay) (e : RelayEvent) (t : Relay) : Prop where
  /-- A handler that sends after the step did so before, or starts to. -/
  sending : ∀ w purpose target transmitted,
    t.task? w = some (.sending purpose target transmitted) →
      r.task? w = some (.sending purpose target transmitted) ∨
        ∃ frame, r.action? e = some (w, .send purpose target frame)
  /-- What is sent in a step is the send with which the step ends. -/
  sends : t.sends = r.sends ∨ ∃ w purpose target frame,
    r.action? e = some (w, .send purpose target frame) ∧
      t.sends = r.sends ++ [⟨target, purpose, frame, r.isOpen target⟩]

/-- No handler starts to send. -/
private theorem acts_of_quiet (tasks : ∀ w task, t.task? w = some task →
      r.task? w = some task ∨ task = .receiving ∨ task = .exited) (sends : t.sends = r.sends) :
    Acts r e t := by
  refine ⟨?_, .inl sends⟩
  intro w purpose target transmitted sending
  rcases tasks w _ sending with before | receiving | exited
  · exact .inl before
  · cases receiving
  · cases exited

private theorem acts_of_suspend (task : HandlerTask) (quiet : task = .receiving ∨ task = .exited) :
    ∀ w' task', (if w' = ws then (r.task? ws).map fun _ => task else r.task? w') = some task' →
      r.task? w' = some task' ∨ task' = .receiving ∨ task' = .exited := by
  intro w' task' found
  split_ifs at found with same
  · obtain ⟨-, -, rfl⟩ := Option.map_eq_some_iff.mp found
    exact .inr quiet
  · exact .inl found

private theorem acts_of_perform {s : ADNSRelayServer} {clock : ℚ} {failures : List (Key × ℕ)}
    {action : Action} (acts : r.action? e = some (ws, action)) :
    Acts r e (({ r with server := s, clock := clock, failures := failures } : Relay).perform ws
      action) := by
  constructor
  · intro w purpose target transmitted sending
    rw [task?_perform] at sending
    split_ifs at sending with same
    · obtain ⟨before, -, awaits⟩ := Option.map_eq_some_iff.mp sending
      subst same
      cases action with
      | receive | close => cases awaits
      | send p target' frame =>
        cases awaits
        exact .inr ⟨frame, acts⟩
    · exact .inl sending
  · rw [sends_perform]
    cases action with
    | receive | close => exact .inl (List.append_nil _)
    | send purpose target frame => exact .inr ⟨ws, purpose, target, frame, acts, rfl⟩

theorem acts_of_next (step : r.next e = some t) : Acts r e t := by
  cases e with
  | connect ws ip now =>
    obtain ⟨⟨absent, -⟩, same⟩ := Option.ite_none_right_eq_some.mp step
    cases same
    refine acts_of_quiet ?_ rfl
    intro w task found
    rw [task?, Dict.get?_set] at found
    split_ifs at found with same
    · exact .inr (.inl (Option.some.inj found).symm)
    · exact .inl found
  | message ws m readings entropy =>
    obtain ⟨ip, isOpen, found, -, -, rfl⟩ := next_message step
    -- The connection is registered with its address, which the limit is counted for.
    have address : r.address (.message ws m readings entropy) = ip := by
      rw [Relay.address, found, Option.map_some, Option.getD_some]
    have action : r.action? (.message ws m readings entropy) =
        (r.server.handleMessage r.log.verify ws ip m readings entropy.hex).2.map
          fun action => (ws, action) := by
      rw [action?, address]
    rw [receive]
    generalize r.server.handleMessage r.log.verify ws ip m readings entropy.hex = result
      at action ⊢
    obtain ⟨s, taken⟩ := result
    cases taken with
    | none =>
      refine acts_of_quiet ?_ (sends_exit _ ws)
      intro w task found
      rw [task?_exit] at found
      exact acts_of_suspend .exited (.inr rfl) w task found
    | some taken => exact acts_of_perform action
  | sent ws outcome =>
    obtain ⟨purpose, target, transmitted, task, -, rfl⟩ := next_sent step
    have action : r.action? (.sent ws outcome) =
        some (ws, (r.server.resumeSend outcome purpose).2) := by
      rw [action?, task]
    exact acts_of_perform action
  | closed ws =>
    rcases next_closed step with ⟨-, rfl⟩ | ⟨-, rfl⟩
    · refine acts_of_quiet ?_ (sends_exit _ ws)
      intro w task found
      rw [task?_exit] at found
      exact acts_of_suspend .exited (.inr rfl) w task found
    · refine acts_of_quiet ?_ (sends_suspend _ ws _)
      intro w task found
      rw [task?_suspend] at found
      exact acts_of_suspend .receiving (.inl rfl) w task found
  | lose ws =>
    obtain ⟨-, same⟩ := Option.ite_none_right_eq_some.mp step
    cases same
    refine acts_of_quiet ?_ (by rw [lose_eq])
    intro w task found
    rw [task?_lose] at found
    exact .inl found
  | finish ws =>
    obtain ⟨ip, -, rfl⟩ := next_finish step
    refine acts_of_quiet ?_ (sends_exit _ ws)
    intro w task found
    rw [task?_exit] at found
    exact acts_of_suspend .exited (.inr rfl) w task found
  | sign signing =>
    cases step
    exact acts_of_quiet (fun w task found => .inl found) rfl

/-! ### What a handler sends -/

/-- A frame that the connection registered for its sender wants to have forwarded,
and what is sent for it. -/
structure Begins (s : ADNSRelayServer) (routing : Routing) (m : Message) (readings : Readings) :
    Prop where
  read : s.read? routing.origin m readings = some routing.frame
  owner : (s.registry.get? routing.senderId).map Registration.ws = some routing.origin
  forwards : ∃ header intent senderId, Names routing.frame header intent senderId routing.senderId ∧
    intent ≠ challengeResponse ∧ forwarded? routing.frame header = some routing.message

/-- What a handler may send after a message. -/
inductive Starts (s : ADNSRelayServer) (ws : ℕ) (m : Message) (readings : Readings) :
    Purpose → ℕ → Json → Prop
  | challenge {data header intent senderId : Json} {id : Key}
      (read : s.read? ws m readings = some data) (names : Names data header intent senderId id)
      (nonce : String) : Starts s ws m readings (.challenge id) ws (challengeFrame senderId nonce)
  | confirm {data header intent senderId : Json} {id : Key}
      (read : s.read? ws m readings = some data) (names : Names data header intent senderId id) :
      Starts s ws m readings (.confirm id) ws (registeredFrame senderId)
  | broadcast {routing : Routing} (origin : routing.origin = ws)
      (begins : Begins s routing m readings) {peer : Key} {target : ℕ} {rest : List (Key × ℕ)}
      (peers : (peer, target) :: rest <:+ s.registry.items.map fun e => (e.1, e.2.ws)) :
      Starts s ws m readings (.broadcast routing peer rest []) target routing.message
  | forward {routing : Routing} (origin : routing.origin = ws)
      (begins : Begins s routing m readings) {peer : Key} {registration : Registration}
      (registered : s.registry.get? peer = some registration) :
      Starts s ws m readings (.forward routing peer) registration.ws routing.message

theorem starts_of_message {m : Message} {readings : Readings} {entropy : Entropy}
    (acts : r.action? (.message ws m readings entropy) = some (w, .send purpose target frame)) :
    w = ws ∧ Starts r.server ws m readings purpose target frame := by
  obtain ⟨action, taken, same⟩ := Option.map_eq_some_iff.mp acts
  obtain ⟨rfl, rfl⟩ : ws = w ∧ action = .send purpose target frame := by simpa using same
  refine ⟨rfl, ?_⟩
  have handled := r.server.handled r.log.verify ws (r.address (.message ws m readings entropy)) m
    readings entropy.hex
  generalize r.address (.message ws m readings entropy) = ip at taken handled
  rw [taken] at handled
  generalize (r.server.handleMessage r.log.verify ws ip m readings entropy.hex).1 = s at handled
  generalize wanted : some (Action.send purpose target frame) = action at handled
  cases handled with
  | crashed => cases wanted
  | ignored bucket found action plain =>
    rcases plain with rfl | rfl <;> cases wanted
  | parsed bucket found paid small data json =>
    have read : r.server.read? ws m readings = some data :=
      read?_eq_some_iff.mpr ⟨⟨⟨bucket, found, paid⟩, small⟩, json⟩
    -- The bucket was charged before the frame is read, and charging changes neither
    -- the registry nor the challenges.
    have wanted := (Option.some.inj wanted).symm
    set charged := r.server.charge ws (bucket.consume readings.consume).1
    rcases charged.processData_cases r.log.verify ws ip data readings entropy.hex with
      same | ⟨header, senderId, id, names, same⟩ |
      ⟨header, intent, senderId, id, names, request, unowned, same⟩ |
      ⟨header, intent, senderId, id, registration, names, request, registered, own, same⟩
    · rw [same] at wanted
      cases wanted
    · rw [same] at wanted
      rcases charged.handleChallengeResponse_cases r.log.verify id senderId data ws
          readings.consume with ⟨ignored, -⟩ | ⟨challenge, content, pending, answer, settled⟩
      · rw [ignored] at wanted
        cases wanted
      · rw [settled] at wanted
        dsimp only at wanted
        split at wanted <;> cases wanted
        exact .confirm read names
    · rw [same] at wanted
      rcases charged.initiateChallenge_cases id senderId data ws ip readings entropy.hex with
        ⟨refused, -⟩ | ⟨publicKey, admits, claimed, issued⟩
      · rw [refused] at wanted
        cases wanted
      · rw [issued] at wanted
        cases wanted
        exact .challenge read names entropy.hex
    · rw [same] at wanted
      have owner : (r.server.registry.get? id).map Registration.ws = some ws :=
        (congrArg (Option.map Registration.ws) registered).trans (congrArg some own)
      rcases charged.route_cases id data header ws with ignored |
        ⟨message, forwards, ⟨peer, target', rest, peers, -, routed⟩ |
          ⟨peer, entry, peerRegistered, -, routed⟩⟩
      · rw [ignored] at wanted
        cases wanted
      · have begins : Begins r.server ⟨ws, id, data, message⟩ m readings :=
          ⟨read, owner, header, intent, senderId, names, request, forwards⟩
        rw [routed] at wanted
        cases wanted
        exact .broadcast rfl begins peers
      · have begins : Begins r.server ⟨ws, id, data, message⟩ m readings :=
          ⟨read, owner, header, intent, senderId, names, request, forwards⟩
        rw [routed] at wanted
        cases wanted
        exact .forward rfl begins peerRegistered

/-- After a send only a broadcast sends again, to the next peer. -/
theorem broadcast_of_sent {outcome : SendOutcome}
    (acts : r.action? (.sent ws outcome) = some (w, .send purpose target frame)) :
    w = ws ∧ ∃ routing peer rest stale last transmitted next later,
      r.task? ws = some (.sending (.broadcast routing peer rest stale) last transmitted) ∧
      purpose = .broadcast routing next later (if outcome = .ok then stale else stale ++ [peer]) ∧
      (next, target) :: later <:+ rest ∧ frame = routing.message := by
  rw [action?] at acts
  split at acts
  · rename_i sent last transmitted task
    obtain ⟨rfl, wanted⟩ : ws = w ∧ (r.server.resumeSend outcome sent).2 =
        .send purpose target frame := by
      simpa using acts
    refine ⟨rfl, ?_⟩
    -- Only a broadcast has another send to make after one that returned.
    cases sent with
    | challenge id =>
      rw [resumeSend] at wanted
      split_ifs at wanted
    | confirm id => cases wanted
    | forward routing peer =>
      rw [resumeSend] at wanted
      split_ifs at wanted
    | broadcast routing peer rest stale =>
      rw [resumeSend] at wanted
      rcases r.server.fanOut_cases routing (if outcome = .ok then stale else stale ++ [peer]) rest
        with ended | ⟨next, target', later, suffix, -, goesOn⟩
      · rw [ended] at wanted
        cases wanted
      · rw [goesOn] at wanted
        cases wanted
        exact ⟨routing, peer, rest, stale, last, transmitted, next, later, task, rfl, suffix, rfl⟩
  · cases acts

end Relay

end AgentTelepathy
