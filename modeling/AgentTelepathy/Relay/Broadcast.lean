import AgentTelepathy.Foundation.Handout
import AgentTelepathy.Relay.Alike
import AgentTelepathy.Relay.Deregistration

/-!
# What is sent for one frame

When the routing of a frame begins, its recipients are decided: everyone who is
registered at that moment and differs from the sender, or the one agent that the
frame is addressed to. The handler hands them out one after the other, and what the
other handlers do to the registry in the meantime makes no difference. So each
recipient is sent one copy, which is transmitted or its send raises. The sender is
a recipient of its own frame only if it is not a number.
-/

namespace AgentTelepathy

open Foundation Foundation.Transition

/-- The receiver that a frame names. -/
def Routing.receiverId (routing : Routing) : Json :=
  ((routing.frame.get? "header").bind fun header => header.get? "receiver_id").getD .null

/-- The peers to which a handler has still to send after a send. -/
def Purpose.left : Purpose → List (Key × ℕ)
  | .challenge _ | .confirm _ | .forward _ _ => []
  | .broadcast routing _ rest _ => rest.filter fun peer => peer.1.differs routing.senderId

/-- The recipients of a frame to which a handler at an await has still to send. -/
def Routing.left (routing : Routing) : Option HandlerTask → List (Key × ℕ)
  | some (.sending purpose _ _) => if purpose.routing? = some routing then purpose.left else []
  | _ => []

/-- A handler that awaits no send has nothing left. -/
theorem Routing.left_of_idle {routing : Routing} {task : Option HandlerTask}
    (idle : ∀ purpose target transmitted, task ≠ some (.sending purpose target transmitted)) :
    routing.left task = [] := by
  unfold Routing.left
  split
  · exact absurd rfl (idle _ _ _)
  · rfl

/-- An action hands out the first of some recipients, or nothing if there are none. -/
inductive Hands (routing : Routing) : List (Key × ℕ) → Action → Prop
  | nothing : Hands routing [] .receive
  | next (purpose : Purpose) (routes : purpose.routing? = some routing) (target : ℕ) :
      Hands routing ((purpose.peer, target) :: purpose.left) (.send purpose target routing.message)

/-- The forwarding that an action is part of. -/
def Action.routing? : Action → Option Routing
  | .receive | .close _ => none
  | .send purpose _ _ => purpose.routing?

theorem Hands.eq_of_routes {routing routing' : Routing} {recipients : List (Key × ℕ)}
    {action : Action}
    (hands : Hands routing recipients action) (routes : action.routing? = some routing') :
    routing' = routing := by
  cases hands with
  | nothing => cases routes
  | next purpose same target => exact Option.some.inj (routes.symm.trans same)

namespace ADNSRelayServer

/-- The recipients of a frame, with their connections. -/
def recipients (s : ADNSRelayServer) (routing : Routing) : List (Key × ℕ) :=
  if routing.receiverId = .str broadcastId then
    (s.registry.items.map fun e => (e.1, e.2.ws)).filter fun peer =>
      peer.1.differs routing.senderId
  else
    match routing.receiverId.key? with
    | none => []
    | some target =>
      if routing.receiverId.truthy ∧ target.differs routing.senderId then
        ((s.registry.get? target).map fun registration => (target, registration.ws)).toList
      else []

theorem recipients_of_broadcast {s : ADNSRelayServer} {routing : Routing}
    (everyone : routing.receiverId = .str broadcastId) {agent : Key} {ws : ℕ} :
    (agent, ws) ∈ s.recipients routing ↔
      (s.registry.get? agent).map Registration.ws = some ws ∧
        (agent ≠ routing.senderId ∨ agent = .number .nan) := by
  rw [recipients, if_pos everyone, List.mem_filter, Key.differs_iff, List.mem_map,
    Option.map_eq_some_iff]
  refine and_congr_left' ⟨?_, ?_⟩
  · rintro ⟨⟨k, registration⟩, item, same⟩
    cases same
    exact ⟨registration, Dict.get?_eq_some_iff.mpr item, rfl⟩
  · rintro ⟨registration, registered, rfl⟩
    exact ⟨(agent, registration), Dict.get?_eq_some_iff.mp registered, rfl⟩

/-- A frame for one agent has that agent as its recipient, if any. -/
theorem recipients_of_addressed {s : ADNSRelayServer} {routing : Routing}
    (one : routing.receiverId ≠ .str broadcastId) :
    s.recipients routing = [] ∨ ∃ agent ws, s.recipients routing = [(agent, ws)] ∧
      routing.receiverId.key? = some agent ∧
      (s.registry.get? agent).map Registration.ws = some ws := by
  rw [recipients, if_neg one]
  cases key : routing.receiverId.key? with
  | none => exact .inl rfl
  | some target =>
    dsimp only
    split_ifs
    · cases registered : s.registry.get? target with
      | none => exact .inl rfl
      | some registration =>
        refine .inr ⟨target, registration.ws, rfl, rfl, ?_⟩
        rw [registered, Option.map_some]
    · exact .inl rfl

/-- No agent is a recipient twice. -/
theorem nodup_recipients (s : ADNSRelayServer) (routing : Routing) :
    ((s.recipients routing).map Prod.fst).Nodup := by
  by_cases everyone : routing.receiverId = .str broadcastId
  · rw [recipients, if_pos everyone]
    have keys : ((s.registry.items.map fun e => (e.1, e.2.ws)).map Prod.fst).Nodup := by
      rw [List.map_map]
      exact s.registry.nodupKeys
    exact (List.Sublist.map _ List.filter_sublist).nodup keys
  · rcases s.recipients_of_addressed everyone with none | ⟨agent, ws, one, -⟩
    · rw [none]
      exact List.nodup_nil
    · rw [one]
      exact List.nodup_singleton agent

/-- A fan-out hands out the peers that differ from the sender. -/
theorem hands_fanOut (s : ADNSRelayServer) (routing : Routing) (stale : List Key)
    (peers : List (Key × ℕ)) :
    Hands routing (peers.filter fun peer => peer.1.differs routing.senderId)
      (s.fanOut routing stale peers).2 := by
  induction peers with
  | nil => exact .nothing
  | cons head peers ih =>
    obtain ⟨peer, ws⟩ := head
    rw [fanOut, List.filter_cons]
    dsimp only
    split_ifs with other
    · exact .next (.broadcast routing peer peers stale) rfl ws
    · exact ih

/-- The routing of a frame hands out its recipients. -/
theorem hands_route (s : ADNSRelayServer) {data header intent senderId message : Json} {id : Key}
    (ws : ℕ) (names : Names data header intent senderId id)
    (forwards : forwarded? data header = some message) :
    Hands ⟨ws, id, data, message⟩ (s.recipients ⟨ws, id, data, message⟩)
      (s.route id data header ws).2 := by
  have receiver : Routing.receiverId ⟨ws, id, data, message⟩ =
      (header.get? "receiver_id").getD .null := by
    rw [Routing.receiverId, names.get?_header.1, Option.bind_some]
  rw [route, forwards, recipients, receiver]
  dsimp only
  -- The branches of the source: a broadcast, a receiver that is no key, a single receiver.
  by_cases everyone : (header.get? "receiver_id").getD .null = .str broadcastId
  · rw [if_pos everyone, if_pos everyone]
    exact s.hands_fanOut _ _ _
  · rw [if_neg everyone, if_neg everyone]
    cases key : ((header.get? "receiver_id").getD .null).key? with
    | none =>
      split_ifs
      · exact .nothing
      · exact .nothing
    | some target =>
      dsimp only
      by_cases truthy : ((header.get? "receiver_id").getD .null).truthy = true
      · rw [if_pos truthy]
        cases registered : s.registry.get? target with
        | none =>
          rw [Option.map_none, Option.toList_none, ite_self]
          exact .nothing
        | some registration =>
          dsimp only
          -- The relay does not send a message back to the one who sent it.
          by_cases other : target.differs id = true
          · rw [if_pos other, if_pos ⟨truthy, other⟩]
            exact .next (.forward _ target) rfl registration.ws
          · rw [if_neg other, if_neg fun both => other both.2]
            exact .nothing
      · rw [if_neg truthy, if_neg fun both => truthy both.1]
        exact .nothing

/-- After a send for a frame a handler hands out what is left. -/
theorem hands_resumeSend (s : ADNSRelayServer) {routing : Routing} {purpose : Purpose}
    (routes : purpose.routing? = some routing) (outcome : SendOutcome) :
    Hands routing purpose.left (s.resumeSend outcome purpose).2 := by
  cases purpose with
  | challenge | confirm => cases routes
  | forward ongoing target =>
    rw [resumeSend]
    split_ifs
    · exact .nothing
    · exact .nothing
  | broadcast ongoing peer rest stale =>
    cases routes
    exact s.hands_fanOut _ _ rest

/-- After a send a handler sends for the same frame, if at all. -/
theorem routing?_resumeSend (s : ADNSRelayServer) {routing : Routing} {purpose : Purpose}
    {outcome : SendOutcome} (routes : (s.resumeSend outcome purpose).2.routing? = some routing) :
    purpose.routing? = some routing := by
  cases purpose with
  | challenge id | forward ongoing target =>
    rw [resumeSend] at routes
    split_ifs at routes
    all_goals cases routes
  | confirm => cases routes
  | broadcast ongoing peer rest stale =>
    rw [(s.hands_fanOut ongoing _ rest).eq_of_routes routes]
    rfl

end ADNSRelayServer

/-- The agent that a send is for, with the connection that it goes to. -/
def Send.recipient (send : Send) : Key × ℕ := (send.purpose.peer, send.target)

namespace Relay

open ADNSRelayServer

variable {r t u : Relay} {e : RelayEvent} {events : List RelayEvent} {ws w target : ℕ}
  {purpose : Purpose} {transmitted : Bool} {routing : Routing} {rateLimit burstLimit : ℚ}

/-! ### Sends and failures -/

/-- The sends that are called in an event. -/
def called (r : Relay) (e : RelayEvent) :
    List Send := (r.action? e).elim [] fun taken => r.calls taken.2

/-- The sends that raise in an event. -/
def failed (r : Relay) : RelayEvent → List (Key × ℕ)
  | .sent ws outcome =>
    match r.task? ws with
    | some (.sending purpose target _) => if outcome = .ok then [] else [(purpose.peer, target)]
    | _ => []
  | _ => []

theorem action?_of_message {ip : String} {isOpen : Bool} {task : HandlerTask}
    (found : r.connections.get? ws = some ⟨ip, isOpen, task⟩) (m : Message) (readings : Readings)
    (entropy : Entropy) :
    r.action? (.message ws m readings entropy) =
      (r.server.handleMessage r.log.verify ws ip m readings entropy.hex).2.map
        fun action => (ws, action) := by
  rw [action?, Relay.address, found, Option.map_some, Option.getD_some]

theorem action?_of_sent (task : r.task? ws = some (.sending purpose target transmitted))
    (outcome : SendOutcome) :
    r.action? (.sent ws outcome) = some (ws, (r.server.resumeSend outcome purpose).2) := by
  rw [action?, task]

/-- A handler that takes an action. -/
private theorem records_of_perform {task : HandlerTask} (running : r.task? ws = some task)
    (s : ADNSRelayServer) (clock : ℚ) (failures : List (Key × ℕ)) (action : Action) :
    let t := ({ r with server := s, clock := clock, failures := failures } : Relay).perform ws
      action
    t.sends = r.sends ++ r.calls action ∧ t.failures = failures ∧
      t.task? ws = some (r.awaits action) := by
  dsimp only
  refine ⟨?_, failures_perform _ ws action, ?_⟩
  · rw [sends_perform]
    cases action <;> rfl
  · rw [task?_perform, if_pos rfl]
    exact (congrArg (Option.map _) running).trans (by cases action <;> rfl)

/-- What is called and what raises in a step is recorded, and the handler that took an
action awaits what the action says. -/
theorem records_of_next (step : r.next e = some t) :
    t.sends = r.sends ++ r.called e ∧ t.failures = r.failures ++ r.failed e ∧
      ∀ w action, r.action? e = some (w, action) → t.task? w = some (r.awaits action) := by
  cases e with
  | connect ws ip now =>
    obtain ⟨-, same⟩ := Option.ite_none_right_eq_some.mp step
    cases same
    exact ⟨(List.append_nil _).symm, (List.append_nil _).symm, fun _ _ acts => by cases acts⟩
  | message ws m readings entropy =>
    obtain ⟨ip, isOpen, found, -, -, rfl⟩ := next_message step
    have none : r.failures ++ r.failed (.message ws m readings entropy) = r.failures :=
      List.append_nil _
    rw [called, action?_of_message found, receive, none]
    generalize r.server.handleMessage r.log.verify ws ip m readings entropy.hex = result
    obtain ⟨s, taken⟩ := result
    cases taken with
    -- A message that ends the handler sends nothing.
    | none =>
      refine ⟨?_, failures_exit _ ws, fun _ _ acts => by cases acts⟩
      exact (sends_exit _ ws).trans (List.append_nil _).symm
    | some action =>
      obtain ⟨sends, failures, task⟩ :=
        records_of_perform (task?_eq_of_get? found) s readings.stamp r.failures action
      refine ⟨sends, failures, ?_⟩
      intro w action' acts
      cases acts
      exact task
  | sent ws outcome =>
    -- The handler goes on with what it was doing when it called `send`.
    obtain ⟨purpose, target, transmitted, running, -, rfl⟩ := next_sent step
    obtain ⟨sends, failures, task⟩ := records_of_perform running
      (r.server.resumeSend outcome purpose).1 r.clock
      (if outcome = SendOutcome.ok then r.failures else r.failures ++ [(purpose.peer, target)])
      (r.server.resumeSend outcome purpose).2
    rw [called, action?_of_sent running, failed, running]
    refine ⟨sends, failures.trans ?_, ?_⟩
    · dsimp only
      split_ifs
      · exact (List.append_nil _).symm
      · rfl
    · intro w action acts
      cases acts
      exact task
  | closed ws =>
    refine ⟨?_, ?_, fun _ _ acts => by cases acts⟩
    · rcases next_closed step with ⟨-, rfl⟩ | ⟨-, rfl⟩
      · exact (sends_exit r ws).trans (List.append_nil _).symm
      · exact (sends_suspend r ws _).trans (List.append_nil _).symm
    · rcases next_closed step with ⟨-, rfl⟩ | ⟨-, rfl⟩
      · exact (failures_exit r ws).trans (List.append_nil _).symm
      · exact (failures_suspend r ws _).trans (List.append_nil _).symm
  | lose ws =>
    obtain ⟨-, same⟩ := Option.ite_none_right_eq_some.mp step
    cases same
    rw [lose_eq]
    exact ⟨(List.append_nil _).symm, (List.append_nil _).symm, fun _ _ acts => by cases acts⟩
  | finish ws =>
    obtain ⟨ip, -, rfl⟩ := next_finish step
    refine ⟨?_, ?_, fun _ _ acts => by cases acts⟩
    · exact (sends_exit r ws).trans (List.append_nil _).symm
    · exact (failures_exit r ws).trans (List.append_nil _).symm
  | sign signing =>
    cases step
    exact ⟨(List.append_nil _).symm, (List.append_nil _).symm, fun _ _ acts => by cases acts⟩

/-- A handler that awaits a send goes on only when this send ends. -/
theorem task?_of_sending (step : r.next e = some t)
    (sending : r.task? w = some (.sending purpose target transmitted)) :
    t.task? w = r.task? w ∨ ∃ outcome, e = .sent w outcome := by
  -- Only an event of the connection itself can end the await, and of these only `sent`.
  by_cases here : e.connection? = some w
  · have other {ip : String} {isOpen : Bool} {task : HandlerTask}
        (found : r.connections.get? w = some ⟨ip, isOpen, task⟩) :
        task = .sending purpose target transmitted :=
      Option.some.inj ((task?_eq_of_get? found).symm.trans sending)
    cases e with
    | connect ws ip now =>
      cases here
      obtain ⟨⟨absent, -⟩, -⟩ := Option.ite_none_right_eq_some.mp step
      rw [task?, absent] at sending
      cases sending
    | message ws m readings entropy =>
      cases here
      obtain ⟨ip, isOpen, found, -⟩ := next_message step
      cases other found
    | sent ws outcome =>
      cases here
      exact .inr ⟨outcome, rfl⟩
    | closed ws =>
      cases here
      rcases next_closed step with ⟨task, -⟩ | ⟨task, -⟩
      · cases task.symm.trans sending
      · cases task.symm.trans sending
    | lose ws =>
      obtain ⟨-, same⟩ := Option.ite_none_right_eq_some.mp step
      cases same
      exact .inl (task?_lose r ws w)
    | finish ws =>
      cases here
      obtain ⟨ip, found, -⟩ := next_finish step
      cases other found
    | sign => cases here
  · exact .inl (congrArg _ ((frame_of_next step).2 w here).1)

/-- A handler awaits no send. -/
def Idle (r : Relay) (w : ℕ) : Prop :=
  ∀ purpose target transmitted, r.task? w ≠ some (.sending purpose target transmitted)

/-- A handler that awaits no send starts one only when a message arrives. -/
theorem Idle.next (idle : r.Idle w) (step : r.next e = some t)
    (during : ∀ m readings entropy, e ≠ .message w m readings entropy) : t.Idle w := by
  intro purpose target transmitted sending
  rcases (acts_of_next step).sending w purpose target transmitted sending with before |
    ⟨frame, acts⟩
  · exact idle purpose target transmitted before
  · cases e with
    | message ws m readings entropy =>
      obtain ⟨rfl, -⟩ := starts_of_message acts
      exact during m readings entropy rfl
    | sent ws outcome =>
      obtain ⟨rfl, _, _, _, _, _, _, _, _, task, -⟩ := broadcast_of_sent acts
      exact idle _ _ _ task
    | connect | closed | lose | finish | sign => cases acts

/-! ### Handing out the recipients -/

/-- The sends for a frame since a state. -/
def copies (r : Relay) (routing : Routing) (t : Relay) : List Send :=
  (t.sends.drop r.sends.length).filter fun send => send.purpose.routing? = some routing

/-- What was handed out of the recipients of a frame since a state, and what is left. -/
def handout (r : Relay) (routing : Routing) (t : Relay) : Handout (Key × ℕ) :=
  ⟨(copies r routing t).map Send.recipient, routing.left (t.task? routing.origin)⟩

theorem copies_of_next (grown : r.sends.length ≤ t.sends.length) (step : t.next e = some u) :
    copies r routing u = copies r routing t ++
      (t.called e).filter fun send => send.purpose.routing? = some routing := by
  rw [copies, (records_of_next step).1, List.drop_append_of_le_length grown, List.filter_append]
  rfl

/-- An action that hands out recipients of a frame hands out the next one. -/
theorem handout_of_hands {recipients : List (Key × ℕ)} {action : Action}
    (hands : Hands routing recipients action) (given : List (Key × ℕ)) :
    Handout.Step ⟨given, recipients⟩
      ⟨given ++ ((r.calls action).filter fun send => send.purpose.routing? = some routing).map
          Send.recipient,
        routing.left (some (r.awaits action))⟩ := by
  cases hands with
  | nothing =>
    rw [calls, List.filter_nil, List.map_nil, List.append_nil]
    exact .pass _
  | next purpose routes target =>
    rw [calls, List.filter_cons, if_pos (decide_eq_true routes), List.filter_nil, awaits,
      Routing.left, if_pos routes]
    exact .give given (purpose.peer, target) purpose.left

/-- Any other action hands out nothing of the frame's recipients. -/
theorem nothing_of_other {action : Action} (other : action.routing? ≠ some routing) :
    ((r.calls action).filter fun send => send.purpose.routing? = some routing) = [] ∧
      routing.left (some (r.awaits action)) = [] := by
  cases action with
  | receive | close => exact ⟨rfl, rfl⟩
  | send purpose target frame =>
    have different : ¬ decide (purpose.routing? = some routing) = true := by
      rw [decide_eq_true_iff]
      exact other
    refine ⟨?_, if_neg other⟩
    rw [calls, List.filter_cons, if_neg different, List.filter_nil]

/-- Handlers send for frames that arrived on their own connection. -/
def SendsOwn (r : Relay) : Prop :=
  ∀ w purpose target transmitted routing, r.task? w = some (.sending purpose target transmitted) →
    purpose.routing? = some routing → routing.origin = w

/-- The routing for which a handler sends after a message began with this message. -/
theorem begins_of_action {m : Message} {readings : Readings} {entropy : Entropy} {action : Action}
    (acts : r.action? (.message ws m readings entropy) = some (w, action))
    (routes : action.routing? = some routing) :
    routing.origin = w ∧ Begins r.server routing m readings := by
  cases action with
  | receive | close => cases routes
  | send purpose target frame =>
    obtain ⟨rfl, starts⟩ := starts_of_message acts
    cases starts with
    | challenge | confirm => cases routes
    | broadcast origin begins => exact Option.some.inj routes ▸ ⟨origin, begins⟩
    | forward origin begins => exact Option.some.inj routes ▸ ⟨origin, begins⟩

/-- What is sent for a frame is sent by the handler of the connection it arrived on,
either when it arrives or when the send before ends. -/
theorem SendsOwn.origin (own : r.SendsOwn) {action : Action} (acts : r.action? e = some (w, action))
    (routes : action.routing? = some routing) :
    routing.origin = w ∧ ((∃ m readings entropy, e = .message w m readings entropy) ∨
      ∃ outcome, e = .sent w outcome) := by
  cases action with
  | receive | close => cases routes
  | send purpose target frame =>
    cases e with
    | message ws m readings entropy =>
      obtain ⟨rfl, -⟩ := starts_of_message acts
      exact ⟨(begins_of_action acts routes).1, .inl ⟨m, readings, entropy, rfl⟩⟩
    | sent ws outcome =>
      obtain ⟨rfl, going, peer, rest, stale, last, transmitted, next, later, task, rfl, -⟩ :=
        broadcast_of_sent acts
      refine ⟨?_, .inr ⟨outcome, rfl⟩⟩
      exact own w _ _ _ routing task routes
    | connect | closed | lose | finish | sign => cases acts

theorem SendsOwn.next (own : r.SendsOwn) (step : r.next e = some t) : t.SendsOwn := by
  intro w purpose target transmitted routing sending routes
  rcases (acts_of_next step).sending w purpose target transmitted sending with before |
    ⟨frame, acts⟩
  · exact own w purpose target transmitted routing before routes
  · exact (own.origin acts routes).1

theorem sendsOwn_of_run (run : Run (OfPartial next) (init rateLimit burstLimit) events r) :
    r.SendsOwn := by
  have preserved : ∀ u event v, u.SendsOwn → OfPartial next u event v → v.SendsOwn :=
    fun u event v own step => own.next step
  have initially : (init rateLimit burstLimit).SendsOwn := by
    intro w purpose target transmitted routing sending
    cases sending
  exact run.invariant preserved initially

/-- Until the next frame arrives on the connection, a step hands out the next recipient
of the frame or nothing, whatever happens to the registry. -/
theorem handout_of_next (own : t.SendsOwn) (grown : r.sends.length ≤ t.sends.length)
    (step : t.next e = some u)
    (during : ∀ m readings entropy, e ≠ .message routing.origin m readings entropy) :
    Handout.Step (handout r routing t) (handout r routing u) := by
  obtain ⟨-, -, tasks⟩ := records_of_next step
  -- An event that is no return of a send of this handler leaves the handout as it is.
  by_cases going : ∃ outcome, e = .sent routing.origin outcome
  · obtain ⟨outcome, rfl⟩ := going
    obtain ⟨purpose, target, transmitted, task, -⟩ := next_sent step
    have acts := action?_of_sent task outcome
    rw [handout, handout, copies_of_next grown step, called, acts, tasks _ _ acts, task,
      Option.elim_some, List.map_append]
    by_cases routes : purpose.routing? = some routing
    · rw [Routing.left, if_pos routes]
      exact handout_of_hands (t.server.hands_resumeSend routes outcome) _
    · obtain ⟨none, done⟩ := nothing_of_other (r := t) fun same =>
        routes (t.server.routing?_resumeSend same)
      rw [none, done, Routing.left, if_neg routes, List.map_nil, List.append_nil]
      exact .pass _
  · have nothing : ((t.called e).filter fun send => send.purpose.routing? = some routing) = [] := by
      rw [called]
      cases acts : t.action? e with
      | none => rfl
      | some taken =>
        obtain ⟨w, action⟩ := taken
        refine (nothing_of_other ?_).1
        intro routes
        obtain ⟨rfl, ⟨m, readings, entropy, same⟩ | ⟨outcome, same⟩⟩ := own.origin acts routes
        · exact during m readings entropy same
        · exact going ⟨outcome, same⟩
    -- The handler stays idle, or goes on waiting for the same copy.
    have same : routing.left (u.task? routing.origin) = routing.left (t.task? routing.origin) := by
      by_cases idle : t.Idle routing.origin
      · rw [Routing.left_of_idle idle, Routing.left_of_idle (idle.next step during)]
      · unfold Idle at idle
        push Not at idle
        obtain ⟨purpose, target, transmitted, sending⟩ := idle
        rcases task?_of_sending step sending with kept | ended
        · rw [kept]
        · exact absurd ended going
    rw [handout, handout, copies_of_next grown step, nothing, same, List.append_nil]
    exact .pass _

/-- A frame that a verified sender wants to have forwarded is routed. -/
theorem routed_of_begins {m : Message} {readings : Readings} {entropy : Entropy}
    (begins : Begins r.server routing m readings)
    (step : r.next (.message routing.origin m readings entropy) = some t) :
    ∃ action, r.action? (.message routing.origin m readings entropy) =
      some (routing.origin, action) ∧ Hands routing (r.server.recipients routing) action := by
  obtain ⟨read, owner, header, intent, senderId, names, request, forwards⟩ := begins
  obtain ⟨accepts, json⟩ := read?_eq_some_iff.mp read
  obtain ⟨ip, isOpen, found, -, -, -⟩ := next_message step
  obtain ⟨registration, registered, own⟩ := Option.map_eq_some_iff.mp owner
  have accepted : ∃ bucket, r.server.handleMessage r.log.verify routing.origin ip m readings
      entropy.hex =
        (((r.server.charge routing.origin bucket).processData r.log.verify routing.origin ip
          routing.frame readings entropy.hex).1,
        some ((r.server.charge routing.origin bucket).processData r.log.verify routing.origin ip
          routing.frame readings entropy.hex).2) := handleMessage_of_accepts accepts json
  obtain ⟨bucket, handled⟩ := accepted
  -- Charging the bucket changes neither the registry nor, with it, the recipients.
  set charged := r.server.charge routing.origin bucket
  have processed : charged.processData r.log.verify routing.origin ip routing.frame readings
      entropy.hex = charged.route routing.senderId routing.frame header routing.origin := by
    have entry : charged.registry.get? routing.senderId = some registration := registered
    rw [processData_of_names names, if_neg request, entry]
    dsimp only
    rw [if_neg (not_not.mpr own)]
  refine ⟨(charged.route routing.senderId routing.frame header routing.origin).2, ?_, ?_⟩
  · rw [action?_of_message found, handled, processed]
    rfl
  · exact charged.hands_route routing.origin names forwards

/-- When a frame arrives, its recipients are decided. -/
theorem handout_of_begins {m : Message} {readings : Readings} {entropy : Entropy}
    (begins : Begins r.server routing m readings)
    (step : r.next (.message routing.origin m readings entropy) = some t) :
    (handout r routing t).whole = r.server.recipients routing := by
  obtain ⟨action, acts, hands⟩ := routed_of_begins begins step
  have fresh : copies r routing r = [] := by
    rw [copies, List.drop_length, List.filter_nil]
  rw [handout, copies_of_next le_rfl step, called, acts, (records_of_next step).2.2 _ _ acts, fresh,
    Option.elim_some, List.nil_append]
  exact (handout_of_hands hands []).whole_eq

/-- Until the next frame arrives on the connection, the recipients stay the same. -/
theorem handout_of_run (own : t.SendsOwn) (grown : r.sends.length ≤ t.sends.length)
    (run : Run (OfPartial next) t events u)
    (during : ∀ e ∈ events, ∀ m readings entropy, e ≠ .message routing.origin m readings entropy) :
    (handout r routing u).whole = (handout r routing t).whole := by
  have preserved : ∀ v e v', (v.SendsOwn ∧ r.sends.length ≤ v.sends.length ∧
      (handout r routing v).whole = (handout r routing t).whole) →
      Guarded (OfPartial next)
        (fun _ e => ∀ m readings entropy, e ≠ .message routing.origin m readings entropy) v e v' →
      v'.SendsOwn ∧ r.sends.length ≤ v'.sends.length ∧
        (handout r routing v').whole = (handout r routing t).whole := by
    intro v e v' ⟨own, grown, same⟩ ⟨step, during⟩
    refine ⟨own.next step, ?_, ?_⟩
    · rw [(records_of_next step).1, List.length_append]
      omega
    · exact (handout_of_next own grown step during).whole_eq.trans same
  exact ((run.guarded_of_mem during).invariant preserved ⟨own, grown, rfl⟩).2.2

/-! ### The fate of a send -/

/-- The sends that raised since a state. -/
def raisedSince (r t : Relay) : List (Key × ℕ) := t.failures.drop r.failures.length

/-- Every send that was called since a state was transmitted, or has raised, or is
awaited. -/
theorem fate_of_run (run : Run (OfPartial next) r events t) :
    r.sends.length ≤ t.sends.length ∧ r.failures.length ≤ t.failures.length ∧
    ∀ send ∈ t.sends.drop r.sends.length, send.transmitted = true ∨
      send.recipient ∈ raisedSince r t ∨
      ∃ w, t.task? w = some (.sending send.purpose send.target send.transmitted) := by
  induction run with
  | nil =>
    refine ⟨le_rfl, le_rfl, ?_⟩
    intro send sent
    rw [List.drop_length] at sent
    cases sent
  | @snoc events t u e before last ih =>
    obtain ⟨grown, more, fates⟩ := ih
    obtain ⟨sends, failures, tasks⟩ := records_of_next last
    have raised : raisedSince r u = raisedSince r t ++ t.failed e := by
      rw [raisedSince, failures, List.drop_append_of_le_length more]
      rfl
    refine ⟨?_, ?_, ?_⟩
    · rw [sends, List.length_append]
      omega
    · rw [failures, List.length_append]
      omega
    intro send sent
    rw [sends, List.drop_append_of_le_length grown] at sent
    rw [raised]
    -- A send made before keeps its fate or has its await ended; a new one is awaited now.
    rcases List.mem_append.mp sent with old | new
    · rcases fates send old with transmitted | gone | ⟨w, awaited⟩
      · exact .inl transmitted
      · exact .inr (.inl (List.mem_append_left _ gone))
      · rcases task?_of_sending last awaited with kept | ⟨outcome, rfl⟩
        · exact .inr (.inr ⟨w, kept.trans awaited⟩)
        · -- The await ends: the send returned, which needs transmission, or it raised.
          obtain ⟨purpose, target, transmitted, task, possible, -⟩ := next_sent last
          cases task.symm.trans awaited
          by_cases ok : outcome = .ok
          · subst ok
            exact .inl possible
          · refine .inr (.inl (List.mem_append_right _ ?_))
            rw [failed, awaited]
            dsimp only
            rw [if_neg ok]
            exact List.mem_singleton.mpr rfl
    · rw [called] at new
      cases acts : t.action? e with
      | none =>
        rw [acts] at new
        cases new
      | some taken =>
        obtain ⟨w, action⟩ := taken
        rw [acts, Option.elim_some] at new
        cases action with
        | receive | close => cases new
        | send purpose target frame =>
          obtain rfl := List.mem_singleton.mp new
          exact .inr (.inr ⟨w, tasks w _ acts⟩)

/-! ### Copies -/

/-- The copies of a frame whose routing began in one state, in another state. -/
structure FansOut (r : Relay) (routing : Routing) (t : Relay) : Prop where
  /-- Everyone else gets exactly one copy of a broadcast, unless the send raises. -/
  once : routing.receiverId = .str broadcastId → t.Idle routing.origin →
    ∀ agent registration, r.server.registry.get? agent = some registration →
      agent ≠ routing.senderId → (agent, registration.ws) ∉ raisedSince r t →
      ∃ send, ((copies r routing t).filter fun send => send.purpose.peer = agent) = [send] ∧
        send.target = registration.ws ∧ send.frame = routing.message ∧ send.transmitted = true
  atMostOnce : ∀ agent,
    ((copies r routing t).filter fun send => send.purpose.peer = agent).length ≤ 1
  others : routing.receiverId = .str broadcastId →
    ∀ send ∈ copies r routing t, send.purpose.peer ≠ routing.senderId
  /-- A frame for one agent goes to the connection registered for it, if any. -/
  addressed : routing.receiverId ≠ .str broadcastId → (copies r routing t).length ≤ 1 ∧
    ∀ send ∈ copies r routing t, routing.receiverId.key? = some send.purpose.peer ∧
      (r.server.registry.get? send.purpose.peer).map Registration.ws = some send.target

/-- The copies for an agent are those handed out under its name. -/
theorem filter_given (r : Relay) (routing : Routing) (t : Relay) (agent : Key) :
    ((handout r routing t).given.filter fun recipient => recipient.1 = agent) =
      ((copies r routing t).filter fun send => send.purpose.peer = agent).map Send.recipient :=
  List.filter_map

theorem FansOut.of_handout (whole : (handout r routing t).whole = r.server.recipients routing)
    (fates : ∀ send ∈ copies r routing t, t.Idle routing.origin →
      send.transmitted = true ∨ send.recipient ∈ raisedSince r t)
    (frames : ∀ send ∈ copies r routing t, send.frame = routing.message)
    (numeric : routing.receiverId = .str broadcastId → routing.senderId ≠ .number .nan) :
    FansOut r routing t := by
  have distinct : ((handout r routing t).whole.map Prod.fst).Nodup :=
    whole ▸ r.server.nodup_recipients routing
  have given {send : Send} (copy : send ∈ copies r routing t) :
      send.recipient ∈ r.server.recipients routing :=
    whole ▸ List.mem_append_left _ (List.mem_map_of_mem copy)
  refine ⟨?_, ?_, ?_, ?_⟩
  · intro everyone idle agent registration registered other delivered
    have recipient : (agent, registration.ws) ∈ (handout r routing t).whole := by
      rw [whole, recipients_of_broadcast everyone, registered]
      exact ⟨rfl, .inl other⟩
    -- No agent is a recipient twice, so one copy at most goes to each.
    have one := Handout.filter_given_eq distinct (Routing.left_of_idle idle) recipient
    rw [filter_given] at one
    obtain ⟨send, single, same⟩ := List.map_eq_singleton_iff.mp one
    have copy : send ∈ copies r routing t :=
      (List.mem_filter.mp (single ▸ List.mem_singleton.mpr rfl)).1
    refine ⟨send, single, congrArg Prod.snd same, frames send copy, ?_⟩
    rcases fates send copy idle with transmitted | raised
    · exact transmitted
    · exact absurd (same ▸ raised) delivered
  · intro agent
    have atMost := Handout.length_filter_given_le distinct agent
    rw [filter_given, List.length_map] at atMost
    exact atMost
  · intro everyone send copy self
    obtain ⟨-, other | nan⟩ := (recipients_of_broadcast everyone).mp (given copy)
    · exact other self
    · exact numeric everyone (self.symm.trans nan)
  -- Without a broadcast the recipients are none, or the receiver alone.
  · intro one
    have length : (copies r routing t).length ≤ (r.server.recipients routing).length := by
      rw [← whole, Handout.whole, List.length_append, handout, List.length_map]
      omega
    rcases r.server.recipients_of_addressed one with none | ⟨agent, ws, single, key, registered⟩
    · rw [none] at given length
      exact ⟨length.trans (Nat.zero_le 1), fun send copy => absurd (given copy) List.not_mem_nil⟩
    · rw [single] at given length
      refine ⟨length, ?_⟩
      intro send copy
      cases List.mem_singleton.mp (given copy)
      exact ⟨key, registered⟩

/-- A frame is sent as it should be throughout its routing, if it is not a broadcast from
a sender that is not a number; such a broadcast reaches its sender in the end. -/
theorem fansOut_iff (rateLimit burstLimit : ℚ) {before : List RelayEvent} {m : Message}
    {readings : Readings} {entropy : Entropy}
    (run : Run (OfPartial next) (init rateLimit burstLimit) before r)
    (begins : Begins r.server routing m readings)
    (step : r.next (.message routing.origin m readings entropy) = some t)
    (rest : Run (OfPartial next) t events u)
    (during : ∀ e ∈ events, ∀ m readings entropy, e ≠ .message routing.origin m readings entropy) :
    ((routing.receiverId = .str broadcastId → routing.senderId ≠ .number .nan) →
      FansOut r routing u) ∧
    (u.Idle routing.origin → FansOut r routing u →
      routing.receiverId = .str broadcastId → routing.senderId ≠ .number .nan) := by
  have since : Run (OfPartial next) r (.message routing.origin m readings entropy :: events) u :=
    (Run.single step).append rest
  have reached := run.append since
  have own := sendsOwn_of_run (run.snoc step)
  obtain ⟨grown, -, -⟩ := fate_of_run (Run.single step)
  have whole := (handout_of_run own grown rest during).trans (handout_of_begins begins step)
  constructor
  · refine FansOut.of_handout whole ?_ ?_
    · intro send copy idle
      obtain ⟨sent, routes⟩ := List.mem_filter.mp copy
      rcases (fate_of_run since).2.2 send sent with transmitted | raised | ⟨w, awaited⟩
      · exact .inl transmitted
      · exact .inr raised
      · -- A copy is awaited by the handler of the connection that the frame arrived on.
        have origin := sendsOwn_of_run reached w _ _ _ routing awaited (of_decide_eq_true routes)
        exact absurd (origin ▸ awaited) (idle _ _ _)
    · intro send copy
      obtain ⟨sent, routes⟩ := List.mem_filter.mp copy
      exact (began_of_init reached send (List.mem_of_mem_drop sent) routing
        (of_decide_eq_true routes)).2
  · intro idle fansOut everyone nan
    obtain ⟨registration, registered, own⟩ := Option.map_eq_some_iff.mp begins.owner
    have recipient : (routing.senderId, registration.ws) ∈ (handout r routing u).whole := by
      rw [whole, recipients_of_broadcast everyone, registered]
      exact ⟨rfl, .inr nan⟩
    -- An idle handler has nothing left to hand out, so the copy to the sender was sent.
    rw [Handout.whole, handout, Routing.left_of_idle idle, List.append_nil] at recipient
    obtain ⟨send, copy, same⟩ := List.mem_map.mp recipient
    exact fansOut.others everyone send copy (congrArg Prod.fst same)

/-- Three registered agents. -/
def gathering : List RelayEvent := acquainted ++ joining 2 "carol" 11 5 6

/-- During a broadcast one of two recipients loses its connection. -/
def dropping : List RelayEvent := [.lose 1, .sent 0 .closed, .finish 1, .sent 0 .ok]

theorem fansOut_gathering :
    ∃ r t u routing, Run (OfPartial next) (init 30 60) gathering r ∧
      r.next (.message 0 announcement (readAt 7) (constant 8)) = some t ∧
      Run (OfPartial next) t dropping u ∧ FansOut r routing u ∧
      ∃ send, ((copies r routing u).filter fun send => send.purpose.peer = .text "carol") = [send] ∧
        send.transmitted = true := by
  have runs : (runPartial next (init 30 60)
      (gathering ++ .message 0 announcement (readAt 7) (constant 8) :: dropping)).any (fun u =>
        decide (u.task? 0 = some .receiving ∧ ∀ raised ∈ u.failures, raised.1 ≠ .text "carol")) =
      true := by
    decide +kernel
  have begun : (runPartial next (init 30 60) gathering).any (fun r =>
      decide ((r.server.registry.get? (.text "carol")).isSome = true ∧
        ∃ taken ∈ r.action? (.message 0 announcement (readAt 7) (constant 8)),
          ∃ routing ∈ taken.2.routing?, routing.origin = 0 ∧ routing.senderId = .text "alice" ∧
            routing.receiverId = .str broadcastId)) = true := by
    decide +kernel
  -- Both runs are computed; the longer one has the shorter as its beginning.
  obtain ⟨u, run, facts⟩ := exists_run_of_any runs
  obtain ⟨r, reached, started⟩ := exists_run_of_any begun
  obtain ⟨r', t, first, step, rest⟩ := run.middle
  obtain rfl := reached.unique first
  obtain ⟨task, delivered⟩ := of_decide_eq_true facts
  obtain ⟨registered, ⟨w, action⟩, acts, routing, routes, origin, sender, everyone⟩ :=
    of_decide_eq_true started
  obtain ⟨registration, registered⟩ := Option.isSome_iff_exists.mp registered
  have during : ∀ e ∈ dropping, ∀ m readings entropy,
      e ≠ .message routing.origin m readings entropy := by
    intro e member m readings entropy same
    rw [same] at member
    simp [dropping] at member
  have idle : u.Idle routing.origin := by
    intro purpose target transmitted sending
    rw [origin] at sending
    cases task.symm.trans sending
  have numeric : routing.receiverId = .str broadcastId → routing.senderId ≠ .number .nan := by
    intro _ nan
    cases sender.symm.trans nan
  have begins := (begins_of_action acts routes).2
  have fansOut := (fansOut_iff 30 60 reached begins (origin.symm ▸ step) rest during).1 numeric
  obtain ⟨send, single, -, -, transmitted⟩ := fansOut.once everyone idle _ registration registered
    (by rw [sender]; decide) fun raised => delivered _ (List.mem_of_mem_drop raised) rfl
  exact ⟨r, t, u, routing, reached, step, rest, fansOut, send, single, transmitted⟩

/-- A frame of an agent whose id is not a number. -/
def namelessFrame (intent receiverId content : String) : Message where
  length := 300
  data := some (.obj
    [("header", .obj
        [("sender_id", .float .nan), ("intent", .str intent), ("receiver_id", .str receiverId)]),
      ("payload", .obj [("content", .str content)])])

/-- This agent registers. -/
def nameless : List RelayEvent :=
  [.connect 0 "10.0.0.1" 1,
    .message 0 (namelessFrame "Handshake" broadcastId
      "\x7b\"public_key\": \"AQEBAQEBAQEBAQEBAQEBAQEBAQEBAQEBAQEBAQEBAQE=\"\x7d") (readAt 1)
        (constant 7),
    .sent 0 .ok, .sign ⟨List.replicate 32 1, utf8 (constant 7).hex, [7]⟩,
    .message 0 (namelessFrame "Challenge_Response" "" (Base64.encode [7])) (readAt 2) (constant 7),
    .sent 0 .ok]

/-- Its broadcast. -/
def echo : RelayEvent := .message 0 (namelessFrame "Task_Request" broadcastId "") (readAt 5)
    (constant 8)

/-- `json.loads` reads `NaN`, and the broadcast of an agent with this id is sent to the
agent itself. -/
theorem not_fansOut_nan :
    JsonText.loads "NaN" = some (.float .nan) ∧
      ∃ r t u routing, Run (OfPartial next) (init 30 60) nameless r ∧
        Begins r.server routing (namelessFrame "Task_Request" broadcastId "") (readAt 5) ∧
        r.next echo = some t ∧ Run (OfPartial next) t [.sent 0 .ok] u ∧ u.Idle 0 ∧
        (∃ send ∈ copies r routing u, send.purpose.peer = routing.senderId ∧
          send.transmitted = true) ∧ ¬ FansOut r routing u := by
  have runs : (runPartial next (init 30 60) nameless).any (fun r =>
      decide (∃ taken ∈ r.action? echo, ∃ routing ∈ taken.2.routing?,
        routing.receiverId = .str broadcastId ∧
        ∃ t ∈ r.next echo, ∃ u ∈ t.next (.sent 0 .ok), u.task? 0 = some .receiving ∧
          ∃ send ∈ copies r routing u, send.purpose.peer = routing.senderId ∧
            send.transmitted = true)) = true := by
    decide +kernel
  obtain ⟨r, run, facts⟩ := exists_run_of_any runs
  obtain ⟨⟨w, action⟩, acts, routing, routes, everyone, t, step, u, last, task, send, copy, self,
    transmitted⟩ := of_decide_eq_true facts
  have begins := (begins_of_action acts routes).2
  refine ⟨by decide +kernel, r, t, u, routing, run, begins, step, Run.single last, ?_,
    ⟨send, copy, self, transmitted⟩, ?_⟩
  · intro purpose target transmitted sending
    cases task.symm.trans sending
  · intro fansOut
    exact fansOut.others everyone send copy self

end Relay

end AgentTelepathy
