import AgentTelepathy.Relay.Possession
import AgentTelepathy.Relay.Tasks

/-!
# The tables name live connections

A handler adds entries for its own connection only, and removes all of them when
it ends. So the registry, the pending challenges and the token buckets name
connections whose handler is running, and since a handler ends only when its
connection is closed, no frame reaches a connection whose handler has ended.
-/

namespace AgentTelepathy

open Foundation Foundation.Transition

namespace ADNSRelayServer

/-- The limits of a server and its token buckets. -/
def service (s : ADNSRelayServer) : ℚ × ℚ × Dict ℕ TokenBucket :=
  (s.rateLimit, s.burstLimit, s.rateLimiters)

theorem service_processData (s : ADNSRelayServer) (verify : Verifier) (ws : ℕ) (ip : String)
    (data : Json) (r : Readings) (nonce : String) :
    (s.processData verify ws ip data r nonce).1.service = s.service := by
  rcases s.processData_cases verify ws ip data r nonce with same | ⟨header, senderId, id, -, same⟩ |
    ⟨header, intent, senderId, id, -, -, -, same⟩ | ⟨header, intent, senderId, id, _, -, -, -, -,
      same⟩
  · rw [same]
  · rcases s.handleChallengeResponse_cases verify id senderId data ws r.consume with
      ⟨ignored, -⟩ | ⟨challenge, content, -, -, settled⟩
    · rw [same, ignored]
    · rw [same, settled]
      rfl
  · obtain ⟨limits, swept⟩ := s.sweep_eq ip r
    rcases s.initiateChallenge_cases id senderId data ws ip r nonce with
      ⟨refused, -⟩ | ⟨publicKey, -, -, issued⟩
    · rw [same, refused, swept]
      rfl
    · rw [same, issued, swept]
      rfl
  · rcases s.route_cases id data header ws with ignored | ⟨message, -, ⟨_, _, _, -, -, routed⟩ |
      ⟨_, _, -, -, routed⟩⟩
    · rw [same, ignored]
    · rw [same, routed]
    · rw [same, routed]

theorem service_resumeSend (s : ADNSRelayServer) (outcome : SendOutcome) (purpose : Purpose) :
    (s.resumeSend outcome purpose).1.service = s.service := by
  cases purpose with
  | challenge id | forward routing target =>
    rw [resumeSend]
    split_ifs <;> rfl
  | confirm id => rfl
  | broadcast routing peer rest stale =>
    rw [resumeSend, fanOut_fst]
    rfl

/-- A message is charged to the token bucket of its connection; without one it raises. -/
theorem service_handleMessage (s : ADNSRelayServer) (verify : Verifier) (ws : ℕ) (ip : String)
    (m : Message) (r : Readings) (nonce : String) :
    s.rateLimiters.get? ws = none ∧ s.handleMessage verify ws ip m r nonce = (s, none) ∨
    ∃ bucket action, s.rateLimiters.get? ws = some bucket ∧
      (s.handleMessage verify ws ip m r nonce).1.service =
        (s.charge ws (bucket.consume r.consume).1).service ∧
      (s.handleMessage verify ws ip m r nonce).2 = some action := by
  have handled := s.handled verify ws ip m r nonce
  generalize s.handleMessage verify ws ip m r nonce = result at handled ⊢
  obtain ⟨s', action⟩ := result
  cases handled with
  | crashed absent => exact .inl ⟨absent, rfl⟩
  | ignored bucket found action plain => exact .inr ⟨bucket, action, found, rfl, rfl⟩
  | parsed bucket found paid small data json =>
    exact .inr ⟨bucket, _, found, service_processData _ verify ws ip data r nonce, rfl⟩

/-- A message neither adds nor removes a token bucket. -/
theorem contains_rateLimiters_handleMessage (s : ADNSRelayServer) (verify : Verifier) (ws : ℕ)
    (ip : String) (m : Message) (r : Readings) (nonce : String) (w : ℕ) :
    (s.handleMessage verify ws ip m r nonce).1.rateLimiters.contains w =
      s.rateLimiters.contains w := by
  rcases s.service_handleMessage verify ws ip m r nonce with ⟨-, raises⟩ |
    ⟨bucket, action, found, service, -⟩
  · rw [raises]
  · have buckets : (s.handleMessage verify ws ip m r nonce).1.rateLimiters =
        s.rateLimiters.set ws (bucket.consume r.consume).1 :=
      congrArg (fun service => service.2.2) service
    rw [buckets, Dict.contains, Dict.contains, Dict.get?_set]
    split_ifs with same
    · rw [same, found]
      rfl
    · rfl

end ADNSRelayServer

namespace Relay

open ADNSRelayServer

variable {r t : Relay} {e : RelayEvent} {ws w : ℕ}

theorem running_of_task {task : HandlerTask} (found : r.task? ws = some task)
    (going : task ≠ .exited) : r.Running ws := ⟨task, found, going⟩

theorem awaits_ne_exited (r : Relay) (action : Action) : r.awaits action ≠ .exited := by
  cases action <;> simp [awaits]

theorem running_perform (running : r.Running ws) (action : Action) (w : ℕ) :
    (r.perform ws action).Running w ↔ r.Running w := by
  unfold Running
  rw [task?_perform]
  by_cases same : w = ws
  · subst same
    obtain ⟨task, found, going⟩ := running
    rw [if_pos rfl, found, Option.map_some]
    exact ⟨fun _ => ⟨task, rfl, going⟩, fun _ => ⟨_, rfl, r.awaits_ne_exited action⟩⟩
  · rw [if_neg same]

theorem running_exit : (r.exit ws).Running w ↔ w ≠ ws ∧ r.Running w := by
  unfold Running
  rw [task?_exit]
  by_cases same : w = ws
  · rw [if_pos same]
    refine ⟨?_, fun running => absurd same running.1⟩
    rintro ⟨task, found, going⟩
    obtain ⟨-, -, rfl⟩ := Option.map_eq_some_iff.mp found
    exact absurd rfl going
  · rw [if_neg same]
    exact ⟨fun running => ⟨same, running⟩, And.right⟩

theorem isOpen_update (r : Relay) (ws w : ℕ) (change : Connection → Connection) :
    (r.update ws change).isOpen w =
      if w = ws then ((r.connections.get? ws).map fun c => (change c).isOpen).getD false
      else r.isOpen w := by
  rw [isOpen, get?_update]
  split_ifs
  · rw [Option.map_map]
    rfl
  · rfl

@[simp] theorem isOpen_suspend (r : Relay) (ws w : ℕ) (task : HandlerTask) :
    (r.suspend ws task).isOpen w = r.isOpen w := by
  rw [suspend, isOpen_update]
  split_ifs with same
  · rw [same]
    rfl
  · rfl

theorem isOpen_lose (r : Relay) (ws w : ℕ) :
    (r.lose ws).isOpen w = if w = ws then false else r.isOpen w := by
  rw [lose, isOpen_update]
  split_ifs
  · cases r.connections.get? ws <;> rfl
  · rfl

@[simp] theorem isOpen_exit (r : Relay) (ws w : ℕ) : (r.exit ws).isOpen w = r.isOpen w :=
  isOpen_suspend _ ws w _

/-- Only the closing of a handler's own connection closes one. -/
theorem isOpen_perform_of_ne_close (r : Relay) (ws w : ℕ) {action : Action}
    (stays : ∀ leaving, action ≠ .close leaving) : (r.perform ws action).isOpen w = r.isOpen w := by
  cases action with
  | receive | send => exact isOpen_suspend r ws w _
  | close leaving => exact absurd rfl (stays leaving)

theorem isOpen_perform_of_ne (r : Relay) (action : Action) (other : w ≠ ws) :
    (r.perform ws action).isOpen w = r.isOpen w := by
  cases action with
  | receive | send => exact isOpen_suspend r ws w _
  | close leaving => rw [perform, isOpen_suspend, isOpen_lose, if_neg other]

/-- What the tables of a relay in service name, and which connections are closed. -/
structure Live (r : Relay) : Prop where
  registry : ∀ id registration, r.server.registry.get? id = some registration →
    r.Running registration.ws
  pending : ∀ id challenge, r.server.pendingChallenges.get? id = some challenge →
    r.Running challenge.ws
  buckets : ∀ ws, r.server.rateLimiters.contains ws = true ↔ r.Running ws
  closing : ∀ ws leaving, r.task? ws = some (.closing leaving) → r.isOpen ws = false
  exited : ∀ ws, r.task? ws = some .exited → r.isOpen ws = false

/-- A step that only moves a running handler and adds entries for its connection. -/
private theorem Live.perform {s : ADNSRelayServer} {clock : ℚ} {failures : List (Key × ℕ)}
    (live : r.Live) (running : r.Running ws) (action : Action)
    (registry : ∀ id registration, s.registry.get? id = some registration →
      r.server.registry.get? id = some registration ∨ registration.ws = ws)
    (pending : ∀ id challenge, s.pendingChallenges.get? id = some challenge →
      r.server.pendingChallenges.get? id = some challenge ∨ challenge.ws = ws)
    (buckets : ∀ w, s.rateLimiters.contains w = r.server.rateLimiters.contains w) :
    (({ r with server := s, clock := clock, failures := failures } : Relay).perform ws
      action).Live := by
  set u : Relay := { r with server := s, clock := clock, failures := failures } with before
  have same : ∀ w, (u.perform ws action).Running w ↔ r.Running w :=
    fun w => running_perform (r := u) running action w
  refine ⟨?_, ?_, ?_, ?_, ?_⟩
  · intro id registration registered
    rw [server_perform] at registered
    rw [same]
    rcases registry id registration registered with old | new
    · exact live.registry id registration old
    · exact new ▸ running
  · intro id challenge issued
    rw [server_perform] at issued
    rw [same]
    rcases pending id challenge issued with old | new
    · exact live.pending id challenge old
    · exact new ▸ running
  · intro w
    rw [server_perform, same, ← live.buckets]
    exact iff_of_eq (congrArg (· = true) (buckets w))
  -- A handler that closes its connection has one that is no longer open.
  · intro w leaving closing
    rw [task?_perform] at closing
    by_cases here : w = ws
    · subst here
      rw [if_pos rfl] at closing
      obtain ⟨-, -, awaits⟩ := Option.map_eq_some_iff.mp closing
      cases action with
      | receive | send => cases awaits
      | close => rw [Relay.perform, isOpen_suspend, isOpen_lose, if_pos rfl]
    · rw [if_neg here] at closing
      exact (isOpen_perform_of_ne u action here).trans (live.closing w leaving closing)
  · intro w exited
    rw [task?_perform] at exited
    by_cases here : w = ws
    · rw [if_pos here] at exited
      obtain ⟨-, -, awaits⟩ := Option.map_eq_some_iff.mp exited
      exact absurd awaits (u.awaits_ne_exited action)
    · rw [if_neg here] at exited
      exact (isOpen_perform_of_ne u action here).trans (live.exited w exited)

/-- A handler of a closed connection ends. -/
private theorem Live.exit (live : r.Live) (closed : r.isOpen ws = false) : (r.exit ws).Live := by
  refine ⟨?_, ?_, ?_, ?_, ?_⟩
  -- What the handler registered or was asked goes with it.
  · intro id registration registered
    rw [server_exit] at registered
    obtain ⟨old, other⟩ := Dict.get?_filter_eq_some_iff.mp registered
    exact running_exit.mpr ⟨of_decide_eq_true other, live.registry id registration old⟩
  · intro id challenge issued
    rw [server_exit] at issued
    obtain ⟨old, other⟩ := Dict.get?_filter_eq_some_iff.mp issued
    exact running_exit.mpr ⟨of_decide_eq_true other, live.pending id challenge old⟩
  · intro w
    rw [server_exit, running_exit, disconnect, Dict.contains, Dict.get?_erase]
    split_ifs with same
    · simp [same]
    · rw [← Dict.contains, live.buckets]
      exact ⟨fun running => ⟨same, running⟩, And.right⟩
  · intro w leaving closing
    rw [task?_exit] at closing
    rw [isOpen_exit]
    split_ifs at closing with same
    · obtain ⟨-, -, impossible⟩ := Option.map_eq_some_iff.mp closing
      cases impossible
    · exact live.closing w leaving closing
  · intro w exited
    rw [task?_exit] at exited
    rw [isOpen_exit]
    split_ifs at exited with same
    · rw [same]
      exact closed
    · exact live.exited w exited

/-- The handler of a connection finds its token bucket. -/
theorem Live.acts (live : r.Live) (ip : String) (m : Message) (readings : Readings) (nonce : String)
    (running : r.Running ws) :
    (r.server.handleMessage r.log.verify ws ip m readings nonce).2.isSome = true := by
  rcases r.server.service_handleMessage r.log.verify ws ip m readings nonce with ⟨absent, -⟩ |
    ⟨_, action, -, -, acts⟩
  · have present := (live.buckets ws).mpr running
    rw [Dict.contains, absent] at present
    cases present
  · rw [acts]
    rfl

/-- A new connection has a bucket and a handler that waits for a message. -/
private theorem Live.connect (live : r.Live) (ws : ℕ) (ip : String) (now : ℚ) :
    ({ r with
      server := r.server.connect ws now
      connections := r.connections.set ws ⟨ip, true, .receiving⟩
      clock := now } : Relay).Live := by
  set u : Relay := { r with
    server := r.server.connect ws now
    connections := r.connections.set ws ⟨ip, true, .receiving⟩
    clock := now } with after
  have tasks (w : ℕ) : u.task? w = if w = ws then some .receiving else r.task? w := by
    rw [task?, after, Dict.get?_set]
    split_ifs <;> rfl
  have opens (w : ℕ) : u.isOpen w = if w = ws then true else r.isOpen w := by
    rw [isOpen, after, Dict.get?_set]
    split_ifs <;> rfl
  -- A handler that is running goes on beside the new one.
  have others : ∀ w, r.Running w → u.Running w := by
    rintro w ⟨task, found, going⟩
    by_cases same : w = ws
    · exact ⟨.receiving, by rw [tasks, if_pos same], by simp⟩
    · exact ⟨task, by rw [tasks, if_neg same, found], going⟩
  refine ⟨?_, ?_, ?_, ?_, ?_⟩
  · intro id registration registered
    exact others _ (live.registry id registration registered)
  · intro id challenge issued
    exact others _ (live.pending id challenge issued)
  · intro w
    rw [Running, tasks, after, ADNSRelayServer.connect, Dict.contains, Dict.get?_set]
    split_ifs with same
    · simp
    · exact live.buckets w
  · intro w leaving closing
    rw [tasks] at closing
    split_ifs at closing with same
    · cases closing
    · rw [opens, if_neg same]
      exact live.closing w leaving closing
  · intro w exited
    rw [tasks] at exited
    split_ifs at exited with same
    · cases exited
    · rw [opens, if_neg same]
      exact live.exited w exited

/-- A connection is closed from outside. -/
private theorem Live.lose (live : r.Live) (ws : ℕ) : (r.lose ws).Live := by
  have server : (r.lose ws).server = r.server := by rw [lose_eq]
  have running (w : ℕ) : (r.lose ws).Running w ↔ r.Running w := by rw [Running, Running, task?_lose]
  have closed (w : ℕ) (before : r.isOpen w = false) : (r.lose ws).isOpen w = false := by
    rw [isOpen_lose]
    split_ifs
    · rfl
    · exact before
  refine ⟨?_, ?_, ?_, ?_, ?_⟩
  · intro id registration registered
    rw [server] at registered
    exact (running _).mpr (live.registry id registration registered)
  · intro id challenge issued
    rw [server] at issued
    exact (running _).mpr (live.pending id challenge issued)
  · intro w
    rw [server, running]
    exact live.buckets w
  · intro w leaving closing
    rw [task?_lose] at closing
    exact closed w (live.closing w leaving closing)
  · intro w exited
    rw [task?_lose] at exited
    exact closed w (live.exited w exited)

/-- Every entry that a step adds is for the connection whose message is processed. -/
theorem added_of_next (step : r.next e = some t) :
    (∀ id registration, t.server.registry.get? id = some registration →
      r.server.registry.get? id = some registration ∨ e.handler? = some registration.ws) ∧
    ∀ id challenge, t.server.pendingChallenges.get? id = some challenge →
      r.server.pendingChallenges.get? id = some challenge ∨ e.handler? = some challenge.ws := by
  -- Only a request for a challenge or an answer to one puts something into the tables.
  rcases (tableStep_of_next step).forgets_or with forgets |
    ⟨ws, m, readings, entropy, data, id, publicKey, rfl, -, -, tables⟩ |
    ⟨ws, m, readings, entropy, data, id, challenge, content, rfl, -, -, tables⟩
  · exact ⟨fun k v found => .inl (forgets.registry k v found),
      fun k v found => .inl (forgets.pending k v found)⟩
  · constructor
    · intro k v found
      exact .inl ((registry_of_tables tables k).symm.trans found)
    · intro k v found
      have stored := (pending_of_tables tables k).symm.trans found
      rw [ADNSRelayServer.tables, issue, Dict.get?_set] at stored
      split_ifs at stored with same
      · exact .inr (congrArg some (congrArg Challenge.ws (Option.some.inj stored)))
      · exact .inl (Dict.get?_filter_eq_some_iff.mp stored).1
  · constructor
    · intro k v found
      have stored := (registry_of_tables tables k).symm.trans found
      rw [ADNSRelayServer.tables, get?_registry_settle] at stored
      split_ifs at stored with fresh
      · exact .inr (congrArg some (congrArg Registration.ws (Option.some.inj stored)))
      · exact .inl stored
    · intro k v found
      exact .inl (Dict.get?_of_get?_erase ((pending_of_tables tables k).symm.trans found))

theorem Live.next (live : r.Live) (step : r.next e = some t) : t.Live := by
  have added := added_of_next step
  -- What a step adds is for the connection whose handler runs.
  have own {old : Prop} {w w' : ℕ} (entry : old ∨ some w = some w') : old ∨ w' = w :=
    entry.imp_right fun new => (Option.some.inj new).symm
  cases e with
  | connect ws ip now =>
    obtain ⟨-, same⟩ := Option.ite_none_right_eq_some.mp step
    cases same
    exact live.connect ws ip now
  | message ws m readings entropy =>
    obtain ⟨ip, isOpen, found, -, -, rfl⟩ := next_message step
    have running : r.Running ws := running_of_task (task?_eq_of_get? found) (by simp)
    have buckets := r.server.contains_rateLimiters_handleMessage r.log.verify ws ip m readings
      entropy.hex
    have acts := live.acts ip m readings entropy.hex running
    rw [receive] at added ⊢
    generalize r.server.handleMessage r.log.verify ws ip m readings entropy.hex = result
      at buckets acts added ⊢
    obtain ⟨s, action⟩ := result
    cases action with
    -- A running handler has its bucket, so the lookup in the message loop does not raise.
    | none => cases acts
    | some action =>
      dsimp only at added ⊢
      rw [server_perform] at added
      exact live.perform running action
        (fun id registration registered => own (added.1 id registration registered))
        (fun id challenge issued => own (added.2 id challenge issued)) buckets
  | sent ws outcome =>
    obtain ⟨purpose, target, transmitted, task, -, rfl⟩ := next_sent step
    have running : r.Running ws := running_of_task task (by simp)
    rw [resume] at added ⊢
    rw [server_perform] at added
    refine live.perform running _
      (fun id registration registered => own (added.1 id registration registered))
      (fun id challenge issued => own (added.2 id challenge issued)) fun w => ?_
    exact congrArg (fun service => service.2.2.contains w)
      (service_resumeSend r.server outcome purpose)
  | closed ws =>
    rcases next_closed step with ⟨task, rfl⟩ | ⟨task, rfl⟩
    -- The handler ends after the close it has asked for; otherwise it receives again.
    · exact live.exit (live.closing ws true task)
    · have running : r.Running ws := running_of_task task (by simp)
      exact live.perform (s := r.server) running .receive (fun _ _ found => .inl found)
        (fun _ _ found => .inl found) fun _ => rfl
  | lose ws =>
    obtain ⟨-, same⟩ := Option.ite_none_right_eq_some.mp step
    cases same
    exact live.lose ws
  | finish ws =>
    obtain ⟨ip, found, rfl⟩ := next_finish step
    refine live.exit ?_
    rw [isOpen, found]
    rfl
  | sign signing =>
    cases step
    exact ⟨live.registry, live.pending, live.buckets, live.closing, live.exited⟩

theorem live_of_reachable (reachable : r.Reachable) : r.Live := by
  obtain ⟨rateLimit, burstLimit, events, run⟩ := reachable
  have preserved : ∀ (u : Relay) event v, u.Live → OfPartial Relay.next u event v → v.Live :=
    fun u event v live step => live.next step
  have initially : (init rateLimit burstLimit).Live := by
    refine ⟨?_, ?_, ?_, ?_, ?_⟩
    · intro id registration registered
      cases registered
    · intro id challenge pending
      cases pending
    · intro w
      constructor
      · intro bucket
        cases bucket
      · rintro ⟨task, found, -⟩
        cases found
    · intro w leaving closing
      cases closing
    · intro w exited
      cases exited
  have reached := run.invariant preserved initially
  exact reached

/-- A frame is transmitted to a connection only while its handler is running. -/
theorem Live.transmitted (live : r.Live) (step : r.next e = some t) :
    t.sends = r.sends ∨ ∃ send, t.sends = r.sends ++ [send] ∧
      (send.transmitted = true → r.Running send.target) := by
  rcases (acts_of_next step).sends with same | ⟨w, purpose, target, frame, -, sent⟩
  · exact .inl same
  · refine .inr ⟨_, sent, fun isOpen => ?_⟩
    obtain ⟨connection, found, opened⟩ : ∃ connection, r.connections.get? target = some connection ∧
        connection.isOpen = true := by
      cases found : r.connections.get? target with
      | none =>
        rw [Relay.isOpen, found] at isOpen
        cases isOpen
      | some connection =>
        rw [Relay.isOpen, found] at isOpen
        exact ⟨connection, rfl, isOpen⟩
    have task : r.task? target = some connection.task := by rw [task?, found, Option.map_some]
    refine running_of_task task ?_
    intro exited
    have closed := live.exited target (exited ▸ task)
    exact absurd (isOpen.symm.trans closed) (by decide)

/-- In every reachable state the registry and the pending challenges name
connections whose handler is running, and the connections with a token bucket are
exactly these. So no message of a handler that waits for one raises, and no frame
is transmitted to a connection whose handler has ended. -/
theorem tables_live (reachable : r.Reachable) :
    (∀ id registration, r.server.registry.get? id = some registration →
      r.Running registration.ws) ∧
    (∀ id challenge, r.server.pendingChallenges.get? id = some challenge →
      r.Running challenge.ws) ∧
    (∀ ws, r.server.rateLimiters.contains ws = true ↔ r.Running ws) ∧
    (∀ ws ip m readings nonce, r.task? ws = some .receiving →
      (r.server.handleMessage r.log.verify ws ip m readings nonce).2.isSome = true) ∧
    ∀ e t, r.next e = some t → t.sends = r.sends ∨ ∃ send, t.sends = r.sends ++ [send] ∧
      (send.transmitted = true → r.Running send.target) := by
  have live := live_of_reachable reachable
  refine ⟨live.registry, live.pending, live.buckets, ?_, fun e t step => live.transmitted step⟩
  intro ws ip m readings nonce waiting
  exact live.acts ip m readings nonce (running_of_task waiting (by simp))

theorem tables_live_alice :
    ∃ r : Relay, r.Reachable ∧ ∃ registration,
      r.server.registry.get? (.text "alice") = some registration ∧ r.Running registration.ws := by
  have runs : (runPartial next (init 30 60) (registering 2)).any (fun r =>
      (r.server.registry.get? (.text "alice")).isSome) = true := by decide +kernel
  obtain ⟨r, run, facts⟩ := exists_run_of_any runs
  obtain ⟨registration, registered⟩ := Option.isSome_iff_exists.mp facts
  have reachable : r.Reachable := ⟨30, 60, _, run⟩
  exact ⟨r, reachable, registration, registered, (tables_live reachable).1 _ _ registered⟩

end Relay

end AgentTelepathy
