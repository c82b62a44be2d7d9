import AgentTelepathy.Core.TsDelivery
import AgentTelepathy.Foundation.Calls
import AgentTelepathy.Security.TsIdentity

/-!
# The relay connection of the TypeScript node

A `RelayTPCPNode` opens no server; where it starts it calls `_connectToADNS`. Each call keeps one
connection to the relay: when its socket closes while the node runs, a timer makes the next one.
`_adnsWs` is the socket that was made last, until any socket closes, and `_adnsRegistered` whether
the relay confirmed since. When a socket opens, the node sends a handshake on `_adnsWs`; a
challenge is answered on the socket that it came from.
-/

namespace AgentTelepathy.TypeScript

open Foundation Foundation.Transition

/-- A socket to the relay: the call of `_connectToADNS` that made it, and whether it opened. -/
structure RelaySocket where
  call : ℕ
  state : SocketState
  opened : Bool
deriving DecidableEq

/-- What the node sends to the relay. -/
inductive RelayFrame where
  | handshake
  | response (signedNonce : String)
deriving DecidableEq

/-- The part of a node that `_connectToADNS` is about, for a relay address that is a URL. What the
node sent, the challenges that arrived on open sockets and the confirmations are recorded with
their sockets. -/
structure RelayLink where
  running : Bool
  adnsWs : Option ℕ
  adnsRegistered : Bool
  /-- The delay that comes next, for each call of `_connectToADNS`. -/
  backoffs : List ℕ
  sockets : List RelaySocket
  /-- The timers that are set, each with its call and delay. -/
  timers : List (ℕ × ℕ)
  sent : List (ℕ × RelayFrame)
  challenges : List (ℕ × String)
  confirmations : List ℕ

/-- A message from the relay. -/
inductive RelayMessage where
  | challenge (nonce : String)
  | registered
  /-- What goes to `_handleInbound`, or is no JSON. -/
  | other
deriving DecidableEq

/-- What can happen next. -/
inductive LinkEvent where
  | startListening
  | stopListening
  | socket (s : ℕ) (event : SocketEvent)
  | message (s : ℕ) (message : RelayMessage)
  | timeout (k : ℕ)
deriving DecidableEq

/-- `ws.close()`, which also ends a socket that is connecting. -/
def SocketState.abort : SocketState → SocketState
  | .connecting => .closing
  | state => state.close

theorem SocketState.abort_eq_closed_iff (state : SocketState) :
    state.abort = .closed ↔ state = .closed := by
  cases state <;> decide

theorem SocketState.abort_ne_connecting (state : SocketState) : state.abort ≠ .connecting := by
  cases state <;> decide

namespace RelayLink

/-- A node before it listens. -/
def init : RelayLink := ⟨false, none, false, [], [], [], [], [], []⟩

/-- `connect()` of a call of `_connectToADNS`. -/
def connect (n : RelayLink) (call : ℕ) : RelayLink :=
  if n.running then
    { n with
      adnsWs := some n.sockets.length
      adnsRegistered := false
      sockets := n.sockets ++ [⟨call, .connecting, false⟩] }
  else n

/-- `_connectToADNS()` -/
def connectToADNS (n : RelayLink) : RelayLink :=
  if n.running then { n with backoffs := n.backoffs ++ [1000] }.connect n.backoffs.length else n

/-- `readyState` -/
def stateOf (n : RelayLink) (s : ℕ) : Option SocketState := n.sockets[s]?.map RelaySocket.state

/-- Record a frame that is sent on an open socket. -/
def send (n : RelayLink) (s : ℕ) (frame : RelayFrame) : RelayLink :=
  { n with sent := n.sent ++ [(s, frame)] }

/-- `broadcastDiscovery()`, without seed nodes. -/
def broadcastDiscovery (n : RelayLink) : RelayLink :=
  match n.adnsWs with
  | some s => if n.stateOf s = some .open then n.send s .handshake else n
  | none => n

/-- The handlers of a socket. -/
def onSocket (n : RelayLink) (s : ℕ) (socket : RelaySocket) (state : SocketState)
    (event : SocketEvent) : RelayLink :=
  match event with
  | .opened => broadcastDiscovery { n with
      sockets := n.sockets.set s { socket with state, opened := true }
      backoffs := n.backoffs.set socket.call 1000 }
  | .closing | .errored => { n with sockets := n.sockets.set s { socket with state } }
  | .closed =>
    let n := { n with
      sockets := n.sockets.set s { socket with state }
      adnsWs := none
      adnsRegistered := false }
    if n.running then
      let backoff := n.backoffs[socket.call]?.getD 1000
      { n with
        timers := n.timers ++ [(socket.call, backoff)]
        backoffs := n.backoffs.set socket.call (min (backoff * 2) 60000) }
    else n

/-- The handler of messages; a socket that is closing sends nothing. -/
def onMessage (sign : Bytes → Bytes) (n : RelayLink) (s : ℕ) (socket : RelaySocket) :
    RelayMessage → RelayLink
  | .challenge nonce =>
    if socket.state = .open then
      { n with challenges := n.challenges ++ [(s, nonce)] }.send s
        (.response (signBytes sign (utf8 nonce)))
    else n
  | .registered => { n with adnsRegistered := true, confirmations := n.confirmations ++ [s] }
  | .other => n

/-- The node after an event; nothing where the event is not possible. -/
def next (sign : Bytes → Bytes) (n : RelayLink) : LinkEvent → Option RelayLink
  | .startListening => some { n with running := true }.connectToADNS
  | .stopListening =>
    let n := { n with running := false }
    match n.adnsWs with
    | some s => some { n with
        sockets := n.sockets.modify s fun socket => { socket with state := socket.state.abort } }
    | none => some n
  | .socket s event => n.sockets[s]?.bind fun socket => (socket.state.next event).map fun state =>
    n.onSocket s socket state event
  | .message s message => n.sockets[s]?.bind fun socket =>
    if socket.opened ∧ (socket.state = .open ∨ socket.state = .closing) then
      some (n.onMessage sign s socket message)
    else none
  | .timeout k => n.timers[k]?.map fun timer =>
    { n with timers := n.timers.eraseIdx k }.connect timer.1

variable {sign : Bytes → Bytes} {n m : RelayLink} {event : LinkEvent}

/-- Only what was sent changes. -/
theorem broadcastDiscovery_eq (n : RelayLink) :
    n.broadcastDiscovery = { n with sent := n.broadcastDiscovery.sent } := by
  unfold broadcastDiscovery
  split
  · split_ifs <;> rfl
  · rfl

/-! ### One connection for each call -/

/-- How many sockets of a call are not closed. -/
def liveSockets (sockets : List RelaySocket) (call : ℕ) : ℕ :=
  sockets.countP fun socket => socket.call = call ∧ socket.state ≠ .closed

/-- How many sockets that are not closed, and timers, a call has. -/
def connections (n : RelayLink) (call : ℕ) : ℕ :=
  liveSockets n.sockets call + n.timers.countP (·.1 = call)

theorem connections_connect (n : RelayLink) (call other : ℕ) :
    (n.connect call).connections other =
      n.connections other + if n.running = true ∧ call = other then 1 else 0 := by
  unfold connect connections liveSockets
  split_ifs with running both both
  · simp [both.2, add_right_comm]
  · simp [show call ≠ other from fun same => both ⟨running, same⟩]
  · exact absurd both.1 running
  · rfl

/-- A socket that is not closed goes on. -/
theorem liveSockets_set {sockets : List RelaySocket} {s : ℕ} {socket socket' : RelaySocket}
    (held : sockets[s]? = some socket) (same : socket'.call = socket.call)
    (live : socket.state ≠ .closed) (call : ℕ) :
    liveSockets (sockets.set s socket') call +
      (if socket'.state = .closed ∧ socket.call = call then 1 else 0) =
        liveSockets sockets call := by
  have counted := Calls.countP_set_add held
    (fun socket => socket.call = call ∧ socket.state ≠ .closed) socket'
  by_cases own : socket.call = call
  · by_cases closed : socket'.state = .closed
    · simpa [liveSockets, same, own, live, closed] using counted
    · simpa [liveSockets, same, own, live, closed] using counted
  · simpa [liveSockets, same, own] using counted

theorem liveSockets_abort (sockets : List RelaySocket) (s call : ℕ) :
    liveSockets (sockets.modify s fun socket => { socket with state := socket.state.abort }) call =
      liveSockets sockets call := by
  induction sockets generalizing s with
  | nil => simp
  | cons first sockets ih =>
    cases s with
    | zero => simp [liveSockets, List.countP_cons, SocketState.abort_eq_closed_iff]
    | succ s =>
      have later := ih s
      simp only [liveSockets] at later
      simp only [List.modify_succ_cons, liveSockets, List.countP_cons, later]

/-- What one event does to the connections of the calls. -/
structure Turn (n : RelayLink) (event : LinkEvent) (m : RelayLink) : Prop where
  calls : m.backoffs.length =
    n.backoffs.length + if event = .startListening then 1 else 0
  running : m.running = true ↔
    event = .startListening ∨ n.running = true ∧ event ≠ .stopListening
  most (call : ℕ) : m.connections call ≤
    n.connections call + if event = .startListening ∧ call = n.backoffs.length then 1 else 0
  kept (call : ℕ) : m.running = true → m.connections call =
    n.connections call + if event = .startListening ∧ call = n.backoffs.length then 1 else 0

/-- An event that is no start or stop, and ends no connection. -/
theorem Turn.of_eq (start : event ≠ .startListening) (stop : event ≠ .stopListening)
    (calls : m.backoffs.length = n.backoffs.length) (running : m.running = n.running)
    (same : ∀ call, m.connections call = n.connections call) : Turn n event m where
  calls := by rw [calls, if_neg start, add_zero]
  running := by rw [running, or_iff_right start, and_iff_left stop]
  most call := (same call).trans_le (Nat.le_add_right _ _)
  kept call _ := by rw [same call, if_neg fun both => start both.1, add_zero]

/-- An event that is no start and ends connections. -/
theorem Turn.of_le (start : event ≠ .startListening) (calls : m.backoffs.length = n.backoffs.length)
    (ended : m.running = false) (stopped : n.running = false ∨ event = .stopListening)
    (fewer : ∀ call, m.connections call ≤ n.connections call) : Turn n event m where
  calls := by rw [calls, if_neg start, add_zero]
  running := by
    rw [ended, or_iff_right start]
    rcases stopped with stopped | rfl
    · simp [stopped]
    · simp
  most call := (fewer call).trans (Nat.le_add_right _ _)
  kept call still := by
    rw [ended] at still
    cases still

/-- The states of a socket that emits an event. -/
theorem socket_live {socket state : SocketState} {event : SocketEvent}
    (emits : socket.next event = some state) :
    socket ≠ .closed ∧ (state = .closed ↔ event = .closed) := by
  cases socket <;> cases event <;> cases emits <;> decide

theorem socket_turn {s : ℕ} {socketEvent : SocketEvent}
    (step : n.next sign (.socket s socketEvent) = some m) : Turn n (.socket s socketEvent) m := by
  obtain ⟨socket, held, rest⟩ := Option.bind_eq_some_iff.mp step
  obtain ⟨state, emits, rfl⟩ := Option.map_eq_some_iff.mp rest
  obtain ⟨live, closed⟩ := socket_live emits
  have moved (opened : Bool) (call : ℕ) :
      liveSockets (n.sockets.set s ⟨socket.call, state, opened⟩) call +
        (if state = .closed ∧ socket.call = call then 1 else 0) = liveSockets n.sockets call :=
    liveSockets_set held (by rfl) live call
  simp only [closed] at moved
  cases socketEvent with
  | opened =>
    rw [onSocket, broadcastDiscovery_eq]
    refine .of_eq nofun nofun (List.length_set ..) rfl fun call => ?_
    simpa [connections] using moved true call
  | closing | errored =>
    refine .of_eq nofun nofun rfl rfl fun call => ?_
    simpa [connections, onSocket] using moved socket.opened call
  | closed =>
    rw [onSocket]
    dsimp only
    split_ifs with running
    · refine .of_eq nofun nofun (List.length_set ..) rfl fun call => ?_
      have counts := moved socket.opened call
      simp only [true_and] at counts
      rw [connections, connections, ← counts, List.countP_append, List.countP_singleton]
      simp only [decide_eq_true_eq]
      omega
    · refine .of_le nofun rfl (by simpa using running) (.inl (by simpa using running)) ?_
      intro call
      have counts := moved socket.opened call
      exact Nat.add_le_add_right (Nat.le.intro counts) _

theorem message_turn {s : ℕ} {message : RelayMessage}
    (step : n.next sign (.message s message) = some m) : Turn n (.message s message) m := by
  obtain ⟨socket, -, rest⟩ := Option.bind_eq_some_iff.mp step
  obtain ⟨-, same⟩ := Option.ite_none_right_eq_some.mp rest
  obtain rfl := Option.some.inj same
  cases message with
  | challenge nonce =>
    rw [onMessage]
    split_ifs
    · exact .of_eq nofun nofun rfl rfl fun _ => rfl
    · exact .of_eq nofun nofun rfl rfl fun _ => rfl
  | registered | other => exact .of_eq nofun nofun rfl rfl fun _ => rfl

theorem connect_running (n : RelayLink) (call : ℕ) : (n.connect call).running = n.running := by
  unfold connect
  split_ifs <;> rfl

theorem connect_backoffs (n : RelayLink) (call : ℕ) : (n.connect call).backoffs = n.backoffs := by
  unfold connect
  split_ifs <;> rfl

theorem timeout_turn {k : ℕ} (step : n.next sign (.timeout k) = some m) :
    Turn n (.timeout k) m := by
  obtain ⟨timer, held, rfl⟩ := Option.map_eq_some_iff.mp step
  have counts (call : ℕ) := Calls.countP_eraseIdx_add held (fun timer => timer.1 = call)
  simp only [decide_eq_true_eq] at counts
  have calls := congrArg List.length
    (connect_backoffs { n with timers := n.timers.eraseIdx k } timer.1)
  have still := connect_running { n with timers := n.timers.eraseIdx k } timer.1
  by_cases running : n.running = true
  · refine .of_eq nofun nofun calls still fun call => ?_
    rw [connections_connect, connections, connections, ← counts call]
    simp only [running, true_and, add_assoc]
  · rw [Bool.not_eq_true] at running
    refine .of_le nofun calls (still.trans running) (.inl running) fun call => ?_
    rw [connections_connect, connections, connections, ← counts call]
    simp [running]

/-- What an event does to the connections of the calls. -/
theorem next_turn (step : n.next sign event = some m) : Turn n event m := by
  cases event with
  | startListening =>
    obtain rfl := Option.some.inj step
    rw [connectToADNS, if_pos rfl]
    have added (call : ℕ) := connections_connect
      { n with running := true, backoffs := n.backoffs ++ [1000] } n.backoffs.length call
    refine ⟨?_, ?_, fun call => ?_, fun call _ => ?_⟩
    · simp [connect_backoffs]
    · simp [connect_running]
    all_goals
      dsimp only at added
      rw [added call]
      simp [connections, eq_comm]
  | stopListening =>
    simp only [next] at step
    split at step
    · obtain rfl := Option.some.inj step
      refine .of_le nofun rfl rfl (.inr rfl) fun call => ?_
      exact (congrArg (· + _) (liveSockets_abort n.sockets _ call)).le
    · obtain rfl := Option.some.inj step
      exact .of_le nofun rfl rfl (.inr rfl) fun _ => le_rfl
  | socket s socketEvent => exact socket_turn step
  | message s message => exact message_turn step
  | timeout k => exact timeout_turn step

/-- A call has one connection at most, and none before it began. -/
theorem connections_le {events : List LinkEvent} (run : Run (OfPartial (next sign)) init events n)
    (call : ℕ) : n.connections call ≤ if call < n.backoffs.length then 1 else 0 := by
  induction run with
  | nil => exact le_rfl
  | @snoc _ _ _ event _ last ih =>
    have turn := next_turn last
    have most := turn.most call
    rw [turn.calls]
    by_cases start : event = .startListening
    · simp only [start, true_and] at most ⊢
      split_ifs at ih most ⊢ <;> omega
    · simp only [start, false_and, if_false, add_zero] at most ⊢
      exact most.trans ih

/-- In any run, also while the node is stopped, a call of `_connectToADNS` has one connection at
most. While the node is not stopped a call that has one keeps it, and each start adds a call with
one of its own: a node that is started again before its old connection ended stays connected
twice. -/
theorem keeps_one_each {before : List LinkEvent}
    (run : Run (OfPartial (next sign)) init before n) :
    (∀ call, n.connections call ≤ 1) ∧
      ∀ later m, n.running = true → Run (OfPartial (next sign)) n later m →
        .stopListening ∉ later →
          m.backoffs.length = n.backoffs.length + later.count .startListening ∧
            ∀ call, m.connections call =
              if call < n.backoffs.length then n.connections call
              else if call < m.backoffs.length then 1 else 0 := by
  have first (call : ℕ) := connections_le run call
  refine ⟨fun call => (first call).trans ?_, fun later m running more on => ?_⟩
  · split_ifs <;> decide
  suffices whole : m.running = true ∧
      m.backoffs.length = n.backoffs.length + later.count .startListening ∧
      ∀ call, m.connections call = if call < n.backoffs.length then n.connections call
        else if call < m.backoffs.length then 1 else 0 from whole.2
  induction more with
  | nil =>
    refine ⟨running, rfl, fun call => ?_⟩
    split_ifs with begun
    · rfl
    · exact Nat.le_zero.mp ((first call).trans_eq (if_neg begun))
  | @snoc later m m' event _ last ih =>
    obtain ⟨still, calls, each⟩ := ih fun member => on (List.mem_append_left _ member)
    have turn := next_turn last
    have other : event ≠ .stopListening := by
      rintro rfl
      exact on (List.mem_append_right _ (List.mem_singleton.mpr rfl))
    have still' := turn.running.mpr (.inr ⟨still, other⟩)
    refine ⟨still', ?_, fun call => ?_⟩
    · rw [turn.calls, calls, List.count_append, List.count_singleton, add_assoc]
      simp only [beq_iff_eq]
    · rw [turn.kept call still', each call, turn.calls]
      by_cases start : event = .startListening
      · simp only [start, true_and]
        split_ifs <;> omega
      · simp only [start, false_and, if_false, add_zero]

/-- The node starts, is stopped, and is started again before its socket closed. -/
def restarted : List LinkEvent :=
  [.startListening, .socket 0 .opened, .stopListening, .startListening]

/-- The socket closes, and a timer makes the next. -/
def reconnected : List LinkEvent := [.socket 0 .closed, .timeout 0]

theorem keeps_one_each_restarted :
    let n := (runPartial (next id) init restarted).get (by decide)
    let m := (runPartial (next id) n reconnected).get (by decide)
    m.connections 0 = 1 ∧ m.connections 1 = 1 := by
  intro n m
  have run : Run (OfPartial (next id)) init restarted n := run_get (by decide)
  have more : Run (OfPartial (next id)) n reconnected m := run_get (by decide)
  have both := ((keeps_one_each run).2 reconnected m (by decide) more (by decide)).2
  have known : n.connections 0 = 1 ∧ n.connections 1 = 1 := by decide
  exact ⟨((both 0).trans (if_pos (by decide))).trans known.1,
    ((both 1).trans (if_pos (by decide))).trans known.2⟩

/-! ### One connection at a time -/

/-- No socket is live and no timer is set. -/
def Idle (n : RelayLink) : Prop := (∀ socket ∈ n.sockets, socket.state = .closed) ∧ n.timers = []

/-- A start waits until the connection that came before it ended. -/
def Clean (n : RelayLink) (event : LinkEvent) : Prop := event = .startListening → n.Idle

/-- Whether a socket ever opened. -/
def opened (n : RelayLink) (s : ℕ) : Bool := n.sockets[s]?.any RelaySocket.opened

/-- What was sent on a socket. -/
def sentOn (n : RelayLink) (s : ℕ) : List RelayFrame :=
  (n.sent.filter (·.1 = s)).map Prod.snd

/-- The challenges that a socket brought while it was open. -/
def challengesOn (n : RelayLink) (s : ℕ) : List String :=
  (n.challenges.filter (·.1 = s)).map Prod.snd

/-- The socket was made and is not closed. -/
def LiveAt (sockets : List RelaySocket) (s : ℕ) : Prop :=
  ∃ socket, sockets[s]? = some socket ∧ socket.state ≠ .closed

/-- `_adnsWs` is the only live socket, and `_adnsRegistered` is about it. -/
structure Tracked (n : RelayLink) : Prop where
  live (s : ℕ) : n.adnsWs = some s ↔ LiveAt n.sockets s
  waits : n.timers.length ≤ 1 ∧ (n.timers ≠ [] → n.adnsWs = none)
  registered : n.adnsRegistered = true ↔ ∃ s, n.adnsWs = some s ∧ s ∈ n.confirmations
  confirmed : ∀ s ∈ n.confirmations, s < n.sockets.length

/-- Nothing is sent on a socket but a handshake as it opens, and what answers challenges. -/
structure Spoken (sign : Bytes → Bytes) (n : RelayLink) : Prop where
  frames (s : ℕ) : n.sentOn s = (if n.opened s then [.handshake] else []) ++
    (n.challengesOn s).map fun nonce => .response (signBytes sign (utf8 nonce))
  silent (s : ℕ) : n.opened s = false → n.challengesOn s = []
  connecting (s : ℕ) : n.stateOf s = some .connecting → n.opened s = false

theorem Tracked.closed (tracked : n.Tracked) (none : n.adnsWs = none) :
    ∀ socket ∈ n.sockets, socket.state = .closed := by
  intro socket member
  obtain ⟨s, held⟩ := List.getElem?_of_mem member
  by_contra live
  have last := (tracked.live s).mpr ⟨socket, held, live⟩
  rw [none] at last
  cases last

theorem Tracked.connect (tracked : n.Tracked) (none : n.adnsWs = none) (idle : n.timers = [])
    (call : ℕ) : (n.connect call).Tracked := by
  unfold RelayLink.connect
  split_ifs with running
  · refine ⟨fun s => ?_, ⟨by simp [idle], fun set => absurd idle set⟩, ?_, ?_⟩
    · constructor
      · rintro last
        obtain rfl := Option.some.inj last
        exact ⟨_, List.getElem?_concat_length, nofun⟩
      · rintro ⟨socket, held, live⟩
        rcases Calls.getElem?_snoc held with held | ⟨rfl, -⟩
        · exact absurd (tracked.closed none socket (List.mem_of_getElem? held)) live
        · rfl
    · refine iff_of_false nofun ?_
      rintro ⟨s, last, member⟩
      obtain rfl := Option.some.inj last
      exact Nat.lt_irrefl _ (tracked.confirmed _ member)
    · intro s member
      exact (tracked.confirmed s member).trans_le (by simp)
  · exact tracked

/-- Where sockets go on and stay live, and nothing else changes. -/
theorem Tracked.congr (tracked : n.Tracked) {m : RelayLink} (last : m.adnsWs = n.adnsWs)
    (live : ∀ s, LiveAt m.sockets s ↔ LiveAt n.sockets s)
    (length : m.sockets.length = n.sockets.length) (timers : m.timers = n.timers)
    (registered : m.adnsRegistered = n.adnsRegistered)
    (confirmations : m.confirmations = n.confirmations) : m.Tracked where
  live s := by rw [last, live, tracked.live]
  waits := by rw [timers, last]; exact tracked.waits
  registered := by rw [registered, last, confirmations]; exact tracked.registered
  confirmed := by rw [confirmations, length]; exact tracked.confirmed

theorem live_set_iff {sockets : List RelaySocket} {s t : ℕ} {socket socket' : RelaySocket}
    (held : sockets[s]? = some socket) (both : socket'.state ≠ .closed ↔ socket.state ≠ .closed) :
    LiveAt (sockets.set s socket') t ↔ LiveAt sockets t := by
  obtain ⟨inside, rfl⟩ := List.getElem?_eq_some_iff.mp held
  rw [LiveAt, LiveAt, List.getElem?_set]
  split_ifs with same
  · subst same
    simpa [inside] using both
  · rfl

theorem live_abort_iff {sockets : List RelaySocket} {s t : ℕ} :
    LiveAt (sockets.modify s fun socket => { socket with state := socket.state.abort }) t ↔
      LiveAt sockets t := by
  rw [LiveAt, LiveAt, List.getElem?_modify]
  cases sockets[t]? with
  | none => simp
  | some socket => by_cases same : s = t <;> simp [same, SocketState.abort_eq_closed_iff]

theorem socket_tracked (tracked : n.Tracked) {s : ℕ} {socketEvent : SocketEvent}
    (step : n.next sign (.socket s socketEvent) = some m) : m.Tracked := by
  obtain ⟨socket, held, rest⟩ := Option.bind_eq_some_iff.mp step
  obtain ⟨state, emits, rfl⟩ := Option.map_eq_some_iff.mp rest
  obtain ⟨live, closed⟩ := socket_live emits
  have last := (tracked.live s).mpr ⟨socket, held, live⟩
  cases socketEvent with
  | opened =>
    rw [onSocket, broadcastDiscovery_eq]
    refine tracked.congr rfl (fun t => live_set_iff held ?_) (List.length_set ..) rfl rfl rfl
    simp [closed, live]
  | closing | errored =>
    refine tracked.congr rfl (fun t => live_set_iff held ?_) (List.length_set ..) rfl rfl rfl
    simp [closed, live]
  | closed =>
    have ended : state = .closed := closed.mpr rfl
    have timers : n.timers = [] := by
      by_contra set
      rw [tracked.waits.2 set] at last
      cases last
    -- The other sockets were closed before.
    have none (t : ℕ) : ¬ LiveAt (n.sockets.set s { socket with state }) t := by
      rintro ⟨other, there, live'⟩
      rcases Calls.getElem?_set_of_held there with ⟨-, rfl⟩ | ⟨ne, there⟩
      · exact live' ended
      · have same := (tracked.live t).mpr ⟨other, there, live'⟩
        exact ne (Option.some.inj (same.symm.trans last))
    rw [onSocket]
    dsimp only
    split_ifs with running
    · refine ⟨fun t => iff_of_false nofun (none t), ⟨by simp [timers], fun _ => rfl⟩,
        iff_of_false nofun nofun, ?_⟩
      simpa using tracked.confirmed
    · refine ⟨fun t => iff_of_false nofun (none t), ⟨by simp [timers], fun _ => rfl⟩,
        iff_of_false nofun nofun, ?_⟩
      simpa using tracked.confirmed

theorem message_tracked (tracked : n.Tracked) {s : ℕ} {message : RelayMessage}
    (step : n.next sign (.message s message) = some m) : m.Tracked := by
  obtain ⟨socket, held, rest⟩ := Option.bind_eq_some_iff.mp step
  obtain ⟨⟨-, state⟩, same⟩ := Option.ite_none_right_eq_some.mp rest
  obtain rfl := Option.some.inj same
  cases message with
  | challenge nonce =>
    rw [onMessage]
    split_ifs
    · exact tracked.congr rfl (fun _ => Iff.rfl) rfl rfl rfl rfl
    · exact tracked
  | registered =>
    have live : socket.state ≠ .closed := by
      rcases state with state | state <;> rw [state] <;> decide
    have last := (tracked.live s).mpr ⟨socket, held, live⟩
    have here : s ∈ n.confirmations ++ [s] := List.mem_append_right _ List.mem_cons_self
    refine ⟨tracked.live, tracked.waits, iff_of_true rfl ⟨s, last, here⟩, fun t member => ?_⟩
    rcases List.mem_append.mp member with member | member
    · exact tracked.confirmed t member
    · obtain rfl := List.mem_singleton.mp member
      exact (List.getElem?_eq_some_iff.mp held).1
  | other => exact tracked

theorem next_tracked (tracked : n.Tracked) (clean : n.Clean event)
    (step : n.next sign event = some m) : m.Tracked := by
  cases event with
  | startListening =>
    obtain rfl := Option.some.inj step
    obtain ⟨ended, idle⟩ := clean rfl
    have none : n.adnsWs = none := by
      cases last : n.adnsWs with
      | none => rfl
      | some s =>
        obtain ⟨socket, held, live⟩ := (tracked.live s).mp last
        exact absurd (ended socket (List.mem_of_getElem? held)) live
    rw [connectToADNS, if_pos rfl]
    have start : Tracked { n with running := true, backoffs := n.backoffs ++ [1000] } :=
      tracked.congr rfl (fun _ => Iff.rfl) rfl rfl rfl rfl
    exact start.connect none idle _
  | stopListening =>
    simp only [next] at step
    split at step
    · obtain rfl := Option.some.inj step
      exact tracked.congr rfl (fun _ => live_abort_iff) (List.length_modify ..) rfl rfl rfl
    · obtain rfl := Option.some.inj step
      exact tracked.congr rfl (fun _ => Iff.rfl) rfl rfl rfl rfl
  | socket s socketEvent => exact socket_tracked tracked step
  | message s message => exact message_tracked tracked step
  | timeout k =>
    obtain ⟨timer, held, rfl⟩ := Option.map_eq_some_iff.mp step
    have inside : k < n.timers.length := (List.getElem?_eq_some_iff.mp held).1
    have idle : n.timers.eraseIdx k = [] := by
      rw [← List.length_eq_zero_iff, List.length_eraseIdx_of_lt inside]
      have single := tracked.waits.1
      omega
    have none : n.adnsWs = none := tracked.waits.2 (List.ne_nil_of_mem (List.mem_of_getElem? held))
    have start : Tracked { n with timers := n.timers.eraseIdx k } :=
      ⟨tracked.live, ⟨by simp [idle], fun _ => none⟩, tracked.registered, tracked.confirmed⟩
    exact start.connect none idle _

/-! ### What goes out on a socket -/

/-- Where neither frames nor challenges come in and no socket opens. -/
theorem Spoken.congr (spoken : n.Spoken sign) (sent : m.sent = n.sent)
    (challenges : m.challenges = n.challenges) (opened : ∀ s, m.opened s = n.opened s)
    (connecting : ∀ s, m.stateOf s = some .connecting →
      n.stateOf s = some .connecting ∨ m.opened s = false) : m.Spoken sign where
  frames s := by
    rw [sentOn, sent, opened s, challengesOn, challenges]
    exact spoken.frames s
  silent s never := by
    rw [challengesOn, challenges]
    exact spoken.silent s ((opened s).symm.trans never)
  connecting s fresh := (connecting s fresh).elim
    (fun fresh => (opened s).trans (spoken.connecting s fresh)) id

theorem Spoken.connect (spoken : n.Spoken sign) (call : ℕ) : (n.connect call).Spoken sign := by
  unfold RelayLink.connect
  split_ifs with running
  · refine spoken.congr rfl rfl (fun s => ?_) (fun s fresh => ?_)
    · simp only [opened]
      rcases lt_trichotomy s n.sockets.length with inside | rfl | outside
      · rw [List.getElem?_append_left inside]
      · simp
      · have grown : (n.sockets ++ [(⟨call, .connecting, false⟩ : RelaySocket)]).length ≤ s := by
          rw [List.length_append, List.length_singleton]
          exact outside
        rw [List.getElem?_eq_none grown, List.getElem?_eq_none outside.le]
    · simp only [stateOf, opened] at fresh ⊢
      rcases Nat.lt_or_ge s n.sockets.length with inside | outside
      · rw [List.getElem?_append_left inside] at fresh
        exact .inl fresh
      · rw [List.getElem?_append_right outside]
        cases s - n.sockets.length <;> simp
  · exact spoken

theorem opened_set {sockets : List RelaySocket} {s t : ℕ} {socket socket' : RelaySocket}
    (held : sockets[s]? = some socket) :
    (sockets.set s socket')[t]?.any RelaySocket.opened =
      if t = s then socket'.opened else sockets[t]?.any RelaySocket.opened := by
  obtain ⟨inside, rfl⟩ := List.getElem?_eq_some_iff.mp held
  rw [List.getElem?_set]
  split_ifs with same same'
  · rfl
  all_goals simp_all

theorem sentOn_snoc (n : RelayLink) (s t : ℕ) (frame : RelayFrame) :
    (n.send s frame).sentOn t = n.sentOn t ++ if s = t then [frame] else [] := by
  by_cases own : s = t <;> simp [sentOn, send, own]

/-- A socket opens: the handshake goes out on it, where it is the last that was made. -/
theorem opened_spoken (spoken : n.Spoken sign) {s : ℕ} {socket : RelaySocket}
    (held : n.sockets[s]? = some socket) (fresh : socket.state = .connecting)
    (last : n.adnsWs = some s) : (n.onSocket s socket .open .opened).Spoken sign := by
  let moved : RelayLink := { n with
    sockets := n.sockets.set s { socket with state := .open, opened := true }
    backoffs := n.backoffs.set socket.call 1000 }
  have inside : s < n.sockets.length := (List.getElem?_eq_some_iff.mp held).1
  have greets : n.onSocket s socket .open .opened = moved.send s .handshake := by
    rw [onSocket, broadcastDiscovery]
    simp [last, moved, stateOf, inside]
  have never : n.opened s = false := spoken.connecting s (by simp [stateOf, held, fresh])
  have opened (t : ℕ) : (moved.send s .handshake).opened t = if t = s then true else n.opened t :=
    opened_set held
  have before := spoken.frames s
  rw [never, spoken.silent s never] at before
  rw [greets]
  refine ⟨fun t => ?_, fun t closed => ?_, fun t connecting => ?_⟩
  · have sentOn : moved.sentOn t = n.sentOn t := rfl
    have challengesOn : (moved.send s .handshake).challengesOn t = n.challengesOn t := rfl
    rw [sentOn_snoc, sentOn, challengesOn, opened]
    by_cases own : t = s
    · subst own
      simp [before, spoken.silent t never]
    · rw [if_neg own, if_neg (Ne.symm own), List.append_nil]
      exact spoken.frames t
  · rw [opened] at closed
    split_ifs at closed
    exact spoken.silent t closed
  · rw [opened]
    have other : t ≠ s := by
      rintro rfl
      simp [stateOf, send, moved, inside] at connecting
    rw [if_neg other]
    refine spoken.connecting t ?_
    rwa [stateOf, send, List.getElem?_set_ne (Ne.symm other)] at connecting

theorem socket_spoken (spoken : n.Spoken sign) (tracked : n.Tracked) {s : ℕ}
    {socketEvent : SocketEvent} (step : n.next sign (.socket s socketEvent) = some m) :
    m.Spoken sign := by
  obtain ⟨socket, held, rest⟩ := Option.bind_eq_some_iff.mp step
  obtain ⟨state, emits, rfl⟩ := Option.map_eq_some_iff.mp rest
  have last := (tracked.live s).mpr ⟨socket, held, (socket_live emits).1⟩
  rcases SocketState.next_cases emits with ⟨rfl, fresh, rfl⟩ | ended
  · exact opened_spoken spoken held fresh last
  · have opened (t : ℕ) : (n.sockets.set s { socket with state })[t]?.any RelaySocket.opened =
        n.opened t := by
      rw [opened_set held]
      split_ifs with own
      · subst own
        simp [RelayLink.opened, held]
      · rfl
    have connecting (t : ℕ) (fresh : ((n.sockets.set s { socket with state })[t]?.map
        RelaySocket.state) = some .connecting) : n.stateOf t = some .connecting := by
      rw [List.getElem?_set] at fresh
      split_ifs at fresh with own
      · simp only [Option.map_some, Option.some.injEq] at fresh
        subst fresh
        simp at ended
      · cases fresh
      · exact fresh
    rcases ended with ⟨rfl, -⟩ | ⟨rfl, -⟩ | ⟨rfl, -⟩
    · exact spoken.congr rfl rfl opened fun t fresh => .inl (connecting t fresh)
    · exact spoken.congr rfl rfl opened fun t fresh => .inl (connecting t fresh)
    · rw [onSocket]
      dsimp only
      split_ifs
      · exact spoken.congr rfl rfl opened fun t fresh => .inl (connecting t fresh)
      · exact spoken.congr rfl rfl opened fun t fresh => .inl (connecting t fresh)

theorem message_spoken (spoken : n.Spoken sign) {s : ℕ} {message : RelayMessage}
    (step : n.next sign (.message s message) = some m) : m.Spoken sign := by
  obtain ⟨socket, held, rest⟩ := Option.bind_eq_some_iff.mp step
  obtain ⟨⟨once, -⟩, same⟩ := Option.ite_none_right_eq_some.mp rest
  obtain rfl := Option.some.inj same
  have opened : n.opened s = true := by simp [RelayLink.opened, held, once]
  cases message with
  | challenge nonce =>
    rw [onMessage]
    split_ifs
    · let asked : RelayLink := { n with challenges := n.challenges ++ [(s, nonce)] }
      have frame (t : ℕ) := sentOn_snoc asked s t (.response (signBytes sign (utf8 nonce)))
      have challenges (t : ℕ) : asked.challengesOn t =
          n.challengesOn t ++ if s = t then [nonce] else [] := by
        by_cases own : s = t <;> simp [asked, challengesOn, own]
      refine ⟨fun t => ?_, fun t closed => ?_, spoken.connecting⟩
      · have before : asked.sentOn t = n.sentOn t := rfl
        rw [frame t, before, spoken.frames t, List.append_assoc]
        refine congrArg _ ((?_ : _ = _).trans (congrArg (List.map _) (challenges t).symm))
        rw [List.map_append]
        split_ifs <;> rfl
      · have other : s ≠ t := by
          rintro rfl
          exact absurd (opened.symm.trans closed) nofun
        exact (challenges t).trans (by rw [if_neg other, List.append_nil, spoken.silent t closed])
    · exact spoken
  | registered => exact ⟨spoken.frames, spoken.silent, spoken.connecting⟩
  | other => exact spoken

theorem next_spoken (spoken : n.Spoken sign) (tracked : n.Tracked)
    (step : n.next sign event = some m) : m.Spoken sign := by
  cases event with
  | startListening =>
    obtain rfl := Option.some.inj step
    rw [connectToADNS, if_pos rfl]
    have start : Spoken sign { n with running := true, backoffs := n.backoffs ++ [1000] } :=
      ⟨spoken.frames, spoken.silent, spoken.connecting⟩
    exact start.connect _
  | stopListening =>
    simp only [next] at step
    split at step
    · obtain rfl := Option.some.inj step
      refine spoken.congr rfl rfl (fun s => ?_) (fun s fresh => ?_)
      · simp only [opened, List.getElem?_modify]
        cases n.sockets[s]? with
        | none => rfl
        | some socket => split_ifs <;> rfl
      · simp only [stateOf, List.getElem?_modify] at fresh ⊢
        cases held : n.sockets[s]? with
        | none => simp [held] at fresh
        | some socket =>
          rw [held] at fresh
          split_ifs at fresh
          · exact absurd (Option.some.inj fresh) (SocketState.abort_ne_connecting _)
          · exact .inl fresh
    · obtain rfl := Option.some.inj step
      exact ⟨spoken.frames, spoken.silent, spoken.connecting⟩
  | socket s socketEvent => exact socket_spoken spoken tracked step
  | message s message => exact message_spoken spoken step
  | timeout k =>
    obtain ⟨timer, -, rfl⟩ := Option.map_eq_some_iff.mp step
    have start : Spoken sign { n with timers := n.timers.eraseIdx k } :=
      ⟨spoken.frames, spoken.silent, spoken.connecting⟩
    exact start.connect _

/-- In any run in which a start waits for the connection before it to end: `_adnsWs` is the one
socket that is not closed; `_adnsRegistered` says whether the relay confirmed on that socket; and
each socket carries a handshake as it opens, and then the answers to the challenges it brings, in
their order, whichever sockets came before. -/
theorem speaks_on_each {events : List LinkEvent}
    (run : Run (Guarded (OfPartial (next sign)) Clean) init events n) :
    (∀ s, n.adnsWs = some s ↔ LiveAt n.sockets s) ∧
      (n.adnsRegistered = true ↔ ∃ s, n.adnsWs = some s ∧ s ∈ n.confirmations) ∧
      ∀ s, n.sentOn s = (if n.opened s then [.handshake] else []) ++
        (n.challengesOn s).map fun nonce => .response (signBytes sign (utf8 nonce)) := by
  have start : init.Tracked ∧ init.Spoken sign := by
    refine ⟨⟨fun s => iff_of_false nofun ?_, ⟨Nat.zero_le _, fun set => absurd rfl set⟩,
      iff_of_false nofun nofun, nofun⟩, ⟨fun s => rfl, fun s _ => rfl, fun s _ => rfl⟩⟩
    rintro ⟨socket, held, -⟩
    cases held
  have preserved (t : RelayLink) (event : LinkEvent) (u : RelayLink)
      (both : t.Tracked ∧ t.Spoken sign)
      (last : Guarded (OfPartial (next sign)) Clean t event u) : u.Tracked ∧ u.Spoken sign :=
    ⟨next_tracked both.1 last.2 last.1, next_spoken both.2 both.1 last.1⟩
  obtain ⟨tracked, spoken⟩ := run.invariant preserved start
  exact ⟨tracked.live, tracked.registered, spoken.frames⟩

instance (n : RelayLink) : Decidable n.Idle := inferInstanceAs (Decidable (_ ∧ _))

instance (n : RelayLink) (event : LinkEvent) : Decidable (n.Clean event) :=
  inferInstanceAs (Decidable (_ → _))

/-- The node answers a challenge, loses its connection, and speaks on the next. -/
def resumed : List LinkEvent :=
  [.startListening, .socket 0 .opened, .message 0 (.challenge "a"), .message 0 .registered,
    .socket 0 .closing, .socket 0 .closed, .timeout 0, .socket 1 .opened,
    .message 1 (.challenge "b")]

theorem speaks_on_each_resumed :
    let n := (runPartial (checked (next id) Clean) init resumed).get (by decide)
    n.adnsWs = some 1 ∧ n.adnsRegistered = false ∧ LiveAt n.sockets 1 := by
  intro n
  have run : Run (Guarded (OfPartial (next id)) Clean) init resumed n := run_get_checked (by decide)
  have last : n.adnsWs = some 1 := by decide
  exact ⟨last, by decide, ((speaks_on_each run).1 1).mp last⟩

/-- Where the start does not wait, the old socket's close hides the new socket, and no handshake
goes out on it. -/
example :
    (runPartial (next id) init (restarted ++ [.socket 0 .closed, .socket 1 .opened])).map
      (fun n => n.sentOn 1) = some [] := by decide

end RelayLink

end AgentTelepathy.TypeScript
