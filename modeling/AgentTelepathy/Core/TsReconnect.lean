import AgentTelepathy.Core.TsDelivery

/-!
# Reconnecting in the TypeScript node

`_reconnecting` holds the peers for which an attempt to connect is under way: a socket that is
connecting, or a timer. The set is what keeps a second `_reconnectAndDrain` from starting, so a
peer that is in it without an attempt is out of reach of its own queue.
-/

namespace AgentTelepathy.TypeScript

open Foundation Foundation.Transition

/-- The attempts of a reconnect that are under way for a peer. -/
def Reconnect.inProgress {P : Type*} [DecidableEq P] (p : P) (r : Reconnect P) : ℕ :=
  if r.targetId = p then r.sockets.count .connecting + r.timers.length else 0

namespace Delivery

variable {P E : Type*} [DecidableEq P] {validUrl : String → Bool} {n m : Delivery P E}
  {event : DeliveryEvent P E}

/-- The attempts to connect to a peer that are under way. -/
def attempts (n : Delivery P E) (p : P) : ℕ := (n.reconnects.map (Reconnect.inProgress p)).sum

/-- A socket of a reconnect fails after it had opened. -/
def lateError (n : Delivery P E) : DeliveryEvent P E → Bool
  | .reconnect i j .errored _ => n.stateOf (.reconnect i j) ≠ some .connecting
  | _ => false

/-- The `catch` of a dispatch to a peer is entered. -/
def Fails (n : Delivery P E) (p : P) : DeliveryEvent P E → Prop
  | .resume i ok => ∃ envelope, n.tasks[i]? = some (.failing p envelope) ∨
      ok = false ∧ ∃ ws, n.tasks[i]? = some (.sending p ws envelope)
  | _ => False

/-- The first attempt of `_reconnectAndDrain` throws: a dispatch to the peer fails while the
address under which it is registered is no URL. -/
def Throws (validUrl : String → Bool) (n : Delivery P E) (p : P) (event : DeliveryEvent P E) :
    Prop :=
  n.Fails p event ∧ n.running = true ∧ p ∉ n.reconnecting ∧
    ∃ address, n.peerRegistry.get? p = some address ∧ validUrl address = false

/-- The peer is in `_reconnecting`, and nothing is under way that could take it out. -/
def Wedged (n : Delivery P E) (p : P) : Prop := p ∈ n.reconnecting ∧ n.attempts p = 0

/-- A reconnect that has a socket or a timer has an address to connect to. -/
def Sound (validUrl : String → Bool) (n : Delivery P E) : Prop :=
  ∀ r ∈ n.reconnects, validUrl r.address = true ∨ r.sockets = [] ∧ r.timers = []

/-- What an event does to the reconnecting of a peer. -/
inductive Turn (validUrl : String → Bool) (p : P) (n : Delivery P E) (event : DeliveryEvent P E)
    (m : Delivery P E) : Prop
  | stays (mark : p ∈ m.reconnecting ↔ p ∈ n.reconnecting) (same : m.attempts p = n.attempts p)
      (queued : ∃ stored : List E, m.messageQueue.contents p =
        stored.foldl (Outbox.pushBack n.capacity) (n.messageQueue.contents p))
      (other : ¬ n.Throws validUrl p event)
  | begins (unmarked : p ∉ n.reconnecting) (marked : p ∈ m.reconnecting)
      (more : m.attempts p = n.attempts p + 1) (other : ¬ n.Throws validUrl p event)
  | throws (thrown : n.Throws validUrl p event) (marked : p ∈ m.reconnecting)
      (same : m.attempts p = n.attempts p)
  | ends (unmarked : p ∉ m.reconnecting) (fewer : n.attempts p = m.attempts p + 1)
      (other : ¬ n.Throws validUrl p event)

/-! ### Counting attempts -/

theorem count_set {sockets : List SocketState} {j : ℕ} {socket : SocketState}
    (held : sockets[j]? = some socket) (state : SocketState) :
    (sockets.set j state).count .connecting + [socket].count .connecting =
      sockets.count .connecting + [state].count .connecting := by
  induction sockets generalizing j with
  | nil => simp at held
  | cons first sockets ih =>
    cases j with
    | zero =>
      obtain rfl : first = socket := by simpa using held
      simp only [List.set_cons_zero, List.count_cons, List.count_nil]
      omega
    | succ j =>
      have later := ih (j := j) (by simpa using held)
      rw [List.set_cons_succ, List.count_cons, List.count_cons (l := sockets)]
      omega

theorem attempts_append (n : Delivery P E) (r : Reconnect P) (p : P) :
    attempts { n with reconnects := n.reconnects ++ [r] } p = n.attempts p + r.inProgress p := by
  simp [attempts]

/-- One reconnect of several goes on, with `less` attempts fewer. -/
theorem attempts_set {i : ℕ} {r r' : Reconnect P} (held : n.reconnects[i]? = some r) {p : P}
    (less : ℕ) (counted : r.inProgress p = r'.inProgress p + less) :
    n.attempts p = attempts { n with reconnects := n.reconnects.set i r' } p + less := by
  obtain ⟨others, before, after⟩ := Outbox.exists_sum_set (Reconnect.inProgress p) held
  rw [attempts, attempts, before, after, counted, add_assoc]

/-- One socket of a reconnect goes on, and its timers may change. -/
theorem inProgress_move {j : ℕ} {r : Reconnect P} {socket : SocketState}
    (held : r.sockets[j]? = some socket) (p : P) (state : SocketState) (backoff : ℕ)
    (timers : List ℕ) (less : ℕ)
    (counted : [socket].count .connecting + r.timers.length =
      [state].count .connecting + timers.length + less) :
    r.inProgress p = Reconnect.inProgress p { r with
      sockets := r.sockets.set j state
      backoff := backoff
      timers := timers } + if r.targetId = p then less else 0 := by
  have moved := count_set held state
  rw [Reconnect.inProgress, Reconnect.inProgress]
  dsimp only
  split_ifs
  · omega
  · rfl

/-- A socket that is closed is open or over. -/
theorem map_close (sockets : List SocketState) (j : ℕ) :
    (sockets.modify j SocketState.close).count .connecting = sockets.count .connecting := by
  induction sockets generalizing j with
  | nil => simp
  | cons first sockets ih =>
    cases j with
    | zero => cases first <;> simp [SocketState.close]
    | succ j => rw [List.modify_succ_cons, List.count_cons, List.count_cons, ih]

theorem attempts_close (n : Delivery P E) (ws : Ws) (p : P) :
    (n.close ws).attempts p = n.attempts p := by
  cases ws with
  | connection i => rfl
  | reconnect i j =>
    rw [attempts, attempts, close]
    congr 1
    apply List.ext_getElem?
    intro k
    rw [List.getElem?_map, List.getElem?_map, List.getElem?_modify]
    cases n.reconnects[k]? with
    | none => rfl
    | some r =>
      rw [Option.map_some]
      split_ifs
      · simp only [Option.map_eq_map, Option.map_some, Reconnect.inProgress, map_close]
      · rfl

/-! ### One event -/

/-- A turn is about the set, the reconnects and the queue. -/
theorem Turn.congr {p : P} {m' : Delivery P E} (turn : Turn validUrl p n event m)
    (reconnecting : m'.reconnecting = m.reconnecting) (reconnects : m'.reconnects = m.reconnects)
    (queue : m'.messageQueue = m.messageQueue) : Turn validUrl p n event m' := by
  have same : m'.attempts p = m.attempts p := by rw [attempts, attempts, reconnects]
  cases turn with
  | stays mark same' queued other =>
    exact .stays (reconnecting ▸ mark) (same.trans same') (queue ▸ queued) other
  | begins unmarked marked more other =>
    exact .begins unmarked (reconnecting ▸ marked) (same.trans more) other
  | throws thrown marked same' => exact .throws thrown (reconnecting ▸ marked) (same.trans same')
  | ends unmarked fewer other => exact .ends (reconnecting ▸ unmarked) (same ▸ fewer) other

/-- An event that is none of the peer's. -/
theorem Turn.of_eq {p : P} (reconnecting : m.reconnecting = n.reconnecting)
    (attempts : m.attempts p = n.attempts p) (queue : m.messageQueue = n.messageQueue)
    (other : ¬ n.Throws validUrl p event) : Turn validUrl p n event m :=
  .stays (by rw [reconnecting]) attempts ⟨[], by rw [queue]; rfl⟩ other

/-- A failing dispatch starts to reconnect, unless that is under way already or in vain. -/
theorem fail_turn {i : ℕ} {ok : Bool} {targetId : P} {envelope : E}
    (fails : ∀ p, n.Fails p (.resume i ok) ↔ p = targetId) (p : P) :
    Turn validUrl p n (.resume i ok) (n.fail validUrl targetId envelope) := by
  let queued : Delivery P E := { n with
    peerConnections := n.peerConnections.erase targetId
    messageQueue := n.messageQueue.enqueue targetId envelope }
  have contents : queued.messageQueue.contents targetId =
      [envelope].foldl (Outbox.pushBack n.capacity) (n.messageQueue.contents targetId) := by
    rw [MessageQueue.contents_enqueue, if_pos rfl]
    rfl
  have others (ne : p ≠ targetId) : queued.messageQueue.contents p =
      [].foldl (Outbox.pushBack n.capacity) (n.messageQueue.contents p) := by
    rw [MessageQueue.contents_enqueue, if_neg ne]
    rfl
  have filled : queued.messageQueue.hasMessages targetId = true := by
    rw [MessageQueue.hasMessages_eq_true_iff, contents]
    exact Outbox.pushBack_ne_nil
      (Nat.ne_of_gt (Nat.lt_of_lt_of_le Nat.zero_lt_one (le_max_right _ _))) _ _
  have result : n.fail validUrl targetId envelope = queued.reconnectAndDrain validUrl targetId :=
    rfl
  have added (address : String) (retries : ℕ) (sockets : List SocketState) :
      attempts { queued with reconnects :=
        n.reconnects ++ [⟨targetId, address, 1000, retries, sockets, []⟩] } p =
      n.attempts p + if targetId = p then sockets.count .connecting else 0 :=
    (attempts_append queued _ p).trans (by simp [Reconnect.inProgress, attempts, queued])
  have unfailed (ne : p ≠ targetId) : ¬ n.Throws validUrl p (.resume i ok) :=
    fun thrown => ne ((fails p).mp thrown.1)
  rw [result]
  rcases reconnectAndDrain_cases validUrl queued targetId with
    ⟨eq, already⟩ | ⟨unmarked, address, registered, ⟨idle, eq⟩ | ⟨valid, eq⟩ |
      ⟨running, invalid, eq⟩⟩
  all_goals rw [eq]
  all_goals by_cases own : p = targetId
  · subst own
    refine .stays Iff.rfl rfl ⟨[envelope], contents⟩ ?_
    rintro ⟨-, -, unmarked, address, registered, -⟩
    rcases already with marked | unknown
    · exact unmarked marked
    · rw [show n.peerRegistry.get? p = none from unknown] at registered
      cases registered
  · exact .stays Iff.rfl rfl ⟨[], others own⟩ (unfailed own)
  · subst own
    refine .stays Iff.rfl ((added address 0 []).trans (by simp)) ⟨[envelope], contents⟩ ?_
    exact fun thrown => idle ⟨thrown.2.1, filled⟩
  · refine .stays Iff.rfl ((added address 0 []).trans (by simp)) ⟨[], others own⟩ (unfailed own)
  · subst own
    refine .begins unmarked (Finset.mem_insert_self _ _)
      ((added address 1 [.connecting]).trans (by simp)) ?_
    rintro ⟨-, -, -, address', registered', invalid⟩
    obtain rfl : address = address' := Option.some.inj (registered.symm.trans registered')
    rw [valid] at invalid
    cases invalid
  · refine .stays (by simp [queued, own]) ((added address 1 [.connecting]).trans ?_)
      ⟨[], others own⟩ (unfailed own)
    rw [if_neg (Ne.symm own), add_zero]
  · subst own
    exact .throws ⟨(fails p).mpr rfl, running, unmarked, address, registered, invalid⟩
      (Finset.mem_insert_self _ _) ((added address 1 []).trans (by simp))
  · refine .stays (by simp [queued, own]) ((added address 1 []).trans (by simp))
      ⟨[], others own⟩ (unfailed own)

theorem resume_turn {i : ℕ} {ok : Bool} (step : n.next validUrl (.resume i ok) = some m) (p : P) :
    Turn validUrl p n (.resume i ok) m := by
  obtain ⟨task, running, rest⟩ := Option.bind_eq_some_iff.mp step
  obtain ⟨⟨n', task'⟩, resumed, rfl⟩ := Option.map_eq_some_iff.mp rest
  cases task with
  | creating targetId j envelope =>
    obtain ⟨resolved, -, same⟩ := Option.map_eq_some_iff.mp resumed
    obtain ⟨rfl, rfl⟩ := Prod.mk.inj same
    exact .of_eq rfl rfl rfl fun thrown => by simp [Throws, Fails, running] at thrown
  | joining targetId j envelope =>
    obtain ⟨resolved, -, same⟩ := Option.map_eq_some_iff.mp resumed
    obtain ⟨rfl, rfl⟩ := Prod.mk.inj same
    exact .of_eq rfl rfl rfl fun thrown => by simp [Throws, Fails, running] at thrown
  | sending targetId ws envelope =>
    obtain ⟨rfl, rfl⟩ := Prod.mk.inj (Option.some.inj resumed)
    cases ok with
    | true => exact .of_eq rfl rfl rfl fun thrown => by simp [Throws, Fails, running] at thrown
    | false =>
      have fails (p : P) : n.Fails p (.resume i false) ↔ p = targetId := by
        simp [Fails, running, eq_comm]
      exact (fail_turn fails p).congr rfl rfl rfl
  | failing targetId envelope =>
    obtain ⟨rfl, rfl⟩ := Prod.mk.inj (Option.some.inj resumed)
    have fails (p : P) : n.Fails p (.resume i ok) ↔ p = targetId := by
      simp [Fails, running, eq_comm]
    exact (fail_turn fails p).congr rfl rfl rfl
  | done => cases resumed

theorem reconnect_turn {i j sends : ℕ} {socketEvent : SocketEvent}
    (early : n.lateError (.reconnect i j socketEvent sends) = false)
    (step : n.next validUrl (.reconnect i j socketEvent sends) = some m) (p : P) :
    Turn validUrl p n (.reconnect i j socketEvent sends) m := by
  have unfailed : ¬ n.Throws validUrl p (.reconnect i j socketEvent sends) :=
    fun thrown => thrown.1
  obtain ⟨r, held, rest⟩ := Option.bind_eq_some_iff.mp step
  obtain ⟨socket, socketHeld, rest⟩ := Option.bind_eq_some_iff.mp rest
  obtain ⟨state, emits, rfl⟩ := Option.map_eq_some_iff.mp rest
  -- The attempts are as many as before where a timer takes the place of a socket.
  have even (backoff : ℕ) (timers : List ℕ)
      (counted : [socket].count .connecting + r.timers.length =
        [state].count .connecting + timers.length) :
      attempts { n with reconnects := n.reconnects.set i { r with
        sockets := r.sockets.set j state
        backoff := backoff
        timers := timers } } p = n.attempts p := by
    have same := attempts_set held _ (inProgress_move socketHeld p state backoff timers 0 counted)
    rwa [ite_self, add_zero, eq_comm] at same
  rcases SocketState.next_cases emits with
    ⟨rfl, rfl, rfl⟩ | ⟨rfl, rfl⟩ | ⟨rfl, ne, rfl⟩ | ⟨rfl, ne, rfl⟩
  · -- The socket opens, and the queue is drained.
    obtain ⟨q, sent, eq, -, others⟩ := drainNext_eq r.targetId sends { n with
      peerConnections := n.peerConnections.set r.targetId (.reconnect i j)
      reconnects := n.reconnects.set i
        { r with sockets := r.sockets.set j .open, backoff := 1000 } }
    have fewer := attempts_set held _ (inProgress_move socketHeld p .open 1000 r.timers 1
      (by simp [add_comm]))
    rw [onReconnect, eq]
    by_cases same : r.targetId = p
    · refine .ends (same ▸ Finset.notMem_erase _ _) ?_ unfailed
      rwa [if_pos same] at fewer
    · refine .stays (by simp [Ne.symm same]) ?_ ⟨[], others p (Ne.symm same)⟩ unfailed
      rw [if_neg same] at fewer
      exact fewer.symm
  · -- A timer takes the place of the socket.
    obtain rfl : socket = .connecting := by
      simpa [lateError, stateOf, held, socketHeld] using early
    exact .of_eq rfl (even _ _ (by simp; omega)) rfl unfailed
  · exact .of_eq rfl (even _ _ (by simp [ne])) rfl unfailed
  · exact .of_eq rfl (even _ _ (by simp [ne])) rfl unfailed

/-- A timer gives up, or is replaced by a socket: its address was good for a first one. -/
theorem timeout_turn {i k : ℕ} (sound : n.Sound validUrl)
    (step : n.next validUrl (.timeout i k) = some m) (p : P) :
    Turn validUrl p n (.timeout i k) m := by
  have unfailed : ¬ n.Throws validUrl p (.timeout i k) := fun thrown => thrown.1
  obtain ⟨r, held, rest⟩ := Option.bind_eq_some_iff.mp step
  dsimp only at rest
  split_ifs at rest with armed
  obtain rfl := Option.some.inj rest
  have fewer : (r.timers.eraseIdx k).length + 1 = r.timers.length := by
    rw [List.length_eraseIdx_of_lt armed]
    omega
  rcases attempt_cases validUrl n { r with timers := r.timers.eraseIdx k } with
    ⟨eq, -⟩ | ⟨-, eq⟩ | ⟨-, invalid, -⟩
  · rw [eq]
    by_cases own : r.targetId = p
    · refine .ends (own ▸ Finset.notMem_erase _ _) (attempts_set held 1 ?_) unfailed
      rw [Reconnect.inProgress, Reconnect.inProgress, if_pos own, if_pos own, ← fewer, add_assoc]
    · refine .stays (by simp [Ne.symm own]) (attempts_set held 0 ?_).symm ⟨[], rfl⟩ unfailed
      rw [Reconnect.inProgress, Reconnect.inProgress, if_neg own, if_neg own]
  · rw [eq]
    refine .of_eq rfl (attempts_set held 0 ?_).symm rfl unfailed
    simp only [Reconnect.inProgress, List.count_append, List.count_singleton_self]
    split_ifs <;> omega
  · rcases sound r (List.mem_of_getElem? held) with valid | ⟨-, none⟩
    · exact absurd (valid.symm.trans invalid) (by decide)
    · rw [none, List.length_nil] at armed
      omega

theorem dispatch_turn {targetId : P} {envelope : E}
    (step : n.next validUrl (.dispatch targetId envelope) = some m) (p : P) :
    Turn validUrl p n (.dispatch targetId envelope) m := by
  have unfailed : ¬ n.Throws validUrl p (.dispatch targetId envelope) := fun thrown => thrown.1
  rcases dispatchEnvelope_cases validUrl n targetId envelope with
    eq | ⟨connections, pending, task, eq, -⟩
  · rw [next, eq] at step
    obtain rfl := Option.some.inj step
    by_cases own : p = targetId
    · refine .stays Iff.rfl rfl ⟨[envelope], ?_⟩ unfailed
      rw [MessageQueue.contents_enqueue, if_pos own, own]
      rfl
    · refine .stays Iff.rfl rfl ⟨[], ?_⟩ unfailed
      rw [MessageQueue.contents_enqueue, if_neg own]
      rfl
  · rw [next, eq] at step
    obtain rfl := Option.some.inj step
    exact .of_eq rfl rfl rfl unfailed

theorem foldl_close_turn (ws : List Ws) (n : Delivery P E) :
    (ws.foldl close n).reconnecting = n.reconnecting ∧
      (ws.foldl close n).messageQueue = n.messageQueue ∧
      ∀ p, (ws.foldl close n).attempts p = n.attempts p := by
  induction ws generalizing n with
  | nil => exact ⟨rfl, rfl, fun _ => rfl⟩
  | cons first ws ih =>
    obtain ⟨connections, reconnects, closed⟩ := n.close_eq first
    obtain ⟨reconnecting, queue, attempts⟩ := ih (n.close first)
    refine ⟨reconnecting.trans ?_, queue.trans ?_,
      fun p => (attempts p).trans (attempts_close n first p)⟩
    · rw [closed]
    · rw [closed]

/-- An event that is no late error takes a turn of every peer. -/
theorem next_turn (sound : n.Sound validUrl) (early : n.lateError event = false)
    (step : n.next validUrl event = some m) (p : P) : Turn validUrl p n event m := by
  cases event with
  | dispatch targetId envelope => exact dispatch_turn step p
  | resume i ok => exact resume_turn step p
  | connection i socketEvent =>
    obtain ⟨c, -, rest⟩ := Option.bind_eq_some_iff.mp step
    obtain ⟨state, -, rfl⟩ := Option.map_eq_some_iff.mp rest
    cases socketEvent <;> exact .of_eq rfl rfl rfl fun thrown => thrown.1
  | reconnect i j socketEvent sends => exact reconnect_turn early step p
  | timeout i k => exact timeout_turn sound step p
  | registerPeer | handshake | startListening =>
    obtain rfl := Option.some.inj step
    exact .of_eq rfl rfl rfl fun thrown => thrown.1
  | removePeer agentId =>
    unfold next at step
    dsimp only at step
    split at step
    · rename_i ws _
      have attempts := attempts_close { n with peerRegistry := n.peerRegistry.erase agentId } ws p
      obtain ⟨connections, reconnects, closed⟩ :=
        close_eq { n with peerRegistry := n.peerRegistry.erase agentId } ws
      rw [closed] at step attempts
      obtain rfl := Option.some.inj step
      exact .of_eq rfl attempts rfl fun thrown => thrown.1
    · obtain rfl := Option.some.inj step
      exact .of_eq rfl rfl rfl fun thrown => thrown.1
  | stopListening =>
    obtain ⟨reconnecting, queue, attempts⟩ :=
      foldl_close_turn (n.peerConnections.items.map Prod.snd) { n with running := false }
    obtain rfl := Option.some.inj step
    exact .of_eq reconnecting (attempts p) queue fun thrown => thrown.1

/-! ### Addresses -/

omit [DecidableEq P] in
theorem Sound.close (sound : n.Sound validUrl) (ws : Ws) : (n.close ws).Sound validUrl := by
  cases ws with
  | connection i => exact sound
  | reconnect i j =>
    intro r member
    obtain ⟨k, there⟩ := List.mem_iff_getElem?.mp member
    rw [Delivery.close, List.getElem?_modify] at there
    obtain ⟨r', held, rfl⟩ := Option.map_eq_some_iff.mp there
    have before := sound r' (List.mem_of_getElem? held)
    split_ifs
    · refine before.imp id fun none => ⟨?_, none.2⟩
      rw [none.1, List.modify_nil]
    · exact before

theorem Sound.reconnectAndDrain (sound : n.Sound validUrl) (targetId : P) :
    (n.reconnectAndDrain validUrl targetId).Sound validUrl := by
  have appended (r : Reconnect P)
    (good : validUrl r.address = true ∨ r.sockets = [] ∧ r.timers = []) :
      ∀ r' ∈ n.reconnects ++ [r], validUrl r'.address = true ∨ r'.sockets = [] ∧
        r'.timers = [] := by
    intro r' member
    rcases List.mem_append.mp member with old | new
    · exact sound r' old
    · obtain rfl := List.mem_singleton.mp new
      exact good
  rcases reconnectAndDrain_cases validUrl n targetId with
    ⟨eq, -⟩ | ⟨-, address, -, ⟨-, eq⟩ | ⟨valid, eq⟩ | ⟨-, -, eq⟩⟩
  all_goals rw [eq]
  · exact sound
  · exact appended _ (.inr ⟨rfl, rfl⟩)
  · exact appended _ (.inl valid)
  · exact appended _ (.inr ⟨rfl, rfl⟩)

omit [DecidableEq P] in
theorem Sound.set (sound : n.Sound validUrl) {i : ℕ} {r : Reconnect P}
    (valid : validUrl r.address = true) :
    ∀ r' ∈ n.reconnects.set i r, validUrl r'.address = true ∨ r'.sockets = [] ∧ r'.timers = [] := by
  intro r' member
  rcases List.mem_or_eq_of_mem_set member with old | rfl
  · exact sound r' old
  · exact .inl valid

/-- Only an address that is a URL gets a socket, and so a timer. -/
theorem Sound.next (sound : n.Sound validUrl) (step : n.next validUrl event = some m) :
    m.Sound validUrl := by
  cases event with
  | dispatch targetId envelope =>
    rcases dispatchEnvelope_cases validUrl n targetId envelope with eq | ⟨_, _, task, eq, -⟩
    all_goals
      rw [Delivery.next, eq] at step
      obtain rfl := Option.some.inj step
      exact sound
  | resume i ok =>
    obtain ⟨task, -, rest⟩ := Option.bind_eq_some_iff.mp step
    obtain ⟨⟨n', task'⟩, resumed, rfl⟩ := Option.map_eq_some_iff.mp rest
    cases task with
    | creating | joining =>
      obtain ⟨resolved, -, same⟩ := Option.map_eq_some_iff.mp resumed
      obtain ⟨rfl, rfl⟩ := Prod.mk.inj same
      exact sound
    | sending targetId ws envelope =>
      obtain ⟨rfl, rfl⟩ := Prod.mk.inj (Option.some.inj resumed)
      cases ok with
      | true => exact sound
      | false => exact Sound.reconnectAndDrain (n := { n with
          peerConnections := n.peerConnections.erase targetId
          messageQueue := n.messageQueue.enqueue targetId envelope }) sound targetId
    | failing targetId envelope =>
      obtain ⟨rfl, rfl⟩ := Prod.mk.inj (Option.some.inj resumed)
      exact Sound.reconnectAndDrain (n := { n with
        peerConnections := n.peerConnections.erase targetId
        messageQueue := n.messageQueue.enqueue targetId envelope }) sound targetId
    | done => cases resumed
  | connection i socketEvent =>
    obtain ⟨c, -, rest⟩ := Option.bind_eq_some_iff.mp step
    obtain ⟨state, -, rfl⟩ := Option.map_eq_some_iff.mp rest
    cases socketEvent <;> exact sound
  | reconnect i j socketEvent sends =>
    obtain ⟨r, held, rest⟩ := Option.bind_eq_some_iff.mp step
    obtain ⟨socket, socketHeld, rest⟩ := Option.bind_eq_some_iff.mp rest
    obtain ⟨state, -, rfl⟩ := Option.map_eq_some_iff.mp rest
    have valid : validUrl r.address = true := by
      refine (sound r (List.mem_of_getElem? held)).resolve_right fun none => ?_
      rw [none.1] at socketHeld
      cases socketHeld
    cases socketEvent with
    | opened =>
      obtain ⟨q, sent, eq, -⟩ := drainNext_eq r.targetId sends { n with
        peerConnections := n.peerConnections.set r.targetId (.reconnect i j)
        reconnects := n.reconnects.set i
          { r with sockets := r.sockets.set j state, backoff := 1000 } }
      rw [onReconnect, eq]
      exact sound.set valid
    | closing | errored | closed => exact sound.set valid
  | timeout i k =>
    obtain ⟨r, held, rest⟩ := Option.bind_eq_some_iff.mp step
    dsimp only at rest
    split_ifs at rest with armed
    obtain rfl := Option.some.inj rest
    have valid : validUrl r.address = true := by
      refine (sound r (List.mem_of_getElem? held)).resolve_right fun none => ?_
      rw [none.2] at armed
      exact Nat.not_lt_zero k armed
    rcases attempt_cases validUrl n { r with timers := r.timers.eraseIdx k } with
      ⟨eq, -⟩ | ⟨-, eq⟩ | ⟨-, -, eq⟩
    all_goals
      rw [eq]
      exact sound.set valid
  | registerPeer | handshake | startListening =>
    obtain rfl := Option.some.inj step
    exact sound
  | removePeer agentId =>
    unfold Delivery.next at step
    dsimp only at step
    split at step
    · rename_i ws _
      obtain rfl := Option.some.inj step
      exact Sound.close (n := { n with peerRegistry := n.peerRegistry.erase agentId }) sound ws
    · obtain rfl := Option.some.inj step
      exact sound
  | stopListening =>
    obtain rfl := Option.some.inj step
    have closed (ws : List Ws) (n : Delivery P E) (sound : n.Sound validUrl) :
        (ws.foldl Delivery.close n).Sound validUrl := by
      induction ws generalizing n with
      | nil => exact sound
      | cons first ws ih => exact ih _ (sound.close first)
    exact closed _ { n with running := false } sound

/-! ### Runs -/

/-- No socket of a reconnect fails after it had opened. -/
def Early (n : Delivery P E) (event : DeliveryEvent P E) : Prop := n.lateError event = false

/-- Some event of a run made the first attempt to reconnect throw. -/
def Thrown (validUrl : String → Bool) (maxSize : ℕ) (p : P) (events : List (DeliveryEvent P E)) :
    Prop :=
  ∃ before event after m, events = before ++ event :: after ∧
    Run (OfPartial (next validUrl)) (init maxSize) before m ∧ m.Throws validUrl p event

theorem thrown_snoc {maxSize : ℕ} {p : P} {events : List (DeliveryEvent P E)}
    (run : Run (OfPartial (next validUrl)) (init maxSize) events n) :
    Thrown validUrl maxSize p (events ++ [event]) ↔
      Thrown validUrl maxSize p events ∨ n.Throws validUrl p event := by
  constructor
  · rintro ⟨before, event', after, m, all, reaches, thrown⟩
    rcases List.eq_nil_or_concat after with rfl | ⟨after', last, rfl⟩
    · obtain ⟨rfl, rfl⟩ := List.append_singleton_inj.mp all
      obtain rfl := run.unique reaches
      exact .inr thrown
    · rw [List.concat_eq_append, ← List.cons_append, ← List.append_assoc] at all
      obtain ⟨front, -⟩ := List.append_singleton_inj.mp all
      exact .inl ⟨before, event', after', m, front, reaches, thrown⟩
  · rintro (⟨before, event', after, m, rfl, reaches, thrown⟩ | thrown)
    · exact ⟨before, event', after ++ [event], m, by simp, reaches, thrown⟩
    · exact ⟨events, event, [], n, rfl, run, thrown⟩

/-- One event more, and what was thrown so far. -/
theorem reconnecting_invariant {maxSize : ℕ} {events : List (DeliveryEvent P E)}
    (run : Run (Guarded (OfPartial (next validUrl)) Early) (init maxSize) events n) (p : P) :
    n.Sound validUrl ∧ (Thrown validUrl maxSize p events → n.Wedged p) ∧
      (¬ Thrown validUrl maxSize p events →
        n.attempts p = if p ∈ n.reconnecting then 1 else 0) := by
  induction run with
  | nil =>
    refine ⟨fun r none => absurd none List.not_mem_nil, ?_, fun _ => rfl⟩
    rintro ⟨before, event, after, m, all, -⟩
    exact absurd all (by simp)
  | @snoc events n m event before last ih =>
    obtain ⟨sound, wedged, counted⟩ := ih
    refine ⟨sound.next last.1, ?_⟩
    have unthrown (free : ¬ n.Wedged p) : ¬ Thrown validUrl maxSize p events :=
      fun thrown => free (wedged thrown)
    rw [thrown_snoc before.of_guarded]
    cases next_turn sound last.2 last.1 p with
    | stays mark same _ other =>
      rw [or_iff_left other]
      refine ⟨fun thrown => ⟨mark.mpr (wedged thrown).1, same.trans (wedged thrown).2⟩, ?_⟩
      intro none
      rw [same, counted none]
      simp only [mark]
    | begins unmarked marked more other =>
      have none := unthrown fun wedged => unmarked wedged.1
      rw [or_iff_left other]
      refine ⟨fun thrown => absurd thrown none, fun _ => ?_⟩
      rw [more, counted none, if_neg unmarked, if_pos marked]
    | throws thrown marked same =>
      have none := unthrown fun wedged => thrown.2.2.1 wedged.1
      refine ⟨fun _ => ⟨marked, ?_⟩, fun not => absurd (.inr thrown) not⟩
      rw [same, counted none, if_neg thrown.2.2.1]
    | ends unmarked fewer other =>
      have none := unthrown fun wedged => by
        rw [wedged.2] at fewer
        omega
      rw [or_iff_left other]
      refine ⟨fun thrown => absurd thrown none, fun _ => ?_⟩
      have few := counted none
      rw [if_neg unmarked]
      split_ifs at few <;> omega

/-- In any run in which no socket of a reconnect fails after it had opened: a peer is in
`_reconnecting` with no attempt under way exactly if a dispatch to it failed, while it was not
reconnecting, under an address that is no URL. Any other peer in the set has exactly one attempt
under way, a connecting socket or a timer, and a peer that is not in the set has none. -/
theorem wedged_iff_thrown {maxSize : ℕ} {events : List (DeliveryEvent P E)}
    (run : Run (Guarded (OfPartial (next validUrl)) Early) (init maxSize) events n) (p : P) :
    (n.Wedged p ↔ Thrown validUrl maxSize p events) ∧
      (¬ n.Wedged p → n.attempts p = if p ∈ n.reconnecting then 1 else 0) := by
  obtain ⟨-, wedged, counted⟩ := reconnecting_invariant run p
  have only : n.Wedged p → Thrown validUrl maxSize p events := by
    intro stuck
    by_contra none
    have one := counted none
    rw [if_pos stuck.1, stuck.2] at one
    omega
  exact ⟨⟨only, wedged⟩, fun free => counted fun thrown => free (wedged thrown)⟩

/-- Once a peer is wedged it stays so, whatever address is registered for it later, and nothing of
what is queued for it is ever drained: its queue only takes more envelopes, and loses the oldest
where it is full. -/
theorem wedged_never_drains {maxSize : ℕ} {events later : List (DeliveryEvent P E)} {p : P}
    (run : Run (Guarded (OfPartial (next validUrl)) Early) (init maxSize) events n)
    (wedged : n.Wedged p) (more : Run (Guarded (OfPartial (next validUrl)) Early) n later m) :
    m.Wedged p ∧ ∃ stored : List E, m.messageQueue.contents p =
      stored.foldl (Outbox.pushBack n.capacity) (n.messageQueue.contents p) := by
  have start := (reconnecting_invariant run p).1
  suffices whole : m.Sound validUrl ∧ m.capacity = n.capacity ∧ m.Wedged p ∧
      ∃ stored : List E, m.messageQueue.contents p =
        stored.foldl (Outbox.pushBack n.capacity) (n.messageQueue.contents p) from
    whole.2.2
  induction more with
  | nil => exact ⟨start, rfl, wedged, [], rfl⟩
  | @snoc later m m' event before last ih =>
    obtain ⟨sound, capacity, wedged, stored, queue⟩ := ih
    refine ⟨sound.next last.1, (next_moves last.1 p).2.trans capacity, ?_⟩
    cases next_turn sound last.2 last.1 p with
    | stays mark same queued _ =>
      obtain ⟨stored', queue'⟩ := queued
      refine ⟨⟨mark.mpr wedged.1, same.trans wedged.2⟩, stored ++ stored', ?_⟩
      rw [queue', queue, List.foldl_append, capacity]
    | begins unmarked => exact absurd wedged.1 unmarked
    | throws thrown => exact absurd wedged.1 thrown.2.2.1
    | ends _ fewer =>
      rw [wedged.2] at fewer
      omega

instance (n : Delivery P E) (event : DeliveryEvent P E) : Decidable (Early n event) :=
  inferInstanceAs (Decidable (_ = _))

instance (n : Delivery P E) (p : P) : Decidable (n.Wedged p) :=
  inferInstanceAs (Decidable (_ ∧ _))

/-- The peer registers by a handshake; its first envelope fails and throws. -/
def answered : List (DeliveryEvent Bool ℕ) :=
  [.startListening, .handshake true, .dispatch true 1, .resume 0 true]

/-- Then it is registered with its address: the next envelope is sent, the first is not. -/
def corrected : List (DeliveryEvent Bool ℕ) :=
  [.registerPeer true "ws://peer", .dispatch true 2, .connection 0 .opened, .resume 1 true,
    .resume 1 true]

theorem wedged_iff_thrown_answered :
    let n := (runPartial (checked (next (· ≠ "")) Early) (init 500) answered).get (by decide)
    n.Wedged true ∧ Thrown (· ≠ "") 500 true answered := by
  intro n
  have run : Run (Guarded (OfPartial (next (· ≠ ""))) Early) (init 500) answered n :=
    run_get_checked (by decide)
  have wedged : n.Wedged true := by decide
  exact ⟨wedged, (wedged_iff_thrown run true).1.mp wedged⟩

theorem wedged_never_drains_corrected :
    let n := (runPartial (checked (next (· ≠ "")) Early) (init 500) answered).get (by decide)
    let m := (runPartial (checked (next (· ≠ "")) Early) n corrected).get (by decide)
    m.sentTo true = [2] ∧ m.messageQueue.contents true = [1] ∧ m.Wedged true := by
  intro n m
  have run : Run (Guarded (OfPartial (next (· ≠ ""))) Early) (init 500) answered n :=
    run_get_checked (by decide)
  have more : Run (Guarded (OfPartial (next (· ≠ ""))) Early) n corrected m :=
    run_get_checked (by decide)
  exact ⟨by decide, by decide, (wedged_never_drains run (by decide) more).1⟩

end Delivery

end AgentTelepathy.TypeScript
