import AgentTelepathy.Foundation.Owners
import AgentTelepathy.Foundation.Pool
import AgentTelepathy.Foundation.Transition

/-!
# Connections of the Go node

`Connect` and `handleUpgrade` put a connection into `peers`, under its URL or its remote
address, and start its read loop. A read loop that returns deletes the entry under the key
of its connection, whichever connection is there by then. `Stop` closes the connections
that it finds in `peers`, and waits for all read loops.
-/

namespace AgentTelepathy.Go

open Foundation Transition

/-- Where a `readLoop` is. -/
inductive ReadLoop
  | reading
  /-- `ReadMessage` has returned an error, and the deferred functions are to run. -/
  | returning
  | done
deriving DecidableEq

/-- The steps that a read loop still has to take. -/
def ReadLoop.steps : ReadLoop → ℕ
  | .reading => 2
  | .returning => 1
  | .done => 0

/-- A connection with the key under which it was put into `peers`. -/
structure Conn where
  peerID : String
  readLoop : ReadLoop
  /-- `conn.Close()` was called. -/
  closed : Bool
deriving DecidableEq

/-- The part of a node that is about connections, which are numbered as they come. -/
structure Connections where
  allowedOrigins : List String
  conns : List Conn
  peers : Dict String ℕ
  /-- The goroutine of `Listen` runs `Serve`. -/
  serving : Bool
deriving DecidableEq

/-- What can happen before `Stop`: calls of `Listen` and `Connect`, requests to upgrade,
and the steps of the read loop of a connection. -/
inductive ConnEvent
  | listen
  | connect (peerURL : String)
  | upgrade (origin remoteAddr : String)
  | readError (i : ℕ)
  | exit (i : ℕ)
deriving DecidableEq

namespace Connections

/-- `NewTPCPNode`, with the origins that it allows. -/
def init (allowedOrigins : List String) : Connections := ⟨allowedOrigins, [], Dict.empty, false⟩

/-- A new connection is put into `peers`, and its read loop starts. -/
def add (n : Connections) (peerID : String) : Connections :=
  { n with
    conns := n.conns ++ [⟨peerID, .reading, false⟩]
    peers := n.peers.set peerID n.conns.length }

/-- `Connect(peerURL)`, after the dial. -/
def connect (n : Connections) (peerURL : String) : Connections := n.add peerURL

/-- `CheckOrigin`; a request without an origin has the empty one. -/
def checkOrigin (n : Connections) (origin : String) : Bool :=
  if origin = "" then true
  else if n.allowedOrigins.length = 0 then false
  else n.allowedOrigins.any fun allowed => origin = allowed

/-- `handleUpgrade` -/
def handleUpgrade (n : Connections) (origin remoteAddr : String) : Connections :=
  if n.checkOrigin origin then n.add remoteAddr else n

/-- The deferred functions of the read loop of a connection. -/
def cleanUp (n : Connections) (i : ℕ) (c : Conn) : Connections :=
  if n.peers.contains c.peerID then
    { n with
      conns := n.conns.set i { c with closed := true, readLoop := .done }
      peers := n.peers.erase c.peerID }
  else { n with conns := n.conns.set i { c with readLoop := .done } }

/-- What an event makes of the connections, if it is possible. -/
def next (n : Connections) : ConnEvent → Option Connections
  -- A second call of `Listen` closes the channel `Ready` again, which panics.
  | .listen => if n.serving then none else some { n with serving := true }
  | .connect peerURL => some (n.connect peerURL)
  | .upgrade origin remoteAddr =>
    if n.serving then some (n.handleUpgrade origin remoteAddr) else none
  | .readError i => do
    let c ← n.conns[i]?
    if c.readLoop = .reading then
      some { n with conns := n.conns.set i { c with readLoop := .returning } }
    else none
  | .exit i => do
    let c ← n.conns[i]?
    if c.readLoop = .returning then some (n.cleanUp i c) else none

/-- The counter of `wg`. -/
def waitGroup (n : Connections) : ℕ :=
  Pool.total (fun c => if c.readLoop = .done then 0 else 1) n.conns + n.serving.toNat

/-- `Stop()` up to `wg.Wait()`: `Serve` returns, and the connections in `peers` are closed. -/
def stop (n : Connections) : Connections :=
  { n with
    conns := n.conns.mapIdx fun i c =>
      if i ∈ n.peers.items.map Prod.snd then { c with closed := true } else c
    peers := Dict.empty
    serving := false }

/-- What the node does on its own: the read loop of a closed connection returns. -/
def Own (n : Connections) : ConnEvent → Prop
  | .readError i => ∃ c, n.conns[i]? = some c ∧ c.closed = true
  | .exit _ => True
  | _ => False

/-- `wg.Wait()` returns, even if no peer does anything: the read loops take a bounded number
of steps, and when they can take no more the counter is zero. -/
structure StopReturns (n : Connections) : Prop where
  bounded : ∀ events t, Run (Guarded (OfPartial next) Own) n.stop events t →
    events.length ≤ 2 * n.conns.length
  waits : ∀ events t, Run (Guarded (OfPartial next) Own) n.stop events t →
    (∀ e u, ¬ Guarded (OfPartial next) Own t e u) → t.waitGroup = 0

/-- Each connection with a running read loop is in `peers`, `Stop` closes it and returns,
and a read loop that ends takes no other connection out of `peers`. -/
structure Tracked (n : Connections) : Prop where
  entry : ∀ (i : ℕ) c, n.conns[i]? = some c → c.readLoop ≠ .done →
    ∃ peerID, n.peers.get? peerID = some i
  closed : ∀ (i : ℕ) c, n.conns[i]? = some c → c.readLoop ≠ .done →
    ∃ c', n.stop.conns[i]? = some c' ∧ c'.closed = true
  returns : n.StopReturns
  kept : ∀ i t, n.next (.exit i) = some t → ∀ peerID j, n.peers.get? peerID = some j → j ≠ i →
    t.peers.get? peerID = some j

/-- The key under which an event puts a new connection into `peers`. -/
def opens (n : Connections) : ConnEvent → Option String
  | .connect peerURL => some peerURL
  | .upgrade origin remoteAddr => if n.checkOrigin origin then some remoteAddr else none
  | _ => none

/-- No connection is opened under the key of one whose read loop still runs. -/
def Exclusive (n : Connections) (e : ConnEvent) : Prop :=
  ∀ peerID ∈ n.opens e, ∀ c ∈ n.conns, c.peerID = peerID → c.readLoop = .done

instance (n : Connections) (e : ConnEvent) : Decidable (n.Exclusive e) :=
  inferInstanceAs (Decidable (∀ peerID ∈ n.opens e, _))

variable {n t : Connections} {e : ConnEvent} {events : List ConnEvent} {i : ℕ} {c : Conn}

/-! ### One event -/

/-- What an event does: nothing to the connections, or one is added, or a read loop
returns, or it ends. -/
theorem next_cases (step : n.next e = some t) :
    (¬ n.Own e ∧ n.opens e = none ∧ t.conns = n.conns ∧ t.peers = n.peers) ∨
    (∃ peerID, ¬ n.Own e ∧ n.opens e = some peerID ∧ t = n.add peerID) ∨
    (∃ i c, e = .readError i ∧ n.conns[i]? = some c ∧ c.readLoop = .reading ∧
      t = { n with conns := n.conns.set i { c with readLoop := .returning } }) ∨
    ∃ i c, e = .exit i ∧ n.conns[i]? = some c ∧ c.readLoop = .returning ∧ t = n.cleanUp i c := by
  cases e with
  | listen =>
    obtain ⟨-, step⟩ := Option.ite_none_left_eq_some.mp step
    obtain rfl := Option.some.inj step
    exact .inl ⟨id, rfl, rfl, rfl⟩
  | connect peerURL =>
    obtain rfl := Option.some.inj step
    exact .inr (.inl ⟨peerURL, id, rfl, rfl⟩)
  | upgrade origin remoteAddr =>
    obtain ⟨-, step⟩ := Option.ite_none_right_eq_some.mp step
    obtain rfl := Option.some.inj step
    cases allowed : n.checkOrigin origin with
    | true =>
      have same : n.handleUpgrade origin remoteAddr = n.add remoteAddr := by
        simp [handleUpgrade, allowed]
      exact .inr (.inl ⟨remoteAddr, id, by simp [opens, allowed], same⟩)
    | false =>
      have same : n.handleUpgrade origin remoteAddr = n := by simp [handleUpgrade, allowed]
      rw [same]
      exact .inl ⟨id, by simp [opens, allowed], rfl, rfl⟩
  | readError i =>
    obtain ⟨c, here, step⟩ := Option.bind_eq_some_iff.mp step
    obtain ⟨reading, step⟩ := Option.ite_none_right_eq_some.mp step
    exact .inr (.inr (.inl ⟨i, c, rfl, here, reading, (Option.some.inj step).symm⟩))
  | exit i =>
    obtain ⟨c, here, step⟩ := Option.bind_eq_some_iff.mp step
    obtain ⟨returning, step⟩ := Option.ite_none_right_eq_some.mp step
    exact .inr (.inr (.inr ⟨i, c, rfl, here, returning, (Option.some.inj step).symm⟩))

theorem next_exit (here : n.conns[i]? = some c) (returning : c.readLoop = .returning) :
    n.next (.exit i) = some (n.cleanUp i c) := by
  simp [next, here, returning]

/-- The entries of `peers` name connections with their keys. -/
abbrev Named (n : Connections) : Prop := Owners.Named n.peers (n.conns.map Conn.peerID)

theorem named_init (allowedOrigins : List String) : (init allowedOrigins).Named :=
  Owners.named_empty _

theorem Named.add (named : n.Named) (peerID : String) : (n.add peerID).Named := by
  have come := Owners.Named.come named peerID
  rw [List.length_map] at come
  simpa [Connections.add, Connections.Named] using come

theorem Named.set {d : Conn} (named : n.Named) (here : n.conns[i]? = some c)
    (same : d.peerID = c.peerID) :
    Owners.Named n.peers ((n.conns.set i d).map Conn.peerID) := by
  rw [Owners.map_key_set here same]
  exact named

theorem Named.next (named : n.Named) (step : n.next e = some t) : t.Named := by
  obtain ⟨-, -, conns, peers⟩ | ⟨peerID, -, -, rfl⟩ | ⟨i, c, -, here, -, rfl⟩ |
    ⟨i, c, -, here, -, rfl⟩ := next_cases step
  · rw [Connections.Named, conns, peers]
    exact named
  · exact named.add peerID
  · exact named.set here rfl
  · unfold cleanUp
    split_ifs
    · have done := named.set (d := { c with closed := true, readLoop := .done }) here rfl
      exact Owners.Named.erase done c.peerID
    · exact named.set here rfl

/-! ### Which connections are listed -/

/-- Each connection with a running read loop is in `peers` under its key. -/
def Listed (n : Connections) : Prop :=
  ∀ (i : ℕ) c, n.conns[i]? = some c → c.readLoop ≠ .done → n.peers.get? c.peerID = some i

/-- A new connection takes away the entry of those with its key. -/
theorem listed_add_iff (listed : n.Listed) (peerID : String) :
    (n.add peerID).Listed ↔ ∀ c ∈ n.conns, c.peerID = peerID → c.readLoop = .done := by
  constructor
  · intro after c member same
    by_contra running
    -- The entry under the key is that of the new connection, not of this one.
    obtain ⟨i, here⟩ := List.mem_iff_getElem?.mp member
    have inside := (List.getElem?_eq_some_iff.mp here).1
    have entry : (n.peers.set peerID n.conns.length).get? c.peerID = some i :=
      after i c (by rw [add, List.getElem?_append_left inside, here]) running
    rw [same, Dict.get?_set_self] at entry
    exact Nat.ne_of_gt inside (Option.some.inj entry)
  · intro exclusive i c here running
    show (n.peers.set peerID n.conns.length).get? c.peerID = some i
    by_cases old : i < n.conns.length
    · rw [add, List.getElem?_append_left old] at here
      have other : c.peerID ≠ peerID := fun same =>
        running (exclusive c (List.mem_of_getElem? here) same)
      rw [Dict.get?_set_of_ne other]
      exact listed i c here running
    · -- The new connection.
      rw [add, List.getElem?_append_right (not_lt.mp old)] at here
      obtain rfl := List.mem_singleton.mp (List.mem_of_getElem? here)
      have inside : i - n.conns.length < 1 := (List.getElem?_eq_some_iff.mp here).1
      obtain rfl : i = n.conns.length := by omega
      exact Dict.get?_set_self _ _ _

/-- The connections with running read loops are still listed when one of them moves on. -/
theorem Listed.set {d : Conn} (listed : n.Listed) (here : n.conns[i]? = some c)
    (running : c.readLoop ≠ .done) (same : d.peerID = c.peerID) :
    Listed { n with conns := n.conns.set i d } := by
  intro j c' there running'
  rw [List.getElem?_set] at there
  split_ifs at there with isI inside
  · obtain rfl := Option.some.inj there
    rw [same, ← isI]
    exact listed i c here running
  · exact listed j c' there running'

/-- A listed read loop that ends takes its own entry away. -/
theorem Listed.cleanUp (listed : n.Listed) (here : n.conns[i]? = some c)
    (running : c.readLoop ≠ .done) : (n.cleanUp i c).Listed := by
  have own := listed i c here running
  have present : n.peers.contains c.peerID = true := by rw [Dict.contains, own]; rfl
  rw [Connections.cleanUp, if_pos present]
  intro j c' there running'
  rw [List.getElem?_set] at there
  split_ifs at there with isI inside
  · obtain rfl := Option.some.inj there
    exact absurd rfl running'
  · -- Another connection has its entry under another key.
    have other := listed j c' there running'
    refine Owners.get?_erase_iff c.peerID |>.mpr ⟨other, fun same => isI ?_⟩
    exact Option.some.inj (own.symm.trans (same ▸ other))

/-- An event keeps the connections listed exactly if it opens none under a key in use. -/
theorem listed_next_iff (listed : n.Listed) (step : n.next e = some t) :
    t.Listed ↔ n.Exclusive e := by
  obtain ⟨-, none, conns, peers⟩ | ⟨peerID, -, opened, rfl⟩ | ⟨i, c, rfl, here, reading, rfl⟩ |
    ⟨i, c, rfl, here, returning, rfl⟩ := next_cases step
  · refine iff_of_true ?_ fun peerID opened => ?_
    · rw [Listed, conns, peers]
      exact listed
    · rw [none] at opened
      cases opened
  · rw [listed_add_iff listed, Exclusive, opened]
    simp
  · exact iff_of_true (listed.set here (by simp [reading]) rfl) nofun
  · exact iff_of_true (listed.cleanUp here (by simp [returning])) nofun

/-! ### What `Stop` waits for -/

/-- The steps that all read loops still have to take. -/
def steps (n : Connections) : ℕ := Pool.total (fun c => c.readLoop.steps) n.conns

/-- `Stop` was called, and the connections that are still read from are closed. -/
structure Released (n : Connections) : Prop where
  peers : n.peers = Dict.empty
  serving : n.serving = false
  closed : ∀ (i : ℕ) c, n.conns[i]? = some c → c.readLoop = .reading → c.closed = true

theorem getElem?_stop (here : n.conns[i]? = some c) :
    n.stop.conns[i]? = some (if i ∈ n.peers.items.map Prod.snd then { c with closed := true }
      else c) := by
  rw [stop, List.getElem?_mapIdx, here]
  rfl

/-- A connection in `peers` is closed. -/
theorem closed_stop {peerID : String} (here : n.conns[i]? = some c)
    (entry : n.peers.get? peerID = some i) :
    n.stop.conns[i]? = some { c with closed := true } := by
  rw [getElem?_stop here, if_pos]
  exact List.mem_map.mpr ⟨(peerID, i), Dict.get?_eq_some_iff.mp entry, rfl⟩

theorem released_stop (listed : n.Listed) : n.stop.Released := by
  refine ⟨rfl, rfl, fun i c here reading => ?_⟩
  have inside := (List.getElem?_eq_some_iff.mp here).1
  have inside' : i < n.conns.length := by simpa [stop] using inside
  have before : n.conns[i]? = some (n.conns[i]) := List.getElem?_eq_getElem inside'
  have stopped := getElem?_stop before
  rw [here] at stopped
  -- `Stop` moves no read loop, so one that reads was running before.
  have running : (n.conns[i]).readLoop ≠ .done := by
    intro done
    obtain rfl := Option.some.inj stopped
    split_ifs at reading <;> simp [done] at reading
  have closed := closed_stop before (listed i _ before running)
  rw [here] at closed
  obtain rfl := Option.some.inj closed
  rfl

/-- What a released node does on its own: a read loop takes one of its steps. -/
theorem Released.next (released : n.Released) (step : Guarded (OfPartial next) Own n e t) :
    t.Released ∧ t.steps + 1 = n.steps := by
  have moved {i : ℕ} {c d : Conn} (here : n.conns[i]? = some c) (notReading : d.readLoop ≠ .reading)
      (fewer : d.readLoop.steps + 1 = c.readLoop.steps) :
      Released { n with conns := n.conns.set i d } ∧
        steps { n with conns := n.conns.set i d } + 1 = n.steps := by
    refine ⟨⟨released.peers, released.serving, fun j c' there reading => ?_⟩, ?_⟩
    · rw [List.getElem?_set] at there
      split_ifs at there
      · obtain rfl := Option.some.inj there
        exact absurd reading notReading
      · exact released.closed j c' there reading
    · have total := Pool.total_set (f := fun c => c.readLoop.steps) here d
      unfold steps
      dsimp only at total ⊢
      omega
  obtain ⟨step, own⟩ := step
  obtain ⟨notOwn, -⟩ | ⟨peerID, notOwn, -⟩ | ⟨i, c, rfl, here, reading, rfl⟩ |
    ⟨i, c, rfl, here, returning, rfl⟩ := next_cases step
  · exact absurd own notOwn
  · exact absurd own notOwn
  · exact moved here nofun (by rw [reading]; rfl)
  · -- `peers` is empty, so the deferred function finds nothing to delete.
    have absent : n.peers.contains c.peerID = false := by rw [released.peers]; rfl
    rw [cleanUp, absent]
    exact moved here nofun (by rw [returning]; rfl)

theorem Released.run (released : n.Released)
    (run : Run (Guarded (OfPartial Connections.next) Own) n events t) :
    t.Released ∧ t.steps + events.length = n.steps := by
  induction run with
  | nil => exact ⟨released, rfl⟩
  | snoc _ last ih =>
    obtain ⟨before, counted⟩ := ih
    obtain ⟨after, fewer⟩ := before.next last
    refine ⟨after, ?_⟩
    rw [List.length_append, List.length_singleton]
    omega

/-- A released node whose read loops can go no further has none that runs. -/
theorem Released.waitGroup_eq_zero (released : n.Released)
    (stuck : ∀ e u, ¬ Guarded (OfPartial Connections.next) Own n e u) : n.waitGroup = 0 := by
  have ended : ∀ c ∈ n.conns, (if c.readLoop = .done then 0 else 1) = 0 := by
    intro c member
    obtain ⟨i, here⟩ := List.mem_iff_getElem?.mp member
    cases running : c.readLoop with
    | done => rfl
    | reading =>
      -- The connection is closed, so `ReadMessage` can return an error.
      have closed := released.closed i c here running
      refine absurd ⟨?_, c, here, closed⟩ (stuck (.readError i)
        { n with conns := n.conns.set i { c with readLoop := .returning } })
      simp [OfPartial, Connections.next, here, running]
    | returning => exact absurd ⟨next_exit here running, trivial⟩ (stuck (.exit i) _)
  rw [waitGroup, released.serving, Pool.total_eq_zero_iff.mpr ended]
  rfl

theorem Listed.stopReturns (listed : n.Listed) : n.StopReturns := by
  have released := released_stop listed
  refine ⟨fun events t run => ?_, fun events t run stuck => ?_⟩
  · obtain ⟨-, counted⟩ := released.run run
    have most (c : Conn) : c.readLoop.steps ≤ 2 := by cases c.readLoop <;> decide
    have bound := Pool.total_le_mul most n.stop.conns
    have length : n.stop.conns.length = n.conns.length := List.length_mapIdx
    have counted' : t.steps + events.length ≤ 2 * n.conns.length := by
      rw [counted, ← length]
      exact bound
    omega
  · exact (released.run run).1.waitGroup_eq_zero stuck

/-! ### Runs -/

/-- Being in `peers` is what the rest follows from. -/
theorem tracked_iff_listed (named : n.Named) : n.Tracked ↔ n.Listed := by
  constructor
  · intro tracked i c here running
    exact (Owners.Named.exists_iff named (Owners.getElem?_key here)).mp
      (tracked.entry i c here running)
  · intro listed
    refine ⟨fun i c here running => ⟨c.peerID, listed i c here running⟩,
      fun i c here running => ⟨_, closed_stop here (listed i c here running), rfl⟩,
      listed.stopReturns, fun i t step peerID j found other => ?_⟩
    obtain ⟨notOwn, -⟩ | ⟨_, notOwn, -⟩ | ⟨_, _, different, -⟩ |
      ⟨i', c, same, here, returning, rfl⟩ := next_cases step
    · exact absurd trivial notOwn
    · exact absurd trivial notOwn
    · cases different
    · cases same
      -- The entry under the key of the connection is its own, so it deletes no other.
      have own := listed i c here (by simp [returning])
      have differs : peerID ≠ c.peerID := by
        rintro rfl
        exact other (Option.some.inj (found.symm.trans own))
      rw [cleanUp]
      split_ifs
      · exact Owners.get?_erase_iff c.peerID |>.mpr ⟨found, differs⟩
      · exact found

/-- In every run, the connections are tracked in every state exactly if none is opened
under the key of one whose read loop still runs. -/
theorem tracked_iff_exclusive {allowedOrigins : List String}
    (run : Run (OfPartial next) (init allowedOrigins) events t) :
    Throughout (OfPartial next) Tracked (init allowedOrigins) events ↔
      Run (Guarded (OfPartial next) Exclusive) (init allowedOrigins) events t := by
  refine run.throughout_iff (functional_ofPartial next) (fun _ _ _ => Named.next) ?_
    (named_init allowedOrigins) ?_
  · intro n e t named tracked step
    rw [tracked_iff_listed (named.next step)]
    exact listed_next_iff ((tracked_iff_listed named).mp tracked) step
  · exact (tracked_iff_listed (named_init allowedOrigins)).mpr nofun

/-- A node connects to a peer, loses the connection, and connects again after its read loop
has ended; another peer connects meanwhile. -/
def reconnected : List ConnEvent :=
  [.listen, .connect "ws://10.0.0.1:8765", .readError 0, .upgrade "" "10.0.0.2:50000", .exit 0,
    .connect "ws://10.0.0.1:8765"]

theorem tracked_iff_exclusive_reconnected :
    ∃ t, Throughout (OfPartial next) Tracked (init []) reconnected ∧
      Run (OfPartial next) (init []) reconnected t ∧ t.peers.size = 2 := by
  have follows : ((runPartial (checked next Exclusive) (init []) reconnected).any
      fun t => t.peers.size = 2) = true := by decide
  obtain ⟨t, run, size⟩ := exists_guarded_of_any follows
  exact ⟨t, (tracked_iff_exclusive run.of_guarded).mpr run, run.of_guarded, of_decide_eq_true size⟩

/-- Two connections to one URL, of which `peers` has the second one. -/
def twice : Connections where
  allowedOrigins := []
  conns := [⟨"ws://a", .reading, false⟩, ⟨"ws://a", .reading, false⟩]
  peers := Dict.ofItems [("ws://a", 1)]
  serving := false

/-- `Stop` waits for ever, as the read loop of the first connection still runs. -/
theorem not_stopReturns_twice : ¬ twice.StopReturns := by
  intro returns
  let s : Connections :=
    { twice with
      conns := [⟨"ws://a", .reading, false⟩, ⟨"ws://a", .done, true⟩]
      peers := Dict.empty }
  have failed : Guarded (OfPartial next) Own twice.stop (.readError 1)
      { s with conns := [⟨"ws://a", .reading, false⟩, ⟨"ws://a", .returning, true⟩] } :=
    ⟨rfl, _, rfl, rfl⟩
  have run : Run (Guarded (OfPartial next) Own) twice.stop [.readError 1, .exit 1] s :=
    (Run.single failed).snoc ⟨rfl, trivial⟩
  have stuck : ∀ e u, ¬ Guarded (OfPartial next) Own s e u := by
    rintro e u ⟨step, own⟩
    obtain ⟨notOwn, -⟩ | ⟨_, notOwn, -⟩ | ⟨i, c, rfl, here, reading, -⟩ |
      ⟨i, c, -, here, returning, -⟩ := next_cases step
    · exact notOwn own
    · exact notOwn own
    · obtain ⟨c', here', closed⟩ := own
      obtain rfl := Option.some.inj (here.symm.trans here')
      have member := List.mem_of_getElem? here
      simp only [s, List.mem_cons, List.not_mem_nil, or_false] at member
      rcases member with rfl | rfl
      · cases closed
      · cases reading
    · have member := List.mem_of_getElem? here
      simp only [s, List.mem_cons, List.not_mem_nil, or_false] at member
      rcases member with rfl | rfl <;> cases returning
  exact absurd (returns.waits _ s run stuck) (by decide)

/-- A second connection to a URL takes the first one out of `peers`, and `Stop` waits for it;
or the first one, which was lost, takes out the second one at its end. -/
theorem not_tracked_twice :
    ∃ t, Run (OfPartial next) (init []) [.connect "ws://a", .connect "ws://a"] t ∧
      ¬ t.Tracked ∧ ¬ t.StopReturns ∧ ∃ u, Run (OfPartial next) t [.readError 0, .exit 0] u ∧
        u.conns[1]? = some ⟨"ws://a", .reading, false⟩ ∧ u.peers = Dict.empty := by
  refine ⟨twice, run_of_runPartial rfl, fun tracked => not_stopReturns_twice tracked.returns,
    not_stopReturns_twice, ?_⟩
  exact ⟨_, run_get (by decide), rfl, rfl⟩

end Connections

end AgentTelepathy.Go
