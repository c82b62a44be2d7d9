import AgentTelepathy.Foundation.Recollection
import AgentTelepathy.Foundation.Transition
import AgentTelepathy.Schemas.Envelope
import AgentTelepathy.Security.TsIdentity

/-!
# Inbound frames of the TypeScript node

`_handleInbound` does not await anything before an envelope is routed, so frames are handled one
after the other. A frame that is an envelope with a new id is recorded, whatever follows; then
its ttl is checked and, unless it is a handshake, its signature under the key that the registry
has for its sender. A handshake registers the key that its payload carries, if the payload is
signed with that key. An interval deletes the ids that were recorded more than 300 s ago.
-/

namespace AgentTelepathy.TypeScript

open Foundation Transition Recollection

/-- A `TPCPEnvelope` as `TPCPEnvelopeSchema.parse` returns it, by the fields that the node
reads. -/
structure TPCPEnvelope where
  messageId : String
  senderId : String
  intent : Intent
  ttl : ℕ
  payload : Ecma.Value
  signature : Option String

/-- What the platform gives: `JSON.parse`, `String(value)`, and
`nacl.sign.detached.verify`. -/
structure Platform where
  jsonParse : String → Option Json
  toText : Json → String
  nacl : Verifier

/-- An entry of `peerRegistry`; the key as `atob` reads it. -/
structure Peer where
  publicKey : String
  address : String
deriving DecidableEq

/-- A value counts as true. -/
def truthy : Json → Bool
  | .null => false
  | .bool b => b
  | .int n => n ≠ 0
  | .float x => x.number ≠ .rat 0
  | .str s => s ≠ ""
  | .arr _ | .obj _ => true

namespace TPCPEnvelope

/-- The content of a text payload. -/
def textContent (e : TPCPEnvelope) : Option String :=
  if e.payload.json.get? "payload_type" = some (.str "text") then
    match e.payload.json.get? "content" with
    | some (.str content) => if content = "" then none else some content
    | _ => none
  else none

/-- The signature, unless it counts as false. -/
def signed (e : TPCPEnvelope) : Option String := e.signature.filter (· ≠ "")

end TPCPEnvelope

/-- The identity in the content of a handshake: its `agent_id`, and its key as text. -/
def Platform.identity (p : Platform) (content : String) : Option (Json × String) :=
  (p.jsonParse content).bind fun parsed =>
    match parsed.get? "agent_id", parsed.get? "framework", parsed.get? "public_key" with
    | some agentId, some framework, some publicKey =>
      if truthy agentId && truthy framework && truthy publicKey then
        some (agentId, p.toText publicKey)
      else none
    | _, _, _ => none

/-- The key that `_handleHandshake` registers for the sender, if it does. -/
def Platform.handshakeKey (p : Platform) (e : TPCPEnvelope) : Option String :=
  match e.textContent.bind p.identity, e.signed with
  | some (agentId, publicKey), some signature =>
    if verifySignature p.nacl publicKey signature e.payload && agentId = .str e.senderId then
      some publicKey
    else none
  | _, _ => none

/-- A `TPCPNode`, by the fields that `_handleInbound` uses, and what it did so far. -/
structure TPCPNode where
  peerRegistry : Dict String Peer
  seenMessages : Dict String ℤ
  /-- `Date.now()` -/
  now : ℤ
  /-- What was recorded in `_seenMessages` and deleted from it. -/
  acts : List (Act String ℤ)
  /-- The envelopes other than handshakes that were routed, and when. -/
  routed : List (TPCPEnvelope × ℤ)

/-- How a frame ends. -/
inductive Outcome where
  /-- `JSON.parse` or the schema throws. -/
  | invalid
  | duplicate
  | expired
  | unsigned
  | unregistered
  | forged
  | routed
deriving DecidableEq

namespace TPCPNode

/-- A node with an empty registry. -/
def initial (now : ℤ) : TPCPNode := ⟨Dict.empty, Dict.empty, now, [], []⟩

/-- `_seenMessages.set(messageId, Date.now())` -/
def record (n : TPCPNode) (messageId : String) : TPCPNode :=
  { n with
    seenMessages := n.seenMessages.set messageId n.now
    acts := n.acts ++ [.record messageId n.now] }

/-- `_routeIntent(envelope)` -/
def routeIntent (p : Platform) (n : TPCPNode) (e : TPCPEnvelope) : TPCPNode :=
  if e.intent = .handshake then
    match p.handshakeKey e with
    | some publicKey =>
      { n with peerRegistry := n.peerRegistry.set e.senderId ⟨publicKey, ""⟩ }
    | none => n
  -- The other intents merge, store or emit what the envelope carries.
  else { n with routed := n.routed ++ [(e, n.now)] }

/-- The checks of `_handleInbound` behind the replay check; nothing if they pass. -/
def refusal (p : Platform) (n : TPCPNode) (e : TPCPEnvelope) : Option Outcome :=
  if e.ttl = 0 then some .expired
  else if e.intent = .handshake then none
  else
    match e.signed with
    | none => some .unsigned
    | some signature =>
      match n.peerRegistry.get? e.senderId with
      | none => some .unregistered
      | some peer =>
        if verifySignature p.nacl peer.publicKey signature e.payload then none else some .forged

/-- `_handleInbound(rawMessage)`, for what the schema makes of the frame. -/
def handleInbound (p : Platform) (n : TPCPNode) (frame : Option TPCPEnvelope) :
    TPCPNode × Outcome :=
  match frame with
  | none => (n, .invalid)
  | some e =>
    if n.seenMessages.contains e.messageId then (n, .duplicate)
    else
      let n := n.record e.messageId
      match n.refusal p e with
      | some outcome => (n, outcome)
      | none => (n.routeIntent p e, .routed)

/-- What may happen next. -/
inductive Action where
  | frame (frame : Option TPCPEnvelope)
  | registerPeer (agentId publicKey address : String)
  | removePeer (agentId : String)
  /-- The callback of the cleanup interval. -/
  | cleanup
  | tick (now : ℤ)

/-- The node after an action; nothing where the action is not possible. -/
def step (p : Platform) (n : TPCPNode) : Action → Option TPCPNode
  | .frame frame => some (n.handleInbound p frame).1
  | .registerPeer agentId publicKey address =>
    some { n with peerRegistry := n.peerRegistry.set agentId ⟨publicKey, address⟩ }
  | .removePeer agentId => some { n with peerRegistry := n.peerRegistry.erase agentId }
  | .cleanup => some { n with
      seenMessages := n.seenMessages.filter fun entry => ¬ entry.2 < n.now - 300000
      acts := n.acts ++ [.sweep n.now] }
  | .tick now => if n.now ≤ now then some { n with now := now } else none

/-! ### What a frame does -/

variable {p : Platform} {n m : TPCPNode} {e : TPCPEnvelope} {action : Action}

/-- An envelope passes the checks of the gate: it is alive, and a handshake or signed with the
key of its sender. -/
def Passes (p : Platform) (n : TPCPNode) (e : TPCPEnvelope) : Prop :=
  0 < e.ttl ∧ (e.intent = .handshake ∨ ∃ signature peer, e.signed = some signature ∧
    n.peerRegistry.get? e.senderId = some peer ∧
      verifySignature p.nacl peer.publicKey signature e.payload = true)

theorem refusal_eq_none_iff : n.refusal p e = none ↔ n.Passes p e := by
  unfold refusal Passes
  by_cases expired : e.ttl = 0
  · simp [expired]
  · rw [if_neg expired, and_iff_right (Nat.pos_of_ne_zero expired)]
    by_cases handshake : e.intent = .handshake
    · simp [handshake]
    · rw [if_neg handshake, or_iff_right handshake]
      cases signature : e.signed with
      | none => simp
      | some text =>
        cases n.peerRegistry.get? e.senderId with
        | none => simp
        | some peer => simp

/-- A frame leaves the node as it is, or records its id and then registers the key of a
handshake, routes an envelope, or does nothing more. -/
theorem handleInbound_cases (p : Platform) (n : TPCPNode) (frame : Option TPCPEnvelope) :
    (n.handleInbound p frame).1 = n ∨ ∃ e, frame = some e ∧
      n.seenMessages.get? e.messageId = none ∧
      ((n.handleInbound p frame).1 = n.record e.messageId ∨
        (∃ publicKey, e.intent = .handshake ∧ 0 < e.ttl ∧ p.handshakeKey e = some publicKey ∧
          (n.handleInbound p frame).1 = { n.record e.messageId with
            peerRegistry := n.peerRegistry.set e.senderId ⟨publicKey, ""⟩ }) ∨
        (e.intent ≠ .handshake ∧ n.Passes p e ∧ (n.handleInbound p frame).1 =
          { n.record e.messageId with routed := n.routed ++ [(e, n.now)] })) := by
  cases frame with
  | none => exact .inl rfl
  | some e =>
    by_cases seen : n.seenMessages.contains e.messageId = true
    · exact .inl (by simp [handleInbound, seen])
    · have absent : n.seenMessages.get? e.messageId = none := by
        rwa [Bool.not_eq_true, Dict.contains, Option.isSome_eq_false_iff,
          Option.isNone_iff_eq_none] at seen
      refine .inr ⟨e, rfl, absent, ?_⟩
      cases refused : (n.record e.messageId).refusal p e with
      | some outcome => exact .inl (by simp [handleInbound, seen, refused])
      | none =>
        have passes : n.Passes p e := refusal_eq_none_iff.mp refused
        have routes : (n.handleInbound p (some e)).1 = (n.record e.messageId).routeIntent p e := by
          simp [handleInbound, seen, refused]
        rw [routes]
        by_cases handshake : e.intent = .handshake
        · cases key : p.handshakeKey e with
          | none => exact .inl (by simp [routeIntent, handshake, key])
          | some publicKey =>
            refine .inr (.inl ⟨publicKey, handshake, passes.1, rfl, ?_⟩)
            simp [routeIntent, handshake, key, record]
        · exact .inr (.inr ⟨handshake, passes, by simp [routeIntent, handshake, record]⟩)

/-- A handshake registers the key under which it is signed. -/
theorem handshakeKey_verifies {publicKey : String} (registers : p.handshakeKey e = some publicKey) :
    ∃ signature, e.signed = some signature ∧
      verifySignature p.nacl publicKey signature e.payload = true := by
  unfold Platform.handshakeKey at registers
  split at registers
  · rename_i agentId publicKey' signature _ signed
    split_ifs at registers with proof
    obtain rfl := Option.some.inj registers
    rw [Bool.and_eq_true] at proof
    exact ⟨signature, signed, proof.1⟩
  · cases registers

/-! ### The gate -/

/-- Among the actions, the application registered the key for the agent, or a frame of that
agent was a handshake with this key and signed with it. -/
def Granted (p : Platform) (actions : List Action) (agentId publicKey : String) : Prop :=
  (∃ address, .registerPeer agentId publicKey address ∈ actions) ∨
    ∃ h, .frame (some h) ∈ actions ∧ h.senderId = agentId ∧ h.intent = .handshake ∧
      p.handshakeKey h = some publicKey ∧ ∃ signature, h.signed = some signature ∧
        verifySignature p.nacl publicKey signature h.payload = true

theorem Granted.append {actions : List Action} {agentId publicKey : String}
    (granted : Granted p actions agentId publicKey) (action : Action) :
    Granted p (actions ++ [action]) agentId publicKey := by
  rcases granted with ⟨address, member⟩ | ⟨h, member, rest⟩
  · exact .inl ⟨address, List.mem_append_left _ member⟩
  · exact .inr ⟨h, List.mem_append_left _ member, rest⟩

/-- What holds of the registry and of what was routed, after some actions. -/
structure GateSound (p : Platform) (actions : List Action) (n : TPCPNode) : Prop where
  granted : ∀ agentId peer, n.peerRegistry.get? agentId = some peer →
    Granted p actions agentId peer.publicKey
  routed : ∀ q ∈ n.routed, q.1.intent ≠ .handshake ∧ 0 < q.1.ttl ∧ ∃ signature publicKey,
    q.1.signed = some signature ∧ Granted p actions q.1.senderId publicKey ∧
      verifySignature p.nacl publicKey signature q.1.payload = true

theorem GateSound.append {actions : List Action} (sound : GateSound p actions n)
    (action : Action) : GateSound p (actions ++ [action]) n := by
  refine ⟨fun agentId peer held => (sound.granted agentId peer held).append action, ?_⟩
  intro q member
  obtain ⟨other, alive, signature, publicKey, signed, granted, verified⟩ := sound.routed q member
  exact ⟨other, alive, signature, publicKey, signed, granted.append action, verified⟩

/-- An entry is written. -/
theorem GateSound.set {actions : List Action} {agentId : String} (sound : GateSound p actions n)
    (peer : Peer) (registry : m.peerRegistry = n.peerRegistry.set agentId peer)
    (routed : m.routed = n.routed) (granted : Granted p actions agentId peer.publicKey) :
    GateSound p actions m := by
  refine ⟨fun other peer' held => ?_, routed ▸ sound.routed⟩
  rw [registry, Dict.get?_set] at held
  split_ifs at held with same
  · obtain rfl := Option.some.inj held
    rwa [same]
  · exact sound.granted other peer' held

theorem gateSound {actions : List Action} {now : ℤ}
    (run : Run (OfPartial (step p)) (initial now) actions n) : GateSound p actions n := by
  induction run with
  | nil => exact ⟨fun agentId peer held => (by cases held), fun q member => by cases member⟩
  | @snoc actions n m action _ next ih =>
    have sound := ih.append action
    have last : action ∈ actions ++ [action] :=
      List.mem_append_right _ (List.mem_singleton.mpr rfl)
    cases action with
    | frame frame =>
      obtain rfl := Option.some.inj next
      rcases handleInbound_cases p n frame with same | ⟨e, rfl, -, same |
          ⟨publicKey, handshake, alive, key, same⟩ | ⟨other, passes, same⟩⟩ <;> rw [same]
      · exact sound
      · exact ⟨sound.granted, sound.routed⟩
      · refine sound.set ⟨publicKey, ""⟩ rfl rfl (.inr ⟨e, last, rfl, handshake, key, ?_⟩)
        exact handshakeKey_verifies key
      · -- The key of the registry has been granted before.
        refine ⟨sound.granted, fun q member => ?_⟩
        rcases List.mem_append.mp member with before | now
        · exact sound.routed q before
        · obtain rfl := List.mem_singleton.mp now
          obtain ⟨alive, ⟨signature, peer, signed, held, verified⟩⟩ :=
            passes.imp_right fun either => either.resolve_left other
          exact ⟨other, alive, signature, peer.publicKey, signed, sound.granted _ _ held, verified⟩
    | registerPeer agentId publicKey address =>
      obtain rfl := Option.some.inj next
      exact sound.set ⟨publicKey, address⟩ rfl rfl (.inl ⟨address, last⟩)
    | removePeer agentId =>
      obtain rfl := Option.some.inj next
      refine ⟨fun other peer held => ?_, sound.routed⟩
      exact sound.granted other peer (Dict.get?_of_get?_erase held)
    | cleanup =>
      obtain rfl := Option.some.inj next
      exact ⟨sound.granted, sound.routed⟩
    | tick now =>
      simp only [OfPartial, step] at next
      split_ifs at next
      obtain rfl := Option.some.inj next
      exact ⟨sound.granted, sound.routed⟩

/-- Every envelope that was routed and is no handshake had a ttl left and a signature that
verifies under a key which the application registered for its sender, or which came in a
handshake of that sender and signed it. -/
theorem routed_granted {actions : List Action} {now : ℤ}
    (run : Run (OfPartial (step p)) (initial now) actions n) :
    ∀ q ∈ n.routed, q.1.intent ≠ .handshake ∧ 0 < q.1.ttl ∧ ∃ signature publicKey,
      q.1.signed = some signature ∧ Granted p actions q.1.senderId publicKey ∧
        verifySignature p.nacl publicKey signature q.1.payload = true := (gateSound run).routed

/-- A message of a registered peer, and one without a signature. -/
theorem routed_granted_one :
    let p : Platform := ⟨fun _ => none, fun _ => "", fun _ _ _ => true⟩
    ∃ n : TPCPNode, n.routed.map (fun q => q.1.messageId) = ["m1"] ∧ ∀ q ∈ n.routed,
      ∃ signature publicKey, q.1.signed = some signature ∧
        verifySignature p.nacl publicKey signature q.1.payload = true := by
  intro p
  let key := String.ofList (List.replicate 43 'A')
  let message (id : String) (signature : Option String) : TPCPEnvelope :=
    ⟨id, "a", .critique, 30, ⟨.null, rfl⟩, signature⟩
  let actions : List Action := [.registerPeer "a" key "ws://a",
    .frame (some (message "m1" (some (String.ofList (List.replicate 86 'A'))))),
    .frame (some (message "m2" none))]
  have reaches : (runPartial (step p) (initial 0) actions).any
      (fun n => n.routed.map (fun q => q.1.messageId) = ["m1"]) = true := by decide
  obtain ⟨n, run, ended⟩ := exists_run_of_any reaches
  refine ⟨n, of_decide_eq_true ended, fun q member => ?_⟩
  obtain ⟨-, -, signature, publicKey, signed, -, verified⟩ := routed_granted run q member
  exact ⟨signature, publicKey, signed, verified⟩

/-! ### The replay check -/

/-- What holds of the replay check. -/
structure ReplaySound (n : TPCPNode) : Prop where
  follows : Follows 300000 n.now n.acts n.seenMessages
  ascending : n.acts.Pairwise fun a b => a.now ≤ b.now
  /-- Ids are deleted by the cleanup alone. -/
  sweeps : ∀ messageId now, .forget messageId now ∉ n.acts
  recorded : ∀ q ∈ n.routed, .record q.1.messageId q.2 ∈ n.acts
  apart : n.routed.Pairwise fun q r => q.1.messageId = r.1.messageId → q.2 + 300000 < r.2

theorem ReplaySound.record (sound : ReplaySound n) {messageId : String}
    (absent : n.seenMessages.get? messageId = none) : ReplaySound (n.record messageId) where
  follows := sound.follows.record absent le_rfl
  ascending := sound.follows.ascending_snoc sound.ascending le_rfl
  sweeps other now member := by
    rcases List.mem_append.mp member with before | last
    · exact sound.sweeps other now before
    · cases List.mem_singleton.mp last
  recorded q member := List.mem_append_left _ (sound.recorded q member)
  apart := sound.apart

/-- The registry does not matter. -/
theorem ReplaySound.withRegistry (sound : ReplaySound n) (registry : Dict String Peer) :
    ReplaySound { n with peerRegistry := registry } :=
  ⟨sound.follows, sound.ascending, sound.sweeps, sound.recorded, sound.apart⟩

theorem ReplaySound.route (sound : ReplaySound n)
    (absent : n.seenMessages.get? e.messageId = none) :
    ReplaySound { n.record e.messageId with routed := n.routed ++ [(e, n.now)] } where
  follows := (sound.record absent).follows
  ascending := (sound.record absent).ascending
  sweeps := (sound.record absent).sweeps
  recorded q member := by
    rcases List.mem_append.mp member with before | now
    · exact (sound.record absent).recorded q before
    · obtain rfl := List.mem_singleton.mp now
      exact List.mem_append_right _ (List.mem_singleton.mpr rfl)
  apart := by
    rw [List.pairwise_append]
    refine ⟨sound.apart, List.pairwise_singleton _ _, fun q before r now same => ?_⟩
    obtain rfl := List.mem_singleton.mp now
    exact sound.follows.stale absent (same ▸ sound.recorded q before)

theorem filter_cleanup (seen : Dict String ℤ) (now : ℤ) :
    (seen.filter fun entry => ¬ entry.2 < now - 300000) = sweep 300000 now seen := by
  have same : (fun entry : String × ℤ => decide (¬ entry.2 < now - 300000)) =
      fun entry => decide (now ≤ entry.2 + 300000) := by
    funext entry
    rw [decide_eq_decide]
    omega
  rw [sweep, same]

theorem ReplaySound.step (sound : ReplaySound n) (next : step p n action = some m) :
    ReplaySound m := by
  cases action with
  | frame frame =>
    obtain rfl := Option.some.inj next
    rcases handleInbound_cases p n frame with same | ⟨e, rfl, absent, same |
        ⟨publicKey, -, -, -, same⟩ | ⟨-, -, same⟩⟩ <;> rw [same]
    · exact sound
    · exact sound.record absent
    · exact (sound.record absent).withRegistry _
    · exact sound.route absent
  | registerPeer agentId publicKey address =>
    obtain rfl := Option.some.inj next
    exact sound.withRegistry _
  | removePeer agentId =>
    obtain rfl := Option.some.inj next
    exact sound.withRegistry _
  | cleanup =>
    obtain rfl := Option.some.inj next
    refine ⟨?_, sound.follows.ascending_snoc sound.ascending le_rfl, ?_, ?_, sound.apart⟩
    · rw [filter_cleanup]
      exact sound.follows.sweep le_rfl
    · intro other now member
      rcases List.mem_append.mp member with before | last
      · exact sound.sweeps other now before
      · cases List.mem_singleton.mp last
    · exact fun q member => List.mem_append_left _ (sound.recorded q member)
  | tick now =>
    simp only [TPCPNode.step] at next
    split_ifs at next with later
    obtain rfl := Option.some.inj next
    exact ⟨sound.follows.mono later, sound.ascending, sound.sweeps, sound.recorded, sound.apart⟩

theorem replaySound {actions : List Action} {now : ℤ}
    (run : Run (OfPartial (TPCPNode.step p)) (initial now) actions n) : ReplaySound n := by
  refine run.invariant (fun _ _ _ sound next => ReplaySound.step sound next) ⟨?_, ?_, ?_, ?_, ?_⟩
  · exact .empty 300000 now
  · exact List.Pairwise.nil
  · exact fun messageId time => List.not_mem_nil
  · exact fun q member => by cases member
  · exact List.Pairwise.nil

theorem handleInbound_eq_duplicate_iff (p : Platform) (n : TPCPNode) (e : TPCPEnvelope) :
    (n.handleInbound p (some e)).2 = .duplicate ↔
      n.seenMessages.contains e.messageId = true := by
  by_cases seen : n.seenMessages.contains e.messageId = true
  · simp [handleInbound, seen]
  · refine iff_of_false (fun duplicate => ?_) seen
    cases refused : (n.record e.messageId).refusal p e with
    | none => simp [handleInbound, seen, refused] at duplicate
    | some outcome =>
      obtain rfl : outcome = .duplicate := by simpa [handleInbound, seen, refused] using duplicate
      -- No check behind the replay check has this outcome.
      unfold refusal at refused
      grind

theorem acts_routeIntent (p : Platform) (n : TPCPNode) (e : TPCPEnvelope) :
    (n.routeIntent p e).acts = n.acts := by
  unfold routeIntent
  split
  · split <;> rfl
  · rfl

theorem acts_handleInbound (fresh : ¬ n.seenMessages.contains e.messageId = true) :
    (n.handleInbound p (some e)).1.acts = n.acts ++ [.record e.messageId n.now] := by
  have recorded : (n.record e.messageId).acts = n.acts ++ [.record e.messageId n.now] := rfl
  cases refused : (n.record e.messageId).refusal p e with
  | some outcome => simp [handleInbound, fresh, refused, recorded]
  | none => simp [handleInbound, fresh, refused, acts_routeIntent, recorded]

/-- Two envelopes with one id that are routed are more than 300 s apart. An envelope is dropped
as a duplicate exactly if its id was recorded and no cleanup came more than 300 s later; and
every envelope that is not dropped so is recorded, also where a later check refuses it. -/
theorem frames_replay_iff {actions : List Action} {now : ℤ}
    (run : Run (OfPartial (TPCPNode.step p)) (initial now) actions n) :
    (n.routed.Pairwise fun q r => q.1.messageId = r.1.messageId → q.2 + 300000 < r.2) ∧
      ∀ e, ((n.handleInbound p (some e)).2 = .duplicate ↔
          ∃ time, .record e.messageId time ∈ n.acts ∧
            ∀ cleanup, .sweep cleanup ∈ n.acts → cleanup ≤ time + 300000) ∧
        ((n.handleInbound p (some e)).2 ≠ .duplicate →
          (n.handleInbound p (some e)).1.acts = n.acts ++ [.record e.messageId n.now]) := by
  have sound := replaySound run
  refine ⟨sound.apart, fun e => ⟨?_, fun fresh => ?_⟩⟩
  · rw [handleInbound_eq_duplicate_iff, sound.follows.contains_iff]
    refine exists_congr fun time => ?_
    rw [recorded_iff_of_ascending (by decide) sound.ascending]
    refine and_congr_right fun _ => ⟨fun kept cleanup member => not_lt.mp (kept _ member), ?_⟩
    intro early act member forgets
    cases act with
    | record => exact forgets
    | sweep cleanup => exact absurd forgets (not_lt.mpr (early cleanup member))
    | forget messageId cleanup => exact sound.sweeps messageId cleanup member
  · rw [ne_eq, handleInbound_eq_duplicate_iff] at fresh
    exact acts_handleInbound fresh

/-- An unsigned envelope takes the id of the signed one behind it. -/
theorem frames_replay_iff_unsigned :
    let p : Platform := ⟨fun _ => none, fun _ => "", fun _ _ _ => true⟩
    let unsigned : TPCPEnvelope := ⟨"m", "a", .critique, 30, ⟨.null, rfl⟩, none⟩
    ∃ n : TPCPNode, n.acts.length = 1 ∧ n.routed = [] ∧ ∀ signature,
      (n.handleInbound p (some { unsigned with signature := some signature })).2 =
        .duplicate := by
  intro p unsigned
  have run : Run (OfPartial (TPCPNode.step p)) (initial 0) [.frame (some unsigned)]
      ((initial 0).handleInbound p (some unsigned)).1 := Run.single rfl
  obtain ⟨-, all⟩ := frames_replay_iff run
  refine ⟨((initial 0).handleInbound p (some unsigned)).1, rfl, rfl, fun signature => ?_⟩
  refine (all { unsigned with signature := some signature }).1.mpr ⟨0, List.mem_singleton.mpr rfl,
    fun cleanup member => ?_⟩
  cases List.mem_singleton.mp member

/-! ### Handshakes -/

end TPCPNode

/-- The payload of `broadcastDiscovery`, with the identity as JSON. -/
def discoveryPayload (content : String) : Ecma.Value :=
  ⟨.obj [("payload_type", .str "text"), ("content", .str content), ("language", .str "en")], rfl⟩

/-- The envelope of `broadcastDiscovery`, signed with a key. -/
def discovery (sign : Bytes → Bytes) (messageId agentId content : String) : TPCPEnvelope :=
  ⟨messageId, agentId, .handshake, 30, discoveryPayload content,
    some (signPayload sign (discoveryPayload content))⟩

/-- A text is that of an identity, with an agent and a key. -/
structure IsIdentity (p : Platform) (content agentId publicKey : String) : Prop where
  parses : ∃ parsed framework key, p.jsonParse content = some parsed ∧
    parsed.get? "agent_id" = some (.str agentId) ∧
    parsed.get? "framework" = some framework ∧ truthy framework = true ∧
    parsed.get? "public_key" = some key ∧ truthy key = true ∧ p.toText key = publicKey
  named : agentId ≠ ""
  notEmpty : content ≠ ""

theorem handshakeKey_discovery {ed : Ed25519} {key : ed.PrivateKey}
    (length : ∀ data, (ed.sign key data).length = 64) {p : Platform} (nacl : p.nacl = ed.verify)
    {messageId agentId content : String}
    (identity : IsIdentity p content agentId (Base64.encode (ed.publicBytes key))) :
    p.handshakeKey (discovery (ed.sign key) messageId agentId content) =
      some (Base64.encode (ed.publicBytes key)) := by
  obtain ⟨parsed, framework, value, parses, agent, frame, frameTrue, held, heldTrue, text⟩ :=
    identity.parses
  generalize made : discovery (ed.sign key) messageId agentId content = h
  have payload : h.payload = discoveryPayload content := by rw [← made]; rfl
  have sender : h.senderId = agentId := by rw [← made]; rfl
  have shown : h.textContent = some content := by
    have type : h.payload.json.get? "payload_type" = some (.str "text") := by rw [payload]; rfl
    have text : h.payload.json.get? "content" = some (.str content) := by rw [payload]; rfl
    simp only [TPCPEnvelope.textContent, type, text, if_true, identity.notEmpty, if_false]
  have agentTrue : truthy (.str agentId) = true := decide_eq_true identity.named
  have read : p.identity content = some (.str agentId, Base64.encode (ed.publicBytes key)) := by
    simp [Platform.identity, parses, agent, frame, held, agentTrue, frameTrue, heldTrue, text]
  have signed : h.signed = some (signPayload (ed.sign key) (discoveryPayload content)) := by
    have signature : signPayload (ed.sign key) (discoveryPayload content) ≠ "" :=
      Base64.encode_ne_empty (ed.sign_ne_nil key _)
    rw [← made]
    simp [TPCPEnvelope.signed, discovery, signature]
  have verified := verifySignature_signPayload ed key length (discoveryPayload content)
  simp [Platform.handshakeKey, shown, read, signed, nacl, payload, sender, verified]

/-- An action may write the entry of an agent. -/
def TPCPNode.Action.Writes (agentId : String) : TPCPNode.Action → Prop
  | .frame received => ∃ h, received = some h ∧ h.intent = .handshake ∧ h.senderId = agentId
  | .registerPeer agentId' _ _ => agentId' = agentId
  | .removePeer agentId' => agentId' = agentId
  | _ => False

namespace TPCPNode

variable {p : Platform} {n m : TPCPNode} {e : TPCPEnvelope} {action : Action}

theorem get?_of_not_writes {agentId : String} (next : step p n action = some m)
    (other : ¬ action.Writes agentId) :
    m.peerRegistry.get? agentId = n.peerRegistry.get? agentId := by
  cases action with
  | frame frame =>
    obtain rfl := Option.some.inj next
    rcases handleInbound_cases p n frame with same | ⟨e, rfl, -, same |
        ⟨publicKey, handshake, -, -, same⟩ | ⟨-, -, same⟩⟩ <;> rw [same]
    · rfl
    · refine Dict.get?_set_of_ne fun sender => ?_
      exact other ⟨e, rfl, handshake, sender.symm⟩
    · rfl
  | registerPeer agentId' publicKey address =>
    obtain rfl := Option.some.inj next
    exact Dict.get?_set_of_ne fun same => other same.symm
  | removePeer agentId' =>
    obtain rfl := Option.some.inj next
    exact Dict.get?_erase_of_ne fun same => other same.symm
  | cleanup =>
    obtain rfl := Option.some.inj next
    rfl
  | tick now =>
    simp only [step] at next
    split_ifs at next
    obtain rfl := Option.some.inj next
    rfl

theorem get?_of_run {agentId : String} {actions : List Action}
    (run : Run (OfPartial (step p)) n actions m)
    (others : ∀ action ∈ actions, ¬ action.Writes agentId) :
    m.peerRegistry.get? agentId = n.peerRegistry.get? agentId := by
  induction run with
  | nil => rfl
  | @snoc actions m m' action _ last ih =>
    have here := others action (List.mem_append_right _ (List.mem_singleton.mpr rfl))
    have before := ih fun action member => others action (List.mem_append_left _ member)
    exact (get?_of_not_writes last here).trans before

/-- The gate for an envelope that is alive, new and no handshake. -/
theorem handleInbound_eq_routed_iff (absent : n.seenMessages.get? e.messageId = none)
    (alive : 0 < e.ttl) (other : e.intent ≠ .handshake) {peer : Peer}
    (held : n.peerRegistry.get? e.senderId = some peer) :
    (n.handleInbound p (some e)).2 = .routed ↔ ∃ signature, e.signed = some signature ∧
      verifySignature p.nacl peer.publicKey signature e.payload = true := by
  have fresh : n.seenMessages.contains e.messageId = false := by
    rw [Dict.contains, absent]
    rfl
  have passes : n.Passes p e ↔ ∃ signature, e.signed = some signature ∧
      verifySignature p.nacl peer.publicKey signature e.payload = true := by
    simp [Passes, alive, other, held]
  have same : (n.record e.messageId).refusal p e = n.refusal p e := rfl
  rw [← passes, ← refusal_eq_none_iff, ← same]
  cases refused : (n.record e.messageId).refusal p e with
  | none => simp [handleInbound, fresh, refused]
  | some outcome =>
    refine iff_of_false (fun routed => ?_) (Option.some_ne_none outcome)
    obtain rfl : outcome = .routed := by simpa [handleInbound, fresh, refused] using routed
    unfold refusal at refused
    grind

/-- Whoever has a key can take any agent's entry with a handshake of that agent that carries and
is signed with it, whatever the entry was. Until the entry is written again, the envelopes of
that agent are routed exactly if they verify under this key. -/
theorem discovery_takes_over {ed : Ed25519} {key : ed.PrivateKey}
    (length : ∀ data, (ed.sign key data).length = 64) (nacl : p.nacl = ed.verify)
    {messageId agentId content : String}
    (identity : IsIdentity p content agentId (Base64.encode (ed.publicBytes key)))
    (absent : n.seenMessages.get? messageId = none) :
    ∃ m, step p n (.frame (some (discovery (ed.sign key) messageId agentId content))) = some m ∧
      (∀ other, other ≠ agentId → m.peerRegistry.get? other = n.peerRegistry.get? other) ∧
      ∀ later r, Run (OfPartial (step p)) m later r → (∀ action ∈ later, ¬ action.Writes agentId) →
        ∀ e, e.senderId = agentId → e.intent ≠ .handshake → 0 < e.ttl →
          r.seenMessages.get? e.messageId = none →
            ((r.handleInbound p (some e)).2 = .routed ↔ ∃ signature, e.signed = some signature ∧
              verifySignature p.nacl (Base64.encode (ed.publicBytes key)) signature e.payload =
                true) := by
  generalize made : discovery (ed.sign key) messageId agentId content = h
  have registers : p.handshakeKey h = some (Base64.encode (ed.publicBytes key)) := by
    rw [← made]
    exact handshakeKey_discovery length nacl identity
  have sender : h.senderId = agentId := by rw [← made]; rfl
  have handshake : h.intent = .handshake := by rw [← made]; rfl
  have alive : h.ttl = 30 := by rw [← made]; rfl
  have id : h.messageId = messageId := by rw [← made]; rfl
  have fresh : n.seenMessages.contains h.messageId = false := by
    rw [id, Dict.contains, absent]
    rfl
  have passes : (n.record h.messageId).refusal p h = none := by
    rw [refusal_eq_none_iff]
    exact ⟨by rw [alive]; decide, .inl handshake⟩
  have registry : (n.handleInbound p (some h)).1.peerRegistry =
      n.peerRegistry.set agentId ⟨Base64.encode (ed.publicBytes key), ""⟩ := by
    have recorded : (n.record h.messageId).peerRegistry = n.peerRegistry := rfl
    simp [handleInbound, fresh, passes, routeIntent, handshake, registers, sender, recorded]
  refine ⟨_, rfl, fun other ne => ?_, fun later r run others e from' notHandshake live unseen => ?_⟩
  · rw [registry, Dict.get?_set_of_ne ne]
  · -- The entry stays through every action that does not write it.
    have kept := get?_of_run run others
    rw [registry, Dict.get?_set_self, ← from'] at kept
    have gate := handleInbound_eq_routed_iff (p := p) unseen live notHandshake kept
    exact gate

/-- A stranger's key takes the entry of a registered agent. -/
theorem discovery_takes_over_registered :
    let key : sized.PrivateKey := ⟨List.replicate 32 0, by decide⟩
    let publicKey := Base64.encode (sized.publicBytes key)
    let identity : Json := .obj [("agent_id", .str "a"), ("framework", .str "f"),
      ("public_key", .str publicKey)]
    let p : Platform := ⟨fun _ => some identity, fun _ => publicKey, sized.verify⟩
    let n : TPCPNode :=
      { initial 0 with peerRegistry := Dict.empty.set "a" ⟨"registered", "ws://a"⟩ }
    ∃ m, step p n (.frame (some (discovery (sized.sign key) "m" "a" "identity"))) = some m ∧
      ∀ e, e.senderId = "a" → e.intent ≠ .handshake → 0 < e.ttl →
        m.seenMessages.get? e.messageId = none →
          ((m.handleInbound p (some e)).2 = .routed ↔ ∃ signature, e.signed = some signature ∧
            verifySignature p.nacl publicKey signature e.payload = true) := by
  intro key publicKey identity p n
  have notEmpty : publicKey ≠ "" := Base64.encode_ne_empty (List.cons_ne_nil 0 _)
  have carried : IsIdentity p "identity" "a" publicKey := by
    refine ⟨⟨identity, .str "f", .str publicKey, rfl, rfl, rfl, rfl, rfl, ?_, rfl⟩, ?_, ?_⟩
    · exact decide_eq_true notEmpty
    · decide
    · decide
  obtain ⟨m, next, -, after⟩ :=
    @discovery_takes_over p n sized key (length_sign_sized key) rfl "m" "a" "identity" carried rfl
  refine ⟨m, next, after [] m .nil fun action member => ?_⟩
  exact absurd member List.not_mem_nil

end TPCPNode

end AgentTelepathy.TypeScript
