import AgentTelepathy.Core.GoPanics
import AgentTelepathy.Foundation.Calls
import AgentTelepathy.Foundation.Outbox
import AgentTelepathy.Foundation.Recollection

/-!
# Read loops of the Go node

Every connection has a goroutine of its own in `readLoop`. A turn of it goes through sections
that hold one lock or do one operation on the dead letter queue: it checks and records the
message id, reads the key of the sender and checks the signature, looks for a handler, and
queues what has none. Sections of different turns interleave with each other, with
registrations and with a reader of the queue, and the clock may go on between any two.
-/

namespace AgentTelepathy.Go

open Foundation GoJson Transition Recollection

/-- The section that a turn of `readLoop` has before it, once its frame is read. -/
inductive Stage where
  /-- Checking and recording the message id. -/
  | read
  /-- Reading `peerKeys` and checking the signature. -/
  | fresh
  /-- Reading `handlers`. -/
  | passed
  /-- `DLQ.Enqueue`, for want of a handler. -/
  | unhandled
  | ended (outcome : Outcome)
deriving DecidableEq

/-- A turn of `readLoop`. -/
structure Turn where
  env : TPCPEnvelope
  stage : Stage
  /-- When it passed the replay check, if it did. -/
  admitted : Option ℤ

/-- The node and the turns of its read loops, with what happened so far. -/
structure ReadLoops where
  node : TPCPNode
  /-- `time.Now().Unix()` -/
  clock : ℤ
  turns : List Turn
  /-- What was recorded in `seenMessages` and deleted from it. -/
  acts : List (Act String ℤ)
  /-- All calls of `RegisterPeerKey`. -/
  registered : List (String × String)
  /-- What was taken from the queue. -/
  drained : List TPCPEnvelope

namespace ReadLoops

/-- `NewTPCPNode`, with handlers for some intents, before the first frame. -/
def initial (handlers : List String) (clock : ℤ) : ReadLoops :=
  ⟨.init handlers, clock, [], [], [], []⟩

/-- A turn goes on to its next section. -/
def goOn (s : ReadLoops) (i : ℕ) (turn : Turn) (stage : Stage) : ReadLoops :=
  { s with turns := s.turns.set i { turn with stage := stage } }

/-- A new message id is recorded, and what is too old then is deleted. -/
def letPass (s : ReadLoops) (i : ℕ) (turn : Turn) : ReadLoops :=
  { s with
    node := s.node.record s.clock turn.env.messageId
    turns := s.turns.set i { turn with stage := .fresh, admitted := some s.clock }
    acts := s.acts ++ [.record turn.env.messageId s.clock] ++ [.sweep s.clock] }

/-- The section of `seenMessages`. -/
def checkReplay (s : ReadLoops) (i : ℕ) (turn : Turn) : ReadLoops :=
  if s.node.seenMessages.contains turn.env.messageId then s.goOn i turn (.ended .replayed)
  else s.letPass i turn

/-- `DLQ.Enqueue(env)`, on a channel of capacity 100. -/
def enqueue (s : ReadLoops) (i : ℕ) (turn : Turn) : ReadLoops :=
  if s.node.dlq.length < 100 then
    { s with node := { s.node with dlq := s.node.dlq ++ [turn.env] } }.goOn i turn
      (.ended (.enqueued true))
  else s.goOn i turn (.ended (.enqueued false))

/-- The next section of a turn; nothing if the turn is over, or the section ends the process
with a panic. -/
def advance (ed25519 : Verifier) (s : ReadLoops) (i : ℕ) (turn : Turn) : Option ReadLoops :=
  match turn.stage with
  | .read => some (s.checkReplay i turn)
  | .fresh =>
    match checkSignature ed25519 s.node.peerKeys turn.env with
    | .panicked => none
    | .passed => some (s.goOn i turn .passed)
    | check => some (s.goOn i turn (.ended (.refused check)))
  | .passed =>
    if turn.env.intent ∈ s.node.handlers then some (s.goOn i turn (.ended .handled))
    else some (s.goOn i turn .unhandled)
  | .unhandled => some (s.enqueue i turn)
  | .ended _ => none

/-- What may happen next. -/
inductive Action where
  /-- A read loop reads a frame. -/
  | frame (frame : Option TPCPEnvelope)
  /-- A turn takes its next section. -/
  | advance (turn : ℕ)
  | tick (now : ℤ)
  | registerPeerKey (agentID pubKeyB64 : String)
  | registerHandler (intent : String)
  /-- `Drain` takes an envelope from the queue. -/
  | drain

/-- The state after an action; nothing where the action is not possible. -/
def step (ed25519 : Verifier) (s : ReadLoops) : Action → Option ReadLoops
  -- A frame that is no envelope is logged.
  | .frame none => some s
  | .frame (some env) => some { s with turns := s.turns ++ [⟨env, .read, none⟩] }
  | .advance i => s.turns[i]?.bind (s.advance ed25519 i)
  | .tick now => if s.clock ≤ now then some { s with clock := now } else none
  | .registerPeerKey agentID pubKeyB64 => some { s with
      node := s.node.registerPeerKey agentID pubKeyB64
      registered := s.registered ++ [(agentID, pubKeyB64)] }
  | .registerHandler intent =>
    some { s with node := { s.node with handlers := intent :: s.node.handlers } }
  | .drain =>
    match s.node.dlq with
    | [] => none
    | env :: rest => some { s with
        node := { s.node with dlq := rest }
        drained := s.drained ++ [env] }

/-! ### What a section does -/

variable {ed25519 : Verifier} {s t : ReadLoops} {i : ℕ} {turn : Turn} {action : Action}

/-- What the next section of a turn leads to. -/
inductive Section (ed25519 : Verifier) (s : ReadLoops) (i : ℕ) (turn : Turn) : ReadLoops → Prop
  | replayed (stage : turn.stage = .read)
      (held : s.node.seenMessages.contains turn.env.messageId = true) :
      Section ed25519 s i turn (s.goOn i turn (.ended .replayed))
  | admitted (stage : turn.stage = .read)
      (absent : s.node.seenMessages.get? turn.env.messageId = none) :
      Section ed25519 s i turn (s.letPass i turn)
  | passed (stage : turn.stage = .fresh)
      (check : checkSignature ed25519 s.node.peerKeys turn.env = .passed) :
      Section ed25519 s i turn (s.goOn i turn .passed)
  | refused (stage : turn.stage = .fresh) (check : Check)
      (failed : checkSignature ed25519 s.node.peerKeys turn.env = check)
      (notPassed : check ≠ .passed) :
      Section ed25519 s i turn (s.goOn i turn (.ended (.refused check)))
  | handled (stage : turn.stage = .passed) :
      Section ed25519 s i turn (s.goOn i turn (.ended .handled))
  | noHandler (stage : turn.stage = .passed) :
      Section ed25519 s i turn (s.goOn i turn .unhandled)
  | stored (stage : turn.stage = .unhandled) (room : s.node.dlq.length < 100) :
      Section ed25519 s i turn ({ s with
        node := { s.node with dlq := s.node.dlq ++ [turn.env] } }.goOn i turn
          (.ended (.enqueued true)))
  | full (stage : turn.stage = .unhandled) :
      Section ed25519 s i turn (s.goOn i turn (.ended (.enqueued false)))

theorem section_of_advance (next : s.advance ed25519 i turn = some t) :
    Section ed25519 s i turn t := by
  unfold advance at next
  cases stage : turn.stage with
  | read =>
    simp only [stage, Option.some.injEq] at next
    subst next
    unfold checkReplay
    split_ifs with held
    · exact .replayed stage held
    · refine .admitted stage ?_
      rwa [Bool.not_eq_true, Dict.contains, Option.isSome_eq_false_iff, Option.isNone_iff_eq_none]
        at held
  | fresh =>
    simp only [stage] at next
    cases check : checkSignature ed25519 s.node.peerKeys turn.env <;> rw [check] at next <;>
      cases next
    · exact .passed stage check
    · exact .refused stage .unknownPeer check Check.noConfusion
    · exact .refused stage .failed check Check.noConfusion
  | passed =>
    simp only [stage] at next
    split_ifs at next <;> cases next
    · exact .handled stage
    · exact .noHandler stage
  | unhandled =>
    simp only [stage, Option.some.injEq] at next
    subst next
    unfold enqueue
    split_ifs with room
    · exact .stored stage room
    · exact .full stage
  | ended outcome =>
    simp only [stage] at next
    cases next

/-- An action is a section of a turn, a new turn, or leaves the turns as they are. -/
theorem step_cases (next : step ed25519 s action = some t) :
    (∃ i turn, action = .advance i ∧ s.turns[i]? = some turn ∧ Section ed25519 s i turn t) ∨
    (∃ env, t = { s with turns := s.turns ++ [⟨env, .read, none⟩] }) ∨
    (t.turns = s.turns ∧ t.acts = s.acts ∧ t.node.seenMessages = s.node.seenMessages ∧
      s.clock ≤ t.clock ∧ t.drained ++ t.node.dlq = s.drained ++ s.node.dlq ∧
      t.node.dlq.length ≤ s.node.dlq.length ∧ s.registered ⊆ t.registered ∧
      ∀ agentID pubKeyB64, t.node.peerKeys.get? agentID = some pubKeyB64 →
        s.node.peerKeys.get? agentID = some pubKeyB64 ∨ (agentID, pubKeyB64) ∈ t.registered) := by
  have same (agentID pubKeyB64 : String)
      (held : s.node.peerKeys.get? agentID = some pubKeyB64) :
      s.node.peerKeys.get? agentID = some pubKeyB64 ∨ (agentID, pubKeyB64) ∈ s.registered :=
        .inl held
  cases action with
  | frame frame =>
    cases frame with
    | none =>
      obtain rfl := Option.some.inj next
      exact .inr (.inr ⟨rfl, rfl, rfl, le_rfl, rfl, le_rfl, List.Subset.refl _, same⟩)
    | some env => exact .inr (.inl ⟨env, (Option.some.inj next).symm⟩)
  | advance i =>
    obtain ⟨turn, held, moved⟩ := Option.bind_eq_some_iff.mp next
    exact .inl ⟨i, turn, rfl, held, section_of_advance moved⟩
  | tick now =>
    simp only [step] at next
    split_ifs at next with later
    obtain rfl := Option.some.inj next
    exact .inr (.inr ⟨rfl, rfl, rfl, later, rfl, le_rfl, List.Subset.refl _, same⟩)
  | registerPeerKey agentID pubKeyB64 =>
    obtain rfl := Option.some.inj next
    refine .inr (.inr ⟨rfl, rfl, rfl, le_rfl, rfl, le_rfl, List.subset_append_left _ _, ?_⟩)
    intro other key held
    have held' : (s.node.peerKeys.set agentID pubKeyB64).get? other = some key := held
    rw [Dict.get?_set] at held'
    split_ifs at held' with here
    · obtain rfl := Option.some.inj held'
      exact .inr (List.mem_append_right _ (List.mem_singleton.mpr (by rw [here])))
    · exact .inl held'
  | registerHandler intent =>
    obtain rfl := Option.some.inj next
    exact .inr (.inr ⟨rfl, rfl, rfl, le_rfl, rfl, le_rfl, List.Subset.refl _, same⟩)
  | drain =>
    simp only [step] at next
    split at next
    · cases next
    · rename_i env rest queue
      obtain rfl := Option.some.inj next
      refine .inr (.inr ⟨rfl, rfl, rfl, le_rfl, ?_, ?_, List.Subset.refl _, same⟩)
      · rw [queue, List.append_assoc, List.singleton_append]
      · rw [queue, List.length_cons]
        exact Nat.le_succ _

/-! ### The gate -/

end ReadLoops

/-- Without a signature, or with a key of the sender under which it verifies, as far as the
payload can be read. -/
def Cleared (ed25519 : Verifier) (key? : String → String → Prop) (env : TPCPEnvelope) : Prop :=
  env.signature = "" ∨ ∃ pubKey, key? env.senderId pubKey ∧
    ∀ canonical, env.payload.bind payloadBytes = some canonical →
      verify ed25519 pubKey canonical env.signature = some true

theorem checkSignature_eq_passed_iff (ed25519 : Verifier) (peerKeys : Dict String String)
    (env : TPCPEnvelope) : checkSignature ed25519 peerKeys env = .passed ↔
      Cleared ed25519 (fun agentID pubKey => peerKeys.get? agentID = some pubKey) env := by
  by_cases signature : env.signature = ""
  · simp [checkSignature, Cleared, signature]
  · rw [Cleared, or_iff_right signature]
    cases registered : peerKeys.get? env.senderId with
    | none => simp [checkSignature, signature, registered]
    | some pubKey =>
      cases readable : env.payload.bind payloadBytes with
      | none =>
        -- A payload that cannot be read leaves the signature unread.
        have unread : env.payload.bind unmarshal = none := by
          cases payload : env.payload with
          | none => rfl
          | some payload =>
            rw [payload, Option.bind_some, payloadBytes_eq] at readable
            rw [Option.bind_some, unmarshal]
            split_ifs at readable ⊢
            rfl
        simp [checkSignature, signature, registered, unread]
      | some canonical =>
        rw [checkSignature_of_payload signature registered readable]
        cases accepted : verify ed25519 pubKey canonical env.signature with
        | none => simp [accepted]
        | some ok => cases ok <;> simp [accepted]

theorem Cleared.mono {ed25519 : Verifier} {key? key?' : String → String → Prop}
    {env : TPCPEnvelope} (cleared : Cleared ed25519 key? env)
    (more : ∀ agentID pubKey, key? agentID pubKey → key?' agentID pubKey) :
    Cleared ed25519 key?' env :=
  cleared.imp_right fun ⟨pubKey, held, verified⟩ => ⟨pubKey, more _ _ held, verified⟩

/-- The stages behind the check of the signature. -/
def Stage.PastGate : Stage → Prop
  | .passed | .unhandled | .ended .handled | .ended (.enqueued _) => True
  | _ => False

/-- What a turn has put into the queue. -/
def Turn.queued (turn : Turn) : Multiset TPCPEnvelope :=
  if turn.stage = .ended (.enqueued true) then {turn.env} else 0

namespace ReadLoops

variable {ed25519 : Verifier} {s t : ReadLoops} {i : ℕ} {turn : Turn} {action : Action}

/-- The keys that were ever registered. -/
def Known (s : ReadLoops) (agentID pubKey : String) : Prop := (agentID, pubKey) ∈ s.registered

/-- What holds of the turns and the dead letter queue. -/
structure GateSound (ed25519 : Verifier) (s : ReadLoops) : Prop where
  known : ∀ agentID pubKey, s.node.peerKeys.get? agentID = some pubKey → s.Known agentID pubKey
  cleared : ∀ turn ∈ s.turns, turn.stage.PastGate → Cleared ed25519 s.Known turn.env
  conserved : (↑(s.drained ++ s.node.dlq) : Multiset TPCPEnvelope) = (s.turns.map Turn.queued).sum
  room : s.node.dlq.length ≤ 100

/-- A section leaves the keys as they are, and takes its turn past the gate only if the check
passes. -/
theorem Section.gate (next : Section ed25519 s i turn t) :
    t.node.peerKeys = s.node.peerKeys ∧ t.registered = s.registered ∧
      ∃ turn', t.turns = s.turns.set i turn' ∧ turn'.env = turn.env ∧
        (turn'.stage.PastGate → turn.stage.PastGate ∨
          checkSignature ed25519 s.node.peerKeys turn.env = .passed) := by
  cases next with
  | replayed => exact ⟨rfl, rfl, _, rfl, rfl, fun past => past.elim⟩
  | admitted => exact ⟨rfl, rfl, _, rfl, rfl, fun past => past.elim⟩
  | passed stage check => exact ⟨rfl, rfl, _, rfl, rfl, fun _ => .inr check⟩
  | refused => exact ⟨rfl, rfl, _, rfl, rfl, fun past => past.elim⟩
  | handled stage => exact ⟨rfl, rfl, _, rfl, rfl, fun _ => .inl (by rw [stage]; trivial)⟩
  | noHandler stage => exact ⟨rfl, rfl, _, rfl, rfl, fun _ => .inl (by rw [stage]; trivial)⟩
  | stored stage => exact ⟨rfl, rfl, _, rfl, rfl, fun _ => .inl (by rw [stage]; trivial)⟩
  | full stage => exact ⟨rfl, rfl, _, rfl, rfl, fun _ => .inl (by rw [stage]; trivial)⟩

/-- A section leaves the queue as it is, or puts the envelope of its turn at the end. -/
theorem Section.queue (next : Section ed25519 s i turn t) :
    turn.queued = 0 ∧ t.drained = s.drained ∧ ∃ turn', t.turns = s.turns.set i turn' ∧
      (turn'.queued = 0 ∧ t.node.dlq = s.node.dlq ∨
        turn'.queued = {turn.env} ∧ t.node.dlq = s.node.dlq ++ [turn.env] ∧
          s.node.dlq.length < 100) := by
  have nothing (notStored : turn.stage ≠ .ended (.enqueued true)) : turn.queued = 0 :=
    if_neg notStored
  cases next with
  | replayed stage => exact ⟨nothing (by simp [stage]), rfl, _, rfl, .inl ⟨rfl, rfl⟩⟩
  | admitted stage => exact ⟨nothing (by simp [stage]), rfl, _, rfl, .inl ⟨rfl, rfl⟩⟩
  | passed stage => exact ⟨nothing (by simp [stage]), rfl, _, rfl, .inl ⟨rfl, rfl⟩⟩
  | refused stage => exact ⟨nothing (by simp [stage]), rfl, _, rfl, .inl ⟨rfl, rfl⟩⟩
  | handled stage => exact ⟨nothing (by simp [stage]), rfl, _, rfl, .inl ⟨rfl, rfl⟩⟩
  | noHandler stage => exact ⟨nothing (by simp [stage]), rfl, _, rfl, .inl ⟨rfl, rfl⟩⟩
  | stored stage room => exact ⟨nothing (by simp [stage]), rfl, _, rfl, .inr ⟨rfl, rfl, room⟩⟩
  | full stage => exact ⟨nothing (by simp [stage]), rfl, _, rfl, .inl ⟨rfl, rfl⟩⟩

/-- What a section puts into the queue is what its turn has queued then. -/
theorem Section.conserved (next : Section ed25519 s i turn t) (held : s.turns[i]? = some turn)
    (before : (↑(s.drained ++ s.node.dlq) : Multiset TPCPEnvelope) =
      (s.turns.map Turn.queued).sum) (room : s.node.dlq.length ≤ 100) :
    (↑(t.drained ++ t.node.dlq) : Multiset TPCPEnvelope) = (t.turns.map Turn.queued).sum ∧
      t.node.dlq.length ≤ 100 := by
  obtain ⟨nothing, drained, turn', turns, change⟩ := next.queue
  rw [turns, Outbox.sum_set_of_zero Turn.queued held nothing turn', ← before, drained]
  rcases change with ⟨none, queue⟩ | ⟨stored, queue, below⟩
  · rw [none, add_zero, queue]
    exact ⟨rfl, room⟩
  · rw [stored, queue, ← List.append_assoc, ← Multiset.coe_add, List.length_append]
    exact ⟨rfl, below⟩

theorem GateSound.step (sound : GateSound ed25519 s) (next : step ed25519 s action = some t) :
    GateSound ed25519 t := by
  rcases step_cases next with ⟨i, turn, -, held, moved⟩ | ⟨env, rfl⟩ |
      ⟨turns, -, -, -, queue, shorter, more, keys⟩
  · obtain ⟨sameKeys, registered, turn', turns, env, past⟩ := moved.gate
    have known : t.Known = s.Known := by
      funext agentID pubKey
      rw [Known, registered]
      rfl
    obtain ⟨conserved, room⟩ := moved.conserved held sound.conserved sound.room
    refine ⟨?_, ?_, conserved, room⟩
    · rw [sameKeys, known]
      exact sound.known
    · rw [turns, known]
      intro other member gone
      rcases List.mem_or_eq_of_mem_set member with old | rfl
      · exact sound.cleared other old gone
      · rw [env]
        rcases past gone with before | passed
        · exact sound.cleared turn (List.mem_of_getElem? held) before
        · exact ((checkSignature_eq_passed_iff _ _ _).mp passed).mono sound.known
  -- A new turn is not past the gate.
  · refine ⟨sound.known, ?_, ?_, sound.room⟩
    · intro other member gone
      rcases List.mem_append.mp member with old | last
      · exact sound.cleared other old gone
      · obtain rfl := List.mem_singleton.mp last
        exact gone.elim
    · rw [List.map_append, List.sum_append]
      exact sound.conserved.trans (add_zero _).symm
  · refine ⟨fun agentID pubKey held => ?_, ?_, ?_, shorter.trans sound.room⟩
    · exact (keys agentID pubKey held).elim (fun old => more (sound.known _ _ old)) id
    · rw [turns]
      exact fun other member gone =>
        (sound.cleared other member gone).mono fun _ _ known => more known
    · rw [queue, turns]
      exact sound.conserved

theorem gateSound {handlers : List String} {clock : ℤ} {actions : List Action}
    (run : Run (OfPartial (step ed25519)) (initial handlers clock) actions s) :
    GateSound ed25519 s := by
  refine run.invariant (fun _ _ _ sound next => GateSound.step sound next) ⟨?_, ?_, rfl, ?_⟩
  · exact fun agentID pubKey held => by cases held
  · exact fun turn member => absurd member List.not_mem_nil
  · exact Nat.zero_le _

/-- Whatever a handler was called for, or was ever in the dead letter queue, is unsigned or
verifies under a key that was registered for its sender. What was taken from the queue and what
it still has is what was stored there, each envelope once, and the queue never has more
than 100. -/
theorem readLoops_deliver_cleared {handlers : List String} {clock : ℤ} {actions : List Action}
    (run : Run (OfPartial (step ed25519)) (initial handlers clock) actions s) :
    (∀ turn ∈ s.turns, turn.stage = .ended .handled → Cleared ed25519 s.Known turn.env) ∧
      (∀ env ∈ s.drained ++ s.node.dlq, Cleared ed25519 s.Known env) ∧
      (↑(s.drained ++ s.node.dlq) : Multiset TPCPEnvelope) = (s.turns.map Turn.queued).sum ∧
      s.node.dlq.length ≤ 100 := by
  have sound := gateSound run
  refine ⟨fun turn member handled => ?_, fun env member => ?_, sound.conserved, sound.room⟩
  · exact sound.cleared turn member (by rw [handled]; trivial)
  · -- An envelope of the queue is that of a turn that stored it.
    have queued : env ∈ (s.turns.map Turn.queued).sum := by
      rw [← sound.conserved]
      exact Multiset.mem_coe.mpr member
    obtain ⟨turn, present, inside⟩ := (Outbox.mem_sum_map_iff Turn.queued).mp queued
    unfold Turn.queued at inside
    split_ifs at inside with stage
    · obtain rfl := Multiset.mem_singleton.mp inside
      exact sound.cleared turn present (by rw [stage]; trivial)
    · exact absurd inside (Multiset.notMem_zero env)

/-- A signed envelope of a stranger, and an unsigned one that no handler takes. -/
theorem readLoops_deliver_cleared_two :
    ∃ s : ReadLoops, s.turns.map Turn.stage =
        [.ended (.refused .unknownPeer), .ended (.enqueued true)] ∧
      s.drained.map TPCPEnvelope.messageId = ["m2"] ∧
      ∀ env ∈ s.drained, Cleared transparent.verify s.Known env := by
  let signed : TPCPEnvelope := ⟨"m1", "stranger", "Critique", some .null, "AA=="⟩
  let plain : TPCPEnvelope := ⟨"m2", "stranger", "Critique", some .null, ""⟩
  let actions : List Action := [.frame (some signed), .frame (some plain), .advance 1, .advance 0,
    .advance 0, .registerPeerKey "stranger" "", .advance 1, .advance 1, .advance 1, .drain]
  have reaches : (runPartial (step transparent.verify) (initial ["Task_Request"] 0) actions).any
      (fun s => s.turns.map Turn.stage =
        [.ended (.refused .unknownPeer), .ended (.enqueued true)] ∧
          s.drained.map TPCPEnvelope.messageId = ["m2"]) = true := by decide
  obtain ⟨s, run, ended⟩ := exists_run_of_any reaches
  obtain ⟨stages, drained⟩ := of_decide_eq_true ended
  obtain ⟨-, queue, -, -⟩ := readLoops_deliver_cleared run
  exact ⟨s, stages, drained, fun env member => queue env (List.mem_append_left _ member)⟩

/-! ### The replay check -/

theorem seenMessages_record (n : TPCPNode) (now : ℤ) (messageId : String) :
    (n.record now messageId).seenMessages = sweep 300 now (n.seenMessages.set messageId now) := by
  have same : (fun entry : String × ℤ => decide (¬ 300 < now - entry.2)) =
      fun entry => decide (now ≤ entry.2 + 300) := by
    funext entry
    rw [decide_eq_decide]
    omega
  exact congrArg (n.seenMessages.set messageId now).filter same

end ReadLoops

/-- Two turns whose envelopes have one id passed the replay check more than 300 s apart, if both
did. -/
def Turn.Apart (a b : Turn) : Prop :=
  a.env.messageId = b.env.messageId → ∀ t u, a.admitted = some t → b.admitted = some u →
    t + 300 < u ∨ u + 300 < t

theorem Turn.Apart.symm {a b : Turn} (apart : Turn.Apart a b) : Turn.Apart b a :=
  fun same t u first second => (apart same.symm u t second first).symm

namespace ReadLoops

variable {ed25519 : Verifier} {s t : ReadLoops} {i : ℕ} {turn : Turn} {action : Action}

/-- A section admits its turn, or leaves alone what the replay check has. -/
theorem Section.replay (next : Section ed25519 s i turn t) :
    (turn.stage = .read ∧ s.node.seenMessages.get? turn.env.messageId = none ∧
      t.turns = s.turns.set i { turn with stage := .fresh, admitted := some s.clock } ∧
      t.acts = s.acts ++ [.record turn.env.messageId s.clock] ++ [.sweep s.clock] ∧
      t.node.seenMessages =
        sweep 300 s.clock (s.node.seenMessages.set turn.env.messageId s.clock) ∧
      t.clock = s.clock) ∨
    ∃ stage, stage ≠ .read ∧ t.turns = s.turns.set i { turn with stage := stage } ∧
      t.acts = s.acts ∧ t.node.seenMessages = s.node.seenMessages ∧ t.clock = s.clock := by
  cases next with
  | admitted stage absent =>
    exact .inl ⟨stage, absent, rfl, rfl, seenMessages_record _ _ _, rfl⟩
  | _ => exact .inr ⟨_, Stage.noConfusion, rfl, rfl, rfl, rfl⟩

/-- What holds of the replay check. -/
structure ReplaySound (s : ReadLoops) : Prop where
  follows : Follows 300 s.clock s.acts s.node.seenMessages
  ascending : s.acts.Pairwise fun a b => a.now ≤ b.now
  /-- The acts on the cache are those of the turns that passed. -/
  acts : ∀ act, act ∈ s.acts ↔ ∃ turn ∈ s.turns, ∃ time, turn.admitted = some time ∧
    (act = .record turn.env.messageId time ∨ act = .sweep time)
  unread : ∀ turn ∈ s.turns, turn.stage = .read → turn.admitted = none
  apart : Calls.Pairs Turn.Apart s.turns

/-- A turn whose id is not held passes later than any other of this id by more than the window. -/
theorem ReplaySound.apart_of_absent (sound : ReplaySound s) {messageId : String}
    (absent : s.node.seenMessages.get? messageId = none) {other : Turn} (member : other ∈ s.turns)
    (same : other.env.messageId = messageId) {time : ℤ} (admitted : other.admitted = some time) :
    time + 300 < s.clock := by
  have recorded : .record messageId time ∈ s.acts := by
    rw [sound.acts]
    exact ⟨other, member, time, admitted, .inl (by rw [same])⟩
  exact sound.follows.stale absent recorded

theorem ReplaySound.letPass (sound : ReplaySound s) (held : s.turns[i]? = some turn)
    (stage : turn.stage = .read) (absent : s.node.seenMessages.get? turn.env.messageId = none)
    (turns : t.turns = s.turns.set i { turn with stage := .fresh, admitted := some s.clock })
    (acts : t.acts = s.acts ++ [.record turn.env.messageId s.clock] ++ [.sweep s.clock])
    (seen : t.node.seenMessages =
      sweep 300 s.clock (s.node.seenMessages.set turn.env.messageId s.clock))
    (clock : t.clock = s.clock) : ReplaySound t := by
  have notYet : turn.admitted = none := sound.unread turn (List.mem_of_getElem? held) stage
  constructor
  · rw [clock, acts, seen]
    exact (sound.follows.record absent le_rfl).sweep le_rfl
  · rw [acts]
    exact (sound.follows.record absent le_rfl).ascending_snoc
      (sound.follows.ascending_snoc sound.ascending le_rfl) le_rfl
  · intro act
    rw [turns, Calls.exists_mem_set_iff held (by simp [notYet]), ← sound.acts, acts]
    simp [or_comm, eq_comm]
  · rw [turns]
    intro other member unread
    rcases List.mem_or_eq_of_mem_set member with old | rfl
    · exact sound.unread other old unread
    · cases unread
  · rw [turns]
    refine Calls.Pairs.set Turn.Apart.symm sound.apart fun j other ne there same u v first second =>
      ?_
    obtain rfl := Option.some.inj first
    exact .inr (sound.apart_of_absent absent (List.mem_of_getElem? there) same.symm second)

/-- A turn goes on behind the replay check. -/
theorem ReplaySound.goOn (sound : ReplaySound s) (held : s.turns[i]? = some turn) {stage : Stage}
    (notRead : stage ≠ .read) (turns : t.turns = s.turns.set i { turn with stage := stage })
    (acts : t.acts = s.acts) (seen : t.node.seenMessages = s.node.seenMessages)
    (clock : t.clock = s.clock) : ReplaySound t := by
  constructor
  · rw [clock, acts, seen]
    exact sound.follows
  · rw [acts]
    exact sound.ascending
  · intro act
    rw [turns, Calls.exists_mem_set_iff held (by exact id), or_iff_right_of_imp, acts]
    · exact sound.acts act
    · exact fun here => ⟨turn, List.mem_of_getElem? held, here⟩
  · rw [turns]
    intro other member unread
    rcases List.mem_or_eq_of_mem_set member with old | rfl
    · exact sound.unread other old unread
    · exact absurd unread notRead
  · rw [turns]
    exact Calls.Pairs.set Turn.Apart.symm sound.apart fun j other ne there =>
      sound.apart i j turn other (Ne.symm ne) held there

theorem ReplaySound.step (sound : ReplaySound s) (next : step ed25519 s action = some t) :
    ReplaySound t := by
  rcases step_cases next with ⟨i, turn, -, held, moved⟩ | ⟨env, rfl⟩ |
      ⟨turns, acts, seen, later, -⟩
  · rcases moved.replay with ⟨stage, absent, turns, acts, seen, clock⟩ |
        ⟨stage, notRead, turns, acts, seen, clock⟩
    · exact sound.letPass held stage absent turns acts seen clock
    · exact sound.goOn held notRead turns acts seen clock
  -- A new turn has not passed the replay check.
  · refine ⟨sound.follows, sound.ascending, fun act => ?_, ?_, ?_⟩
    · rw [sound.acts, Calls.exists_mem_snoc_iff, or_iff_right]
      rintro ⟨time, admitted, -⟩
      cases admitted
    · intro other member unread
      rcases List.mem_append.mp member with old | last
      · exact sound.unread other old unread
      · obtain rfl := List.mem_singleton.mp last
        rfl
    · exact Calls.Pairs.snoc Turn.Apart.symm sound.apart fun other _ _ time u first =>
        by cases first
  · constructor
    · rw [acts, seen]
      exact sound.follows.mono later
    · rw [acts]
      exact sound.ascending
    · rw [acts, turns]
      exact sound.acts
    · rw [turns]
      exact sound.unread
    · rw [turns]
      exact sound.apart

theorem replaySound {handlers : List String} {clock : ℤ} {actions : List Action}
    (run : Run (OfPartial (ReadLoops.step ed25519)) (initial handlers clock) actions s) :
    ReplaySound s := by
  refine run.invariant (fun _ _ _ sound next => ReplaySound.step sound next) ⟨?_, ?_, ?_, ?_, ?_⟩
  · exact .empty 300 clock
  · exact List.Pairwise.nil
  · exact fun act => iff_of_false List.not_mem_nil
      fun ⟨turn, member, _⟩ => absurd member List.not_mem_nil
  · exact fun turn member => absurd member List.not_mem_nil
  · exact .nil _

/-- A turn with the id passed the replay check, and none has passed more than 300 s later. -/
def Blocked (s : ReadLoops) (messageId : String) : Prop :=
  ∃ time, (∃ turn ∈ s.turns, turn.env.messageId = messageId ∧ turn.admitted = some time) ∧
    ∀ turn ∈ s.turns, ∀ later, turn.admitted = some later → later ≤ time + 300

theorem ReplaySound.contains_iff (sound : ReplaySound s) (messageId : String) :
    s.node.seenMessages.contains messageId = true ↔ s.Blocked messageId := by
  rw [sound.follows.contains_iff]
  refine exists_congr fun time => ?_
  rw [recorded_iff_of_ascending (by decide) sound.ascending]
  refine and_congr ?_ ?_
  · rw [sound.acts]
    constructor
    · rintro ⟨turn, member, at', admitted, equal | equal⟩
      · injection equal with key stamp
        exact ⟨turn, member, key.symm, stamp ▸ admitted⟩
      · cases equal
    · rintro ⟨turn, member, same, admitted⟩
      exact ⟨turn, member, time, admitted, .inl (by rw [same])⟩
  · constructor
    · intro kept turn member later admitted
      have swept : .sweep later ∈ s.acts :=
        (sound.acts _).mpr ⟨turn, member, later, admitted, .inr rfl⟩
      exact not_lt.mp (kept _ swept)
    · intro early act member forgets
      obtain ⟨turn, present, later, admitted, rfl | rfl⟩ := (sound.acts act).mp member
      · exact forgets
      · exact absurd forgets (not_lt.mpr (early turn present later admitted))

/-- Two turns with one id pass the replay check more than 300 s apart. A turn is dropped as a
replay exactly if its id passed before and nothing has passed more than 300 s after that. -/
theorem readLoops_replay_iff {handlers : List String} {clock : ℤ} {actions : List Action}
    (run : Run (OfPartial (ReadLoops.step ed25519)) (initial handlers clock) actions s) :
    (∀ (i j : ℕ) a b, i ≠ j → s.turns[i]? = some a → s.turns[j]? = some b → Turn.Apart a b) ∧
      ∀ (i : ℕ) turn, s.turns[i]? = some turn → turn.stage = .read →
        ∃ t, ReadLoops.step ed25519 s (.advance i) = some t ∧
          (s.Blocked turn.env.messageId →
            t.turns[i]? = some { turn with stage := .ended .replayed }) ∧
          (¬ s.Blocked turn.env.messageId →
            t.turns[i]? = some { turn with stage := .fresh, admitted := some s.clock }) := by
  have sound := replaySound run
  refine ⟨sound.apart, fun i turn held stage => ⟨s.checkReplay i turn, ?_, ?_⟩⟩
  · rw [ReadLoops.step, held, Option.bind_some, advance, stage]
  · have inside : i < s.turns.length := (List.getElem?_eq_some_iff.mp held).1
    rw [← sound.contains_iff, checkReplay]
    split_ifs with seen
    · exact ⟨fun _ => List.getElem?_set_self inside, fun fresh => absurd seen fresh⟩
    · exact ⟨fun held => absurd held seen, fun _ => List.getElem?_set_self inside⟩

/-- An id that is still blocked 400 s later, as nothing else has passed. -/
theorem readLoops_replay_iff_idle :
    ∃ (s : ReadLoops) (t : ReadLoops), s.clock = 400 ∧ s.Blocked "m" ∧
      step transparent.verify s (.advance 1) = some t ∧
      t.turns[1]?.map Turn.stage = some (.ended .replayed) := by
  let env : TPCPEnvelope := ⟨"m", "a", "Critique", some .null, ""⟩
  let actions : List Action :=
    [.frame (some env), .advance 0, .tick 400, .frame (some env)]
  have reaches : (runPartial (step transparent.verify) (initial [] 0) actions).any
      (fun s => s.clock = 400 ∧ s.node.seenMessages.contains "m" = true ∧
        (s.turns[1]?.map fun turn => (turn.stage, turn.env.messageId)) = some (.read, "m")) =
          true := by
    decide
  obtain ⟨s, run, ended⟩ := exists_run_of_any reaches
  obtain ⟨clock, seen, second⟩ := of_decide_eq_true ended
  obtain ⟨turn, held, equal⟩ := Option.map_eq_some_iff.mp second
  obtain ⟨stage, id⟩ := Prod.mk.inj equal
  have blocked : s.Blocked "m" := ((replaySound run).contains_iff "m").mp seen
  obtain ⟨t, next, dropped, -⟩ := (readLoops_replay_iff run).2 1 turn held stage
  refine ⟨s, t, clock, blocked, next, ?_⟩
  rw [dropped (by rwa [id])]
  rfl

/-! ### A turn without others -/

/-- The last turn, going on alone, ends with the node and the outcome. -/
def EndsAs (ed25519 : Verifier) (s : ReadLoops) (turns : List Turn) (env : TPCPEnvelope)
    (n : TPCPNode) (outcome : Outcome) : Prop :=
  ∃ sections t admitted,
    runPartial (ReadLoops.step ed25519) s (List.replicate sections (.advance turns.length)) =
      some t ∧ t.node = n ∧ t.turns = turns ++ [⟨env, .ended outcome, admitted⟩]

section Alone

variable {turns : List Turn} {env : TPCPEnvelope} {n : TPCPNode} {outcome : Outcome}
  {admitted : Option ℤ}

theorem EndsAs.done (admitted : Option ℤ)
    (last : s.turns = turns ++ [⟨env, .ended outcome, admitted⟩]) :
    EndsAs ed25519 s turns env s.node outcome := ⟨0, s, admitted, rfl, rfl, last⟩

theorem EndsAs.after {stage : Stage} (last : s.turns = turns ++ [⟨env, stage, admitted⟩])
    (next : s.advance ed25519 turns.length ⟨env, stage, admitted⟩ = some t)
    (rest : EndsAs ed25519 t turns env n outcome) : EndsAs ed25519 s turns env n outcome := by
  obtain ⟨sections, r, admitted', reaches, node, ended⟩ := rest
  refine ⟨sections + 1, r, admitted', ?_, node, ended⟩
  have here : s.turns[turns.length]? = some ⟨env, stage, admitted⟩ := by
    rw [last, List.getElem?_concat_length]
  rw [List.replicate_succ, runPartial, ReadLoops.step, here, Option.bind_some, next]
  exact reaches

/-- The turn at its next section, the last one. -/
theorem turns_set_last {turn : Turn} (last : s.turns = turns ++ [turn]) (turn' : Turn) :
    s.turns.set turns.length turn' = turns ++ [turn'] := by
  rw [last, List.set_append_right _ _ le_rfl, Nat.sub_self, List.set_cons_zero]

theorem endsAs_dispatch (last : s.turns = turns ++ [⟨env, .passed, admitted⟩]) :
    EndsAs ed25519 s turns env (s.node.dispatch env).1 (s.node.dispatch env).2 := by
  unfold TPCPNode.dispatch
  split_ifs with handler room
  · exact .after last (if_pos handler) (.done admitted (turns_set_last last _))
  · -- There is no handler, and the queue has room.
    refine .after last (if_neg handler) ?_
    have last' := turns_set_last last ⟨env, .unhandled, admitted⟩
    refine .after last' (congrArg some (if_pos room)) (.done admitted ?_)
    exact turns_set_last last' _
  · refine .after last (if_neg handler) ?_
    have last' := turns_set_last last ⟨env, .unhandled, admitted⟩
    refine .after last' (congrArg some (if_neg room)) (.done admitted ?_)
    exact turns_set_last last' _

/-- Where no other turn goes on in between, the sections of a turn do what `readFrame` does. -/
theorem endsAs_readFrame (s : ReadLoops) (env : TPCPEnvelope)
    (survives : (s.node.readFrame ed25519 s.clock (some env)).2 ≠ .refused .panicked) :
    ∃ t, ReadLoops.step ed25519 s (.frame (some env)) = some t ∧
      EndsAs ed25519 t s.turns env (s.node.readFrame ed25519 s.clock (some env)).1
        (s.node.readFrame ed25519 s.clock (some env)).2 := by
  refine ⟨_, rfl, ?_⟩
  unfold TPCPNode.readFrame at survives ⊢
  dsimp only at survives ⊢
  split_ifs at survives ⊢ with seen
  · refine .after rfl (congrArg some (if_pos seen)) (.done none ?_)
    exact turns_set_last rfl _
  · generalize begun : ({ s with turns := s.turns ++ [⟨env, .read, none⟩] } : ReadLoops) = m
    have node : m.node = s.node := by rw [← begun]
    have clock : m.clock = s.clock := by rw [← begun]
    have last : m.turns = s.turns ++ [⟨env, .read, none⟩] := by rw [← begun]
    rw [← node] at seen
    refine .after last (congrArg some (if_neg seen)) ?_
    generalize admits : m.letPass s.turns.length ⟨env, .read, none⟩ = r
    have recorded : r.node = s.node.record s.clock env.messageId := by
      rw [← admits, letPass, node, clock]
    have last' : r.turns = s.turns ++ [⟨env, .fresh, some m.clock⟩] := by
      rw [← admits]
      exact turns_set_last last _
    have keys : (s.node.record s.clock env.messageId).peerKeys = s.node.peerKeys := rfl
    rw [keys] at survives ⊢
    rw [← recorded]
    -- What the check comes to ends the turn, or leaves it to `dispatch`.
    cases check : checkSignature ed25519 s.node.peerKeys env with
    | passed =>
      refine .after (t := r.goOn s.turns.length ⟨env, .fresh, some m.clock⟩ .passed) last' ?_ ?_
      · simp only [advance, recorded, keys, check]
      · exact endsAs_dispatch (turns_set_last last' _)
    | panicked =>
      rw [check] at survives
      exact absurd rfl survives
    | unknownPeer =>
      refine .after (t := r.goOn s.turns.length ⟨env, .fresh, some m.clock⟩
        (.ended (.refused .unknownPeer))) last' ?_ ?_
      · simp only [advance, recorded, keys, check]
      · exact .done _ (turns_set_last last' _)
    | failed =>
      refine .after (t := r.goOn s.turns.length ⟨env, .fresh, some m.clock⟩
        (.ended (.refused .failed))) last' ?_ ?_
      · simp only [advance, recorded, keys, check]
      · exact .done _ (turns_set_last last' _)

end Alone

end ReadLoops

end AgentTelepathy.Go
