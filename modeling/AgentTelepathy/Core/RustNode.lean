import AgentTelepathy.Foundation.Transition
import AgentTelepathy.Schemas.Envelope
import AgentTelepathy.Security.RustIdentity

/-!
# Inbound envelopes of the Rust node

Every connection has a task of its own, and each calls `dispatch_env` for the envelopes
it reads. A call goes through sections that hold one lock or do one operation on the
dead letter queue: it reads the key of the sender and checks the signature, checks and
records the message id, looks for a handler, and queues what is rejected or has none.
Sections of different calls interleave, and the clock may go on between any two.
-/

namespace AgentTelepathy.Rust

open Foundation Transition

/-- A `TPCPEnvelope`, by the fields that `dispatch_env` reads. -/
structure TPCPEnvelope where
  messageId : String
  senderId : String
  intent : Intent
  payload : Value
  signature : Option String

/-- How an envelope ends. -/
inductive Outcome where
  /-- The handler of its intent was called. -/
  | invoked
  /-- It is in the dead letter queue. -/
  | enqueued
  /-- It was dropped, for the queue was full. -/
  | full
  /-- It was dropped as a replay. -/
  | replayed
deriving DecidableEq

/-- The section that a call of `dispatch_env` has before it. -/
inductive Stage where
  /-- Reading `peer_keys`. -/
  | called
  /-- Queueing, after the signature was not accepted. -/
  | rejected
  /-- Checking and recording the message id. -/
  | admitted
  /-- Reading `handlers`. -/
  | fresh
  /-- Queueing, for want of a handler. -/
  | unhandled
  | ended (outcome : Outcome)
deriving DecidableEq

/-- A call of `dispatch_env`. -/
structure Call where
  env : TPCPEnvelope
  stage : Stage

/-- What the calls share, and what happened so far. -/
structure State where
  calls : List Call
  seenMessages : Dict String ℤ
  /-- The intents with a handler. -/
  handlers : List Intent
  dlq : List TPCPEnvelope
  /-- The time in seconds. -/
  clock : ℤ
  /-- The message ids that passed the replay check, and when. -/
  passes : List (String × ℤ)
  /-- The calls that ended, and how. -/
  outcomes : List (ℕ × Outcome)

/-- A node without calls. -/
def State.initial (handlers : List Intent) (clock : ℤ) : State :=
  ⟨[], Dict.empty, handlers, [], clock, [], []⟩

/-- What is fixed: the registered keys, and the libraries. -/
structure Gate where
  peerKeys : Dict String String
  floats : FloatText
  dalek : Verifier

namespace State

/-- A call goes on to its next section. -/
def goOn (s : State) (i : ℕ) (env : TPCPEnvelope) (stage : Stage) : State :=
  { s with calls := s.calls.set i ⟨env, stage⟩ }

/-- A call ends. -/
def finish (s : State) (i : ℕ) (env : TPCPEnvelope) (outcome : Outcome) : State :=
  { s with
    calls := s.calls.set i ⟨env, .ended outcome⟩
    outcomes := s.outcomes ++ [(i, outcome)] }

/-- `dlq.enqueue(env)`, on a channel of capacity 100, and what is left to do. -/
def enqueue (s : State) (i : ℕ) (env : TPCPEnvelope) : State :=
  if s.dlq.length < 100 then { s with dlq := s.dlq ++ [env] }.finish i env .enqueued
  else s.finish i env .full

/-- The replay section. -/
def checkReplay (s : State) (i : ℕ) (env : TPCPEnvelope) : State :=
  let now := s.clock
  let seen := s.seenMessages.filter fun entry => now - entry.2 < 300
  if seen.contains env.messageId then { s with seenMessages := seen }.finish i env .replayed
  else
    { s with
      seenMessages := seen.set env.messageId now
      passes := s.passes ++ [(env.messageId, now)] }.goOn i env .fresh

end State

/-- The signature of an envelope is empty or missing. -/
def TPCPEnvelope.Unsigned (env : TPCPEnvelope) : Prop := env.signature.all (· = "") = true

instance (env : TPCPEnvelope) : Decidable env.Unsigned := inferInstanceAs (Decidable (_ = true))

namespace Gate

variable (gate : Gate)

/-- The first section, with the checks that follow it. -/
def enforce (env : TPCPEnvelope) : Stage :=
  let hasSignature := (env.signature.map fun s => !s.isEmpty).getD false
  let senderKey := gate.peerKeys.get? env.senderId
  if hasSignature && senderKey.isNone then .rejected
  else
    match senderKey with
    | some pubKeyB64 =>
      let canonical := canonicalJson gate.floats env.payload
      let sigOk := (env.signature.map (verify gate.dalek pubKeyB64 canonical)).getD false
      if !sigOk then .rejected else .admitted
    | none => .admitted

/-- The next section of a call. -/
def advance (s : State) (i : ℕ) (call : Call) : Option State :=
  match call.stage with
  | .called => some (s.goOn i call.env (gate.enforce call.env))
  | .rejected => some (s.enqueue i call.env)
  | .admitted => some (s.checkReplay i call.env)
  | .fresh =>
    if call.env.intent ∈ s.handlers then some (s.finish i call.env .invoked)
    else some (s.goOn i call.env .unhandled)
  | .unhandled => some (s.enqueue i call.env)
  | .ended _ => none

end Gate

/-- What may happen next. -/
inductive Action where
  /-- A connection reads an envelope and calls `dispatch_env`. -/
  | dispatch (env : TPCPEnvelope)
  /-- A call takes its next section. -/
  | advance (call : ℕ)
  /-- Time goes on. -/
  | tick (now : ℤ)
  /-- `register_handler` -/
  | registerHandler (intent : Intent)
  /-- `drain` takes an envelope from the queue. -/
  | drain

/-- The state after an action; nothing where the action is not possible. -/
def step (gate : Gate) (s : State) : Action → Option State
  | .dispatch env => some { s with calls := s.calls ++ [⟨env, .called⟩] }
  | .advance i => s.calls[i]?.bind (gate.advance s i)
  | .tick now => if s.clock ≤ now then some { s with clock := now } else none
  | .registerHandler intent => some { s with handlers := intent :: s.handlers }
  | .drain =>
    match s.dlq with
    | [] => none
    | _ :: rest => some { s with dlq := rest }

/-! ### Signature enforcement -/

/-- The sender is not registered and the envelope is unsigned, or the signature verifies
under the sender's key over the canonical payload. -/
def Gate.Accepts (gate : Gate) (env : TPCPEnvelope) : Prop :=
  gate.peerKeys.get? env.senderId = none ∧ env.Unsigned ∨
    ∃ key signature, gate.peerKeys.get? env.senderId = some key ∧ env.signature = some signature ∧
      verify gate.dalek key (canonicalJson gate.floats env.payload) signature = true

variable {gate : Gate}

theorem enforce_spec (gate : Gate) (env : TPCPEnvelope) :
    gate.enforce env = .admitted ∧ gate.Accepts env ∨
      gate.enforce env = .rejected ∧ ¬ gate.Accepts env := by
  unfold Gate.enforce Gate.Accepts TPCPEnvelope.Unsigned
  cases gate.peerKeys.get? env.senderId with
  | none =>
    cases env.signature with
    | none => simp
    | some signature =>
      by_cases empty : signature = ""
      · simp [empty]
      · simp [empty]
  | some key =>
    cases env.signature with
    | none => simp
    | some signature =>
      cases verify gate.dalek key (canonicalJson gate.floats env.payload) signature <;> simp

/-! ### What a section does -/

/-- How the stage of a call may change. -/
inductive Follows (gate : Gate) (env : TPCPEnvelope) : Stage → Stage → Prop
  | enforced : Follows gate env .called (gate.enforce env)
  | queued {outcome : Outcome} (queued : outcome = .enqueued ∨ outcome = .full) :
      Follows gate env .rejected (.ended outcome)
  | replayed : Follows gate env .admitted (.ended .replayed)
  | passed : Follows gate env .admitted .fresh
  | invoked : Follows gate env .fresh (.ended .invoked)
  | noHandler : Follows gate env .fresh .unhandled
  | parked {outcome : Outcome} (queued : outcome = .enqueued ∨ outcome = .full) :
      Follows gate env .unhandled (.ended outcome)

/-- The outcome of a call that ended. -/
def Stage.outcome : Stage → Option Outcome
  | .ended outcome => some outcome
  | _ => none

variable {s t : State} {i : ℕ} {call : Call}

theorem enqueue_spec (s : State) (i : ℕ) (env : TPCPEnvelope) :
    ∃ outcome, (outcome = .enqueued ∨ outcome = .full) ∧
      (s.enqueue i env).calls = s.calls.set i ⟨env, .ended outcome⟩ ∧
      (s.enqueue i env).outcomes = s.outcomes ++ [(i, outcome)] := by
  unfold State.enqueue
  split_ifs
  · exact ⟨.enqueued, .inl rfl, rfl, rfl⟩
  · exact ⟨.full, .inr rfl, rfl, rfl⟩

/-- A section changes the stage of its call, and records its outcome if it ends. -/
theorem advance_calls (next : gate.advance s i call = some t) :
    ∃ stage, Follows gate call.env call.stage stage ∧
      t.calls = s.calls.set i ⟨call.env, stage⟩ ∧
      t.outcomes = s.outcomes ++ (stage.outcome.map fun outcome => (i, outcome)).toList := by
  unfold Gate.advance at next
  -- One case for each section that the call can take next.
  cases stage : call.stage with
  | called =>
    simp only [stage, Option.some.injEq] at next
    subst next
    refine ⟨_, .enforced, rfl, ?_⟩
    rcases enforce_spec gate call.env with ⟨admitted, -⟩ | ⟨rejected, -⟩
    · rw [admitted]
      exact (List.append_nil _).symm
    · rw [rejected]
      exact (List.append_nil _).symm
  | rejected =>
    simp only [stage, Option.some.injEq] at next
    subst next
    obtain ⟨outcome, queued, calls, outcomes⟩ := enqueue_spec s i call.env
    exact ⟨_, .queued queued, calls, outcomes⟩
  | admitted =>
    simp only [stage, Option.some.injEq] at next
    subst next
    unfold State.checkReplay
    dsimp only
    split_ifs
    · exact ⟨_, .replayed, rfl, rfl⟩
    · exact ⟨_, .passed, rfl, (List.append_nil _).symm⟩
  | fresh =>
    simp only [stage] at next
    split_ifs at next <;> cases next
    · exact ⟨_, .invoked, rfl, rfl⟩
    · exact ⟨_, .noHandler, rfl, (List.append_nil _).symm⟩
  | unhandled =>
    simp only [stage, Option.some.injEq] at next
    subst next
    obtain ⟨outcome, queued, calls, outcomes⟩ := enqueue_spec s i call.env
    exact ⟨_, .parked queued, calls, outcomes⟩
  | ended outcome =>
    simp only [stage] at next
    cases next

/-- Only the replay section touches the seen messages. -/
theorem advance_seen (next : gate.advance s i call = some t) :
    t.clock = s.clock ∧ (call.stage ≠ .admitted →
      t.seenMessages = s.seenMessages ∧ t.passes = s.passes) := by
  have queue (env : TPCPEnvelope) : (s.enqueue i env).clock = s.clock ∧
      (s.enqueue i env).seenMessages = s.seenMessages ∧ (s.enqueue i env).passes = s.passes := by
    unfold State.enqueue
    split_ifs <;> exact ⟨rfl, rfl, rfl⟩
  unfold Gate.advance at next
  -- The cache is written in one stage only, after the gate has admitted the envelope.
  cases stage : call.stage with
  | called =>
    simp only [stage, Option.some.injEq] at next
    subst next
    exact ⟨rfl, fun _ => ⟨rfl, rfl⟩⟩
  | rejected =>
    simp only [stage, Option.some.injEq] at next
    subst next
    exact ⟨(queue _).1, fun _ => (queue _).2⟩
  | admitted =>
    simp only [stage, Option.some.injEq] at next
    subst next
    refine ⟨?_, fun other => absurd rfl other⟩
    unfold State.checkReplay
    dsimp only
    split_ifs <;> rfl
  | fresh =>
    simp only [stage] at next
    split_ifs at next <;> cases next <;> exact ⟨rfl, fun _ => ⟨rfl, rfl⟩⟩
  | unhandled =>
    simp only [stage, Option.some.injEq] at next
    subst next
    exact ⟨(queue _).1, fun _ => (queue _).2⟩
  | ended outcome =>
    simp only [stage] at next
    cases next

/-- A call that has not ended can take its next section. -/
theorem isSome_advance (gate : Gate) (s : State) (i : ℕ) (pending : call.stage.outcome = none) :
    (gate.advance s i call).isSome := by
  unfold Gate.advance
  cases stage : call.stage with
  | ended outcome => rw [stage] at pending; cases pending
  | fresh => dsimp only; split_ifs <;> rfl
  | _ => rfl

variable {action : Action}

/-- An action is a section of a call, a new call, or none of the calls' business. -/
theorem step_cases (next : step gate s action = some t) :
    (∃ i call, action = .advance i ∧ s.calls[i]? = some call ∧ gate.advance s i call = some t) ∨
    (∃ env, action = .dispatch env ∧ t = { s with calls := s.calls ++ [⟨env, .called⟩] }) ∨
    ((∀ i, action ≠ .advance i) ∧ t.calls = s.calls ∧ t.outcomes = s.outcomes ∧
      t.seenMessages = s.seenMessages ∧ t.passes = s.passes ∧ s.clock ≤ t.clock) := by
  cases action with
  | dispatch env => exact .inr (.inl ⟨env, rfl, (Option.some.inj next).symm⟩)
  | advance i =>
    obtain ⟨call, held, moved⟩ := Option.bind_eq_some_iff.mp next
    exact .inl ⟨i, call, rfl, held, moved⟩
  | tick now =>
    simp only [step] at next
    split_ifs at next with later
    obtain rfl := Option.some.inj next
    exact .inr (.inr ⟨by simp, rfl, rfl, rfl, rfl, later⟩)
  | registerHandler intent =>
    obtain rfl := Option.some.inj next
    exact .inr (.inr ⟨by simp, rfl, rfl, rfl, rfl, le_rfl⟩)
  | drain =>
    simp only [step] at next
    split at next
    · cases next
    · obtain rfl := Option.some.inj next
      exact .inr (.inr ⟨by simp, rfl, rfl, rfl, rfl, le_rfl⟩)

/-! ### Calls and their outcomes -/

/-- The stages behind signature enforcement. -/
def Stage.PastGate : Stage → Prop
  | .admitted | .fresh | .unhandled | .ended .invoked | .ended .replayed => True
  | _ => False

/-- How a call ended, as often as it did. -/
def State.outcomesOf (s : State) (i : ℕ) : List Outcome :=
  (s.outcomes.filter fun p => p.1 = i).map Prod.snd

/-- What holds of the calls. -/
structure CallsSound (gate : Gate) (s : State) : Prop where
  accepted : ∀ (i : ℕ) (call : Call), s.calls[i]? = some call → call.stage.PastGate →
    gate.Accepts call.env
  outcomes : ∀ i, s.outcomesOf i = (s.calls[i]?.bind fun call => call.stage.outcome).toList

theorem Follows.accepted {env : TPCPEnvelope} {before after : Stage}
    (follows : Follows gate env before after) (past : before.PastGate → gate.Accepts env)
    (now : after.PastGate) : gate.Accepts env := by
  cases follows with
  | enforced =>
    rcases enforce_spec gate env with ⟨-, accepts⟩ | ⟨rejected, -⟩
    · exact accepts
    · rw [rejected] at now
      exact now.elim
  | queued queued => rcases queued with rfl | rfl <;> exact now.elim
  | parked queued => exact past trivial
  | _ => exact past trivial

/-- A call that goes on had not ended. -/
theorem Follows.pending {env : TPCPEnvelope} {before after : Stage}
    (follows : Follows gate env before after) : before.outcome = none := by
  cases follows <;> rfl

theorem CallsSound.step (sound : CallsSound gate s) (next : step gate s action = some t) :
    CallsSound gate t := by
  rcases step_cases next with ⟨i, call, rfl, held, moved⟩ | ⟨env, rfl, rfl⟩ |
      ⟨-, calls, outcomes, -, -, -⟩
  · obtain ⟨stage, follows, calls, outcomes⟩ := advance_calls moved
    have inside : i < s.calls.length := (List.getElem?_eq_some_iff.mp held).1
    constructor
    · intro j other there past
      rw [calls, List.getElem?_set] at there
      split_ifs at there with same
      · obtain rfl := Option.some.inj there
        subst same
        exact follows.accepted (sound.accepted _ call held) past
      · exact sound.accepted j other there past
    · intro j
      have before := sound.outcomes j
      rw [calls, List.getElem?_set, State.outcomesOf, outcomes, List.filter_append, List.map_append]
      -- Only the call that advances gets an outcome, and it had none before.
      by_cases same : i = j
      · subst same
        rw [held, Option.bind_some, follows.pending, State.outcomesOf] at before
        rw [before, if_pos rfl, if_pos inside]
        cases ended : stage.outcome <;> simp [ended]
      · have none : ((stage.outcome.map fun outcome => (i, outcome)).toList.filter
            fun p : ℕ × Outcome => p.1 = j) = [] := by
          cases stage.outcome <;> simp [same]
        rw [none, if_neg same, List.map_nil, List.append_nil]
        exact before
  -- A call that is dispatched takes the next index and is not past the gate.
  · have old (j : ℕ) (call : Call) (there : (s.calls ++ [⟨env, .called⟩])[j]? = some call) :
        s.calls[j]? = some call ∨ call = ⟨env, .called⟩ := by
      rw [List.getElem?_append] at there
      split_ifs at there
      · exact .inl there
      · have member := List.mem_of_getElem? there
        exact .inr (List.mem_singleton.mp member)
    constructor
    · intro j call there past
      rcases old j call there with before | rfl
      · exact sound.accepted j call before past
      · exact past.elim
    · intro j
      have before := sound.outcomes j
      rw [State.outcomesOf] at before ⊢
      rw [before]
      by_cases inside : j < s.calls.length
      · rw [List.getElem?_append_left inside]
      · rw [List.getElem?_append_right (not_lt.mp inside), List.getElem?_eq_none (not_lt.mp inside)]
        cases j - s.calls.length <;> rfl
  · constructor
    · rw [calls]
      exact sound.accepted
    · intro j
      rw [calls, State.outcomesOf, outcomes]
      exact sound.outcomes j

theorem callsSound {handlers : List Intent} {clock : ℤ} {actions : List Action}
    (run : Run (OfPartial (Rust.step gate)) (State.initial handlers clock) actions s) :
    CallsSound gate s := by
  have preserved :
      ∀ s a t, CallsSound gate s → OfPartial (Rust.step gate) s a t → CallsSound gate t :=
    fun _ _ _ sound next => sound.step next
  have reached := run.invariant preserved ⟨fun i call held => (by cases held), fun i => rfl⟩
  exact reached

/-! ### Turns -/

/-- The action is a section of the given call. -/
def Action.isTurn (i : ℕ) : Action → Bool
  | .advance j => i = j
  | _ => false

/-- The most sections that a call has before it. -/
def Stage.sections : Stage → ℕ
  | .called => 4
  | .admitted => 3
  | .fresh => 2
  | .rejected | .unhandled => 1
  | .ended _ => 0

theorem Stage.sections_pos {stage : Stage} (pending : stage.outcome = none) :
    0 < stage.sections := by
  cases stage with
  | ended outcome => cases pending
  | _ => simp [sections]

theorem Follows.sections_lt {env : TPCPEnvelope} {before after : Stage}
    (follows : Follows gate env before after) : after.sections < before.sections := by
  cases follows with
  | enforced =>
    rcases enforce_spec gate env with ⟨admitted, -⟩ | ⟨rejected, -⟩
    · rw [admitted]
      decide
    · rw [rejected]
      decide
  | _ => simp [Stage.sections]

/-- Every section that a call took leaves it one fewer. -/
theorem turns_add_sections_le {handlers : List Intent} {clock : ℤ} {actions : List Action}
    (run : Run (OfPartial (Rust.step gate)) (State.initial handlers clock) actions s) :
    ∀ i, (∀ call, s.calls[i]? = some call →
        actions.countP (Action.isTurn i) + call.stage.sections ≤ 4) ∧
      (s.calls[i]? = none → actions.countP (Action.isTurn i) = 0) := by
  induction run with
  | nil => exact fun i => ⟨fun call held => (by cases held), fun _ => rfl⟩
  | @snoc actions s t action before next ih =>
    intro i
    obtain ⟨present, absent⟩ := ih i
    rw [List.countP_append]
    rcases step_cases next with ⟨j, moving, rfl, held, moved⟩ | ⟨env, rfl, rfl⟩ |
        ⟨other, calls, -, -, -, -⟩
    · obtain ⟨stage, follows, calls, -⟩ := advance_calls moved
      rw [calls, List.getElem?_set]
      -- A turn of the call itself leaves it fewer sections.
      by_cases same : j = i
      · subst same
        have fewer := follows.sections_lt
        have bound := present moving held
        have inside : j < s.calls.length := (List.getElem?_eq_some_iff.mp held).1
        rw [if_pos rfl, if_pos inside]
        refine ⟨fun call there => ?_, fun none => (by cases none)⟩
        obtain rfl := Option.some.inj there
        simp only [Action.isTurn, List.countP_singleton, decide_true, if_true]
        omega
      · have turn : [Action.advance j].countP (Action.isTurn i) = 0 := by
          simp [Action.isTurn, Ne.symm same]
        rw [if_neg same, turn]
        exact ⟨present, absent⟩
    -- A new call has had no turn.
    · have turn : [Action.dispatch env].countP (Action.isTurn i) = 0 := by simp [Action.isTurn]
      rw [turn, Nat.add_zero, List.getElem?_append]
      split_ifs with inside
      · exact ⟨present, absent⟩
      · have none := absent (List.getElem?_eq_none (not_lt.mp inside))
        refine ⟨fun call there => ?_, fun _ => none⟩
        obtain rfl := List.mem_singleton.mp (List.mem_of_getElem? there)
        rw [none]
        exact le_rfl
    · have turn : [action].countP (Action.isTurn i) = 0 := by
        cases action with
        | advance j => exact absurd rfl (other j)
        | _ => simp [Action.isTurn]
      rw [calls, turn]
      exact ⟨present, absent⟩

/-! ### The replay check -/

/-- What holds of the ids that passed. -/
structure PassesSound (s : State) : Prop where
  /-- The latest pass of an id within the window is recorded. -/
  recorded : ∀ p ∈ s.passes, s.clock < p.2 + 300 → s.seenMessages.get? p.1 = some p.2
  past : ∀ p ∈ s.passes, p.2 ≤ s.clock
  apart : s.passes.Pairwise fun p q => p.1 = q.1 → p.2 + 300 ≤ q.2

theorem PassesSound.checkReplay (sound : PassesSound s) (i : ℕ) (env : TPCPEnvelope) :
    PassesSound (s.checkReplay i env) := by
  -- The purge keeps every pass that is younger than the window.
  have kept {id : String} {time : ℤ} (recent : s.clock < time + 300)
      (recorded : s.seenMessages.get? id = some time) :
      (s.seenMessages.filter fun entry => s.clock - entry.2 < 300).get? id = some time := by
    rw [Dict.get?_filter_eq_some_iff]
    exact ⟨recorded, by simpa using by omega⟩
  unfold State.checkReplay
  dsimp only
  split_ifs with duplicate
  · exact ⟨fun p member recent => kept recent (sound.recorded p member recent), sound.past,
      sound.apart⟩
  · -- An id that is not found had its last pass before the window.
    have absent : (s.seenMessages.filter fun entry => s.clock - entry.2 < 300).get? env.messageId =
        none := by
      rwa [Bool.not_eq_true, Dict.contains, Option.isSome_eq_false_iff, Option.isNone_iff_eq_none]
        at duplicate
    have old : ∀ p ∈ s.passes, p.1 = env.messageId → p.2 + 300 ≤ s.clock := by
      intro p member same
      by_contra recent
      have found := kept (not_le.mp recent) (sound.recorded p member (not_le.mp recent))
      rw [same, absent] at found
      cases found
    constructor
    · intro p member recent
      change (Dict.set _ _ _).get? p.1 = some p.2
      rcases List.mem_append.mp member with earlier | now
      · rw [Dict.get?_set_of_ne]
        · exact kept recent (sound.recorded p earlier recent)
        · intro same
          exact absurd (old p earlier same) (not_le.mpr recent)
      · obtain rfl := List.mem_singleton.mp now
        rw [Dict.get?_set, if_pos rfl]
    · intro p member
      rcases List.mem_append.mp member with earlier | now
      · exact sound.past p earlier
      · obtain rfl := List.mem_singleton.mp now
        exact le_rfl
    · change (s.passes ++ [(env.messageId, s.clock)]).Pairwise _
      rw [List.pairwise_append]
      refine ⟨sound.apart, List.pairwise_singleton _ _, fun p earlier q now same => ?_⟩
      obtain rfl := List.mem_singleton.mp now
      exact old p earlier same

theorem PassesSound.step (sound : PassesSound s) (next : step gate s action = some t) :
    PassesSound t := by
  have unchanged (seen : t.seenMessages = s.seenMessages) (passes : t.passes = s.passes)
      (later : s.clock ≤ t.clock) : PassesSound t := by
    refine ⟨?_, ?_, passes ▸ sound.apart⟩ <;> rw [passes]
    · exact fun p member recent => seen ▸ sound.recorded p member (later.trans_lt recent)
    · exact fun p member => (sound.past p member).trans later
  rcases step_cases next with ⟨i, call, rfl, held, moved⟩ | ⟨env, rfl, rfl⟩ |
      ⟨-, -, -, seen, passes, later⟩
  · by_cases checking : call.stage = .admitted
    · rw [Gate.advance, checking] at moved
      obtain rfl := Option.some.inj moved
      exact sound.checkReplay i call.env
    · obtain ⟨clock, same⟩ := advance_seen moved
      obtain ⟨seen, passes⟩ := same checking
      exact unchanged seen passes clock.ge
  · exact unchanged rfl rfl le_rfl
  · exact unchanged seen passes later

theorem passesSound {handlers : List Intent} {clock : ℤ} {actions : List Action}
    (run : Run (OfPartial (Rust.step gate)) (State.initial handlers clock) actions s) :
    PassesSound s := by
  have preserved : ∀ s a t, PassesSound s → OfPartial (Rust.step gate) s a t → PassesSound t :=
    fun _ _ _ sound next => sound.step next
  have reached := run.invariant preserved
    ⟨fun p member => (by cases member), fun p member => (by cases member), List.Pairwise.nil⟩
  exact reached

/-- How often an id passed the replay check from a time on, for less than 300 seconds. -/
def State.passesWithin (s : State) (messageId : String) (start : ℤ) : ℕ :=
  s.passes.countP fun p => p.1 = messageId ∧ start ≤ p.2 ∧ p.2 < start + 300

theorem PassesSound.passesWithin_le (sound : PassesSound s) (messageId : String) (start : ℤ) :
    s.passesWithin messageId start ≤ 1 := by
  rw [State.passesWithin, List.countP_eq_length_filter]
  have apart := sound.apart.filter fun p => decide (p.1 = messageId ∧ start ≤ p.2 ∧
    p.2 < start + 300)
  have within : ∀ p ∈ s.passes.filter (fun p => decide (p.1 = messageId ∧ start ≤ p.2 ∧
      p.2 < start + 300)), p.1 = messageId ∧ start ≤ p.2 ∧ p.2 < start + 300 :=
    fun p member => of_decide_eq_true (List.mem_filter.mp member).2
  cases passes : s.passes.filter (fun p => decide (p.1 = messageId ∧ start ≤ p.2 ∧
      p.2 < start + 300)) with
  | nil => exact Nat.zero_le _
  | cons p rest =>
    cases rest with
    | nil => exact le_rfl
    | cons q rest =>
      rw [passes] at apart within
      have gap := (List.pairwise_cons.mp apart).1 q List.mem_cons_self
      have first := within p List.mem_cons_self
      have second := within q (List.mem_cons_of_mem _ List.mem_cons_self)
      have far := gap (first.1.trans second.1.symm)
      omega

/-! ### The gate -/

/-- Handlers are called for accepted envelopes alone; an envelope that is not accepted leaves
the seen messages as they are; no id passes twice within 300 seconds; and every call has
ended in one way, or has not yet had four sections and can take its next. -/
theorem dispatchEnv_sound {handlers : List Intent} {clock : ℤ} {actions : List Action}
    (run : Run (OfPartial (Rust.step gate)) (State.initial handlers clock) actions s) :
    (∀ i, Outcome.invoked ∈ s.outcomesOf i →
        ∃ call, s.calls[i]? = some call ∧ gate.Accepts call.env) ∧
      (∀ i call t, s.calls[i]? = some call → ¬ gate.Accepts call.env →
        Rust.step gate s (.advance i) = some t → t.seenMessages = s.seenMessages) ∧
      (∀ messageId start, s.passesWithin messageId start ≤ 1) ∧
      ∀ i call, s.calls[i]? = some call → (∃ outcome, s.outcomesOf i = [outcome]) ∨
        s.outcomesOf i = [] ∧ actions.countP (Action.isTurn i) < 4 ∧
          (Rust.step gate s (.advance i)).isSome := by
  have sound := callsSound run
  refine ⟨fun i invoked => ?_, fun i call t held rejected next => ?_,
    fun messageId start => (passesSound run).passesWithin_le messageId start, fun i call held => ?_⟩
  · rw [sound.outcomes i, Option.mem_toList] at invoked
    obtain ⟨call, held, outcome⟩ := Option.bind_eq_some_iff.mp invoked
    -- Only a stage past the gate has this outcome.
    have past : call.stage.PastGate := by
      cases stage : call.stage <;> rw [stage] at outcome <;> cases outcome
      trivial
    exact ⟨call, held, sound.accepted i call held past⟩
  · have moved : gate.advance s i call = some t := by simpa [Rust.step, held] using next
    refine ((advance_seen moved).2 fun checking => ?_).1
    exact rejected (sound.accepted i call held (by rw [checking]; trivial))
  · rw [sound.outcomes i, held, Option.bind_some]
    cases pending : call.stage.outcome with
    | some outcome => exact .inl ⟨outcome, rfl⟩
    | none =>
      -- At most four sections, so a call that has not ended has a turn left.
      have bound := ((turns_add_sections_le run) i).1 call held
      have left := Stage.sections_pos pending
      refine .inr ⟨rfl, by omega, ?_⟩
      rw [Rust.step, held, Option.bind_some]
      exact isSome_advance gate s i pending

/-- A registered sender without a signature, an unsigned stranger, and its replay. -/
theorem dispatchEnv_sound_replay :
    let gate : Gate := ⟨Dict.ofItems [("known", "key")], pythonFloats, transparent.verify⟩
    ∃ s : State, s.outcomes = [(2, .replayed), (1, .invoked), (0, .enqueued)] ∧
      s.passesWithin "m2" 0 ≤ 1 ∧ ∃ call, s.calls[1]? = some call ∧ gate.Accepts call.env := by
  intro gate
  let known : TPCPEnvelope := ⟨"m1", "known", .critique, ⟨.null, trivial⟩, none⟩
  let stranger : TPCPEnvelope := ⟨"m2", "stranger", .critique, ⟨.null, trivial⟩, some ""⟩
  let actions : List Action := [.dispatch known, .dispatch stranger, .dispatch stranger, .advance 0,
    .advance 1, .advance 2, .advance 1, .tick 299, .advance 2, .advance 1, .advance 0]
  have reaches : (runPartial (Rust.step gate) (State.initial [.critique] 0) actions).any
      (fun s => s.outcomes = [(2, .replayed), (1, .invoked), (0, .enqueued)]) = true := by decide
  obtain ⟨s, run, ended⟩ := exists_run_of_any reaches
  have outcomes := of_decide_eq_true ended
  obtain ⟨invoked, -, window, -⟩ := dispatchEnv_sound run
  refine ⟨s, outcomes, window "m2" 0, invoked 1 ?_⟩
  rw [State.outcomesOf, outcomes]
  decide

end AgentTelepathy.Rust
