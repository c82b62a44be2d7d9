import AgentTelepathy.Foundation.Calls
import AgentTelepathy.Foundation.Outbox
import AgentTelepathy.Foundation.Recollection
import AgentTelepathy.Foundation.Transition
import AgentTelepathy.Schemas.Envelope
import AgentTelepathy.Security.JavaIdentity

/-!
# Listeners of the Java node

Every connection has a listener whose `onMessage` runs on a thread of its own. All that the
listeners share are concurrent maps and a bounded queue, each of which takes one operation at
a time; nothing holds over two of them. A call reads the clock, puts its message id with that
time, sweeps old ids one by one, reads the key of the sender and checks the signature, looks
for a handler, and offers to the dead letter queue what has none. Other calls, registrations
and the clock may come between any two of these.
-/

namespace AgentTelepathy.Java

open Foundation Transition Recollection

/-- A `MessageHeader`, by the fields that the node reads; Jackson leaves fields null that a
frame does not have. -/
structure MessageHeader where
  messageId : Option String
  senderId : Option String
  intent : Option Intent

/-- A `TPCPEnvelope`, by the fields that the node reads. -/
structure TPCPEnvelope (π : Type) where
  header : Option MessageHeader
  payload : Option π
  signature : Option String

/-- How a call of `onMessage` ends. -/
inductive Outcome where
  /-- The message id was present. -/
  | duplicate
  /-- The signature was not accepted. -/
  | dropped
  /-- The handler of its intent was called. -/
  | invoked
  /-- It was offered to the dead letter queue, which had room or not. -/
  | offered (enqueued : Bool)
  /-- An exception was caught. -/
  | malformed
deriving DecidableEq

/-- What a call of `onMessage` has before it. -/
inductive Stage where
  /-- Reading the clock, if there is a message id. -/
  | received
  /-- `seenMessages.putIfAbsent`, with the time that was read. -/
  | stamped (messageId : String) (stamp : ℤ)
  /-- Reading the clock for the cutoff. -/
  | recorded
  /-- `removeIf` for a cutoff 300 s before a time, which has some entries still to visit. -/
  | sweeping (now : ℤ) (left : List String)
  /-- Reading `peerKeys` and checking the signature. -/
  | unverified
  /-- `dispatch`, reading `handlers`. -/
  | accepted
  /-- `dlq.enqueue` -/
  | unhandled
  | ended (outcome : Outcome)
deriving DecidableEq

/-- A call of `onMessage`, for an envelope that Jackson could read. -/
structure Call (π : Type) where
  env : TPCPEnvelope π
  stage : Stage
  /-- The time it put into `seenMessages` and the time at which it did, if it did. -/
  admitted : Option (ℤ × ℤ)

/-- What the calls share, and what happened so far. -/
structure Node (π : Type) where
  calls : List (Call π)
  peerKeys : Dict String String
  seenMessages : Dict String ℤ
  handlers : List Intent
  dlq : List (TPCPEnvelope π)
  /-- `System.currentTimeMillis()` -/
  clock : ℤ
  /-- What was put into `seenMessages` and removed from it. -/
  acts : List (Act String ℤ)
  /-- All calls of `registerPeerKey`. -/
  registered : List (String × String)
  /-- What was drained from the queue. -/
  drained : List (TPCPEnvelope π)

/-- What is fixed: the capacity of the queue, the canonical bytes of a payload, where there
are such, and the verification primitive. -/
structure Settings (π : Type) where
  dlqCapacity : ℕ
  toCanonicalJson : Option π → Option Bytes
  bouncyCastle : Verifier

variable {π : Type}

namespace TPCPEnvelope

def messageId (env : TPCPEnvelope π) : Option String := env.header.bind MessageHeader.messageId

def senderId (env : TPCPEnvelope π) : Option String := env.header.bind MessageHeader.senderId

def intent (env : TPCPEnvelope π) : Option Intent := env.header.bind MessageHeader.intent

end TPCPEnvelope

/-- `sigValid`, for a known sender. -/
def Settings.sigValid (settings : Settings π) (pubKey : String) (env : TPCPEnvelope π) : Bool :=
  match env.signature, settings.toCanonicalJson env.payload with
  | some signature, some canonical =>
    signature ≠ "" && verify settings.bouncyCastle pubKey canonical signature
  | _, _ => false

/-- The check of the signature, with the keys that there are. -/
def Settings.check (settings : Settings π) (peerKeys : Dict String String) (env : TPCPEnvelope π) :
    Bool :=
  match env.senderId with
  -- Without a sender there is nothing to check.
  | none => true
  | some sender =>
    match peerKeys.get? sender with
    | some pubKey => settings.sigValid pubKey env
    | none => env.signature.all (· = "")

namespace Node

/-- A node without calls, with handlers for some intents. -/
def initial (handlers : List Intent) (clock : ℤ) : Node π :=
  ⟨[], Dict.empty, Dict.empty, handlers, [], clock, [], [], []⟩

/-- A call goes on. -/
def goOn (s : Node π) (i : ℕ) (call : Call π) (stage : Stage) : Node π :=
  { s with calls := s.calls.set i { call with stage := stage } }

/-- `putIfAbsent` of a message id that is absent. -/
def letPass (s : Node π) (i : ℕ) (call : Call π) (messageId : String) (stamp : ℤ) : Node π :=
  { s with
    seenMessages := s.seenMessages.set messageId stamp
    calls := s.calls.set i { call with stage := .recorded, admitted := some (stamp, s.clock) }
    acts := s.acts ++ [.record messageId stamp] }

/-- What a call does next; nothing if it has ended, or still has entries to visit. -/
def advance (settings : Settings π) (s : Node π) (i : ℕ) (call : Call π) : Option (Node π) :=
  match call.stage with
  | .received =>
    match call.env.messageId with
    | some messageId => some (s.goOn i call (.stamped messageId s.clock))
    | none => some (s.goOn i call .unverified)
  | .stamped messageId stamp =>
    if s.seenMessages.contains messageId then some (s.goOn i call (.ended .duplicate))
    else some (s.letPass i call messageId stamp)
  | .recorded => some (s.goOn i call (.sweeping s.clock s.seenMessages.keys))
  | .sweeping _ left => if left = [] then some (s.goOn i call .unverified) else none
  | .unverified =>
    if settings.check s.peerKeys call.env then some (s.goOn i call .accepted)
    else some (s.goOn i call (.ended .dropped))
  | .accepted =>
    match call.env.intent with
    -- `handlers.get(null)`, or a header that is null.
    | none => some (s.goOn i call (.ended .malformed))
    | some intent =>
      if intent ∈ s.handlers then some (s.goOn i call (.ended .invoked))
      else some (s.goOn i call .unhandled)
  | .unhandled =>
    if s.dlq.length < settings.dlqCapacity then
      some ({ s with dlq := s.dlq ++ [call.env] }.goOn i call (.ended (.offered true)))
    else some (s.goOn i call (.ended (.offered false)))
  | .ended _ => none

/-- The sweep of a call visits an entry, and removes it if it is old. Entries that came after
the sweep began may be visited too. -/
def visit (s : Node π) (i : ℕ) (call : Call π) (messageId : String) : Option (Node π) :=
  match call.stage with
  | .sweeping now left => some { s with
      seenMessages := forget 300000 messageId now s.seenMessages
      calls := s.calls.set i { call with stage := .sweeping now (left.erase messageId) }
      acts := s.acts ++ [.forget messageId now] }
  | _ => none

/-- What may happen next. -/
inductive Action (π : Type) where
  /-- A frame arrives that Jackson reads as an envelope, or does not. -/
  | onMessage (frame : Option (TPCPEnvelope π))
  | advance (call : ℕ)
  | visit (call : ℕ) (messageId : String)
  | tick (now : ℤ)
  | registerPeerKey (agentId pubKeyB64 : String)
  | registerHandler (intent : Intent)
  /-- `drain` takes so many envelopes. -/
  | drain (count : ℕ)

/-- The node after an action; nothing where the action is not possible. -/
def step (settings : Settings π) (s : Node π) : Action π → Option (Node π)
  | .onMessage none => some s
  | .onMessage (some env) => some { s with calls := s.calls ++ [⟨env, .received, none⟩] }
  | .advance i => s.calls[i]?.bind (s.advance settings i)
  | .visit i messageId => s.calls[i]?.bind fun call => s.visit i call messageId
  | .tick now => if s.clock ≤ now then some { s with clock := now } else none
  | .registerPeerKey agentId pubKeyB64 => some { s with
      peerKeys := s.peerKeys.set agentId pubKeyB64
      registered := s.registered ++ [(agentId, pubKeyB64)] }
  | .registerHandler intent => some { s with handlers := intent :: s.handlers }
  | .drain count => some { s with
      dlq := s.dlq.drop count
      drained := s.drained ++ s.dlq.take count }

/-! ### What a call does next -/

variable {settings : Settings π} {s t : Node π} {i : ℕ} {call : Call π} {action : Action π}

/-- What the next operation of a call leads to. -/
inductive Section (settings : Settings π) (s : Node π) (i : ℕ) (call : Call π) : Node π → Prop
  | stamped {messageId : String} (stage : call.stage = .received)
      (named : call.env.messageId = some messageId) :
      Section settings s i call (s.goOn i call (.stamped messageId s.clock))
  | unnamed (stage : call.stage = .received) :
      Section settings s i call (s.goOn i call .unverified)
  | duplicate {messageId : String} {stamp : ℤ} (stage : call.stage = .stamped messageId stamp) :
      Section settings s i call (s.goOn i call (.ended .duplicate))
  | admitted {messageId : String} {stamp : ℤ} (stage : call.stage = .stamped messageId stamp)
      (absent : s.seenMessages.get? messageId = none) :
      Section settings s i call (s.letPass i call messageId stamp)
  | cutoff (stage : call.stage = .recorded) :
      Section settings s i call (s.goOn i call (.sweeping s.clock s.seenMessages.keys))
  | visited {now : ℤ} {left left' : List String} (messageId : String)
      (stage : call.stage = .sweeping now left) :
      Section settings s i call { s with
        seenMessages := forget 300000 messageId now s.seenMessages
        calls := s.calls.set i { call with stage := .sweeping now left' }
        acts := s.acts ++ [.forget messageId now] }
  | swept {now : ℤ} {left : List String} (stage : call.stage = .sweeping now left) :
      Section settings s i call (s.goOn i call .unverified)
  | accepted (stage : call.stage = .unverified)
      (check : settings.check s.peerKeys call.env = true) :
      Section settings s i call (s.goOn i call .accepted)
  | dropped (stage : call.stage = .unverified) :
      Section settings s i call (s.goOn i call (.ended .dropped))
  | malformed (stage : call.stage = .accepted) :
      Section settings s i call (s.goOn i call (.ended .malformed))
  | invoked (stage : call.stage = .accepted) :
      Section settings s i call (s.goOn i call (.ended .invoked))
  | noHandler (stage : call.stage = .accepted) :
      Section settings s i call (s.goOn i call .unhandled)
  | stored (stage : call.stage = .unhandled) (room : s.dlq.length < settings.dlqCapacity) :
      Section settings s i call
        ({ s with dlq := s.dlq ++ [call.env] }.goOn i call (.ended (.offered true)))
  | full (stage : call.stage = .unhandled) :
      Section settings s i call (s.goOn i call (.ended (.offered false)))

theorem section_of_advance (next : s.advance settings i call = some t) :
    Section settings s i call t := by
  unfold advance at next
  cases stage : call.stage with
  | received =>
    simp only [stage] at next
    cases named : call.env.messageId <;> rw [named] at next <;> cases next
    · exact .unnamed stage
    · exact .stamped stage named
  | stamped messageId stamp =>
    simp only [stage] at next
    split_ifs at next with held <;> cases next
    · exact .duplicate stage
    · refine .admitted stage ?_
      rwa [Bool.not_eq_true, Dict.contains, Option.isSome_eq_false_iff, Option.isNone_iff_eq_none]
        at held
  | recorded =>
    simp only [stage] at next
    cases next
    exact .cutoff stage
  | sweeping now left =>
    simp only [stage] at next
    split_ifs at next
    cases next
    exact .swept stage
  | unverified =>
    simp only [stage] at next
    split_ifs at next with check <;> cases next
    · exact .accepted stage check
    · exact .dropped stage
  | accepted =>
    simp only [stage] at next
    cases intent : call.env.intent with
    | none =>
      rw [intent] at next
      cases next
      exact .malformed stage
    | some intent' =>
      simp only [intent] at next
      split_ifs at next <;> cases next
      · exact .invoked stage
      · exact .noHandler stage
  | unhandled =>
    simp only [stage] at next
    split_ifs at next with room <;> cases next
    · exact .stored stage room
    · exact .full stage
  | ended outcome =>
    simp only [stage] at next
    cases next

theorem section_of_visit {messageId : String} (next : s.visit i call messageId = some t) :
    Section settings s i call t := by
  unfold visit at next
  split at next
  · rename_i now left stage
    cases next
    exact .visited messageId stage
  · cases next

/-- An action takes a call on, begins one, or leaves the calls as they are. -/
theorem step_cases (next : step settings s action = some t) :
    (∃ i call, s.calls[i]? = some call ∧ Section settings s i call t) ∨
    (∃ env, t = { s with calls := s.calls ++ [⟨env, .received, none⟩] }) ∨
    (t.calls = s.calls ∧ t.acts = s.acts ∧ t.seenMessages = s.seenMessages ∧ s.clock ≤ t.clock ∧
      t.drained ++ t.dlq = s.drained ++ s.dlq ∧ t.dlq.length ≤ s.dlq.length ∧
      s.registered <+: t.registered ∧
      (s.peerKeys = Dict.ofItems s.registered → t.peerKeys = Dict.ofItems t.registered)) := by
  cases action with
  | onMessage frame =>
    cases frame with
    | none =>
      obtain rfl := Option.some.inj next
      exact .inr (.inr ⟨rfl, rfl, rfl, le_rfl, rfl, le_rfl, List.prefix_rfl, id⟩)
    | some env => exact .inr (.inl ⟨env, (Option.some.inj next).symm⟩)
  | advance i =>
    obtain ⟨call, held, moved⟩ := Option.bind_eq_some_iff.mp next
    exact .inl ⟨i, call, held, section_of_advance moved⟩
  | visit i messageId =>
    obtain ⟨call, held, moved⟩ := Option.bind_eq_some_iff.mp next
    exact .inl ⟨i, call, held, section_of_visit moved⟩
  | tick now =>
    simp only [step] at next
    split_ifs at next with later
    obtain rfl := Option.some.inj next
    exact .inr (.inr ⟨rfl, rfl, rfl, later, rfl, le_rfl, List.prefix_rfl, id⟩)
  | registerPeerKey agentId pubKeyB64 =>
    obtain rfl := Option.some.inj next
    refine .inr (.inr ⟨rfl, rfl, rfl, le_rfl, rfl, le_rfl, List.prefix_append _ _, ?_⟩)
    intro table
    change s.peerKeys.set agentId pubKeyB64 = Dict.ofItems (s.registered ++ [(agentId, pubKeyB64)])
    rw [table, Dict.ofItems, Dict.ofItems, List.foldl_append]
    rfl
  | registerHandler intent =>
    obtain rfl := Option.some.inj next
    exact .inr (.inr ⟨rfl, rfl, rfl, le_rfl, rfl, le_rfl, List.prefix_rfl, id⟩)
  | drain count =>
    obtain rfl := Option.some.inj next
    refine .inr (.inr ⟨rfl, rfl, rfl, le_rfl, ?_, ?_, List.prefix_rfl, id⟩)
    · rw [List.append_assoc, List.take_append_drop]
    · rw [List.length_drop]
      exact Nat.sub_le _ _

end Node

/-! ### The gate -/

/-- Without a sender, unsigned from a sender without a key, or with a signature that verifies
under the key of the sender. -/
def Accepts (settings : Settings π) (peerKeys : Dict String String) (env : TPCPEnvelope π) : Prop :=
  env.senderId = none ∨ ∃ sender, env.senderId = some sender ∧
    (peerKeys.get? sender = none ∧ (∀ signature ∈ env.signature, signature = "") ∨
      ∃ pubKey signature canonical, peerKeys.get? sender = some pubKey ∧
        env.signature = some signature ∧ signature ≠ "" ∧
        settings.toCanonicalJson env.payload = some canonical ∧
        verify settings.bouncyCastle pubKey canonical signature = true)

theorem check_eq_true_iff (settings : Settings π) (peerKeys : Dict String String)
    (env : TPCPEnvelope π) : settings.check peerKeys env = true ↔
      Accepts settings peerKeys env := by
  unfold Settings.check Accepts
  cases env.senderId with
  | none => simp
  | some sender =>
    cases known : peerKeys.get? sender with
    | none => cases env.signature <;> simp [known]
    | some pubKey =>
      unfold Settings.sigValid
      cases env.signature with
      | none => simp [known]
      | some signature' =>
        cases settings.toCanonicalJson env.payload with
        | none => simp [known]
        | some bytes => simp [known]

/-- The stages behind the check of the signature. -/
def Stage.PastGate : Stage → Prop
  | .accepted | .unhandled | .ended .invoked | .ended (.offered _) | .ended .malformed => True
  | _ => False

/-- What a call has put into the queue. -/
def Call.queued (call : Call π) : Multiset (TPCPEnvelope π) :=
  if call.stage = .ended (.offered true) then {call.env} else 0

namespace Node

variable {settings : Settings π} {s t : Node π} {i : ℕ} {call : Call π} {action : Action π}

/-- The check of the signature accepts an envelope under the keys of some time so far. -/
def Accepted (settings : Settings π) (s : Node π) (env : TPCPEnvelope π) : Prop :=
  ∃ known, known <+: s.registered ∧ Accepts settings (Dict.ofItems known) env

/-- What holds of the calls and the dead letter queue. -/
structure GateSound (settings : Settings π) (s : Node π) : Prop where
  table : s.peerKeys = Dict.ofItems s.registered
  accepted : ∀ call ∈ s.calls, call.stage.PastGate → s.Accepted settings call.env
  conserved : (↑(s.drained ++ s.dlq) : Multiset (TPCPEnvelope π)) = (s.calls.map Call.queued).sum
  room : s.dlq.length ≤ settings.dlqCapacity

/-- A call passes the gate only if the check accepts its envelope. -/
theorem Section.gate (next : Section settings s i call t) :
    t.peerKeys = s.peerKeys ∧ t.registered = s.registered ∧
      ∃ call', t.calls = s.calls.set i call' ∧ call'.env = call.env ∧
        (call'.stage.PastGate → call.stage.PastGate ∨
          settings.check s.peerKeys call.env = true) := by
  cases next with
  | accepted stage check => exact ⟨rfl, rfl, _, rfl, rfl, fun _ => .inr check⟩
  | malformed stage => exact ⟨rfl, rfl, _, rfl, rfl, fun _ => .inl (by rw [stage]; trivial)⟩
  | invoked stage => exact ⟨rfl, rfl, _, rfl, rfl, fun _ => .inl (by rw [stage]; trivial)⟩
  | noHandler stage => exact ⟨rfl, rfl, _, rfl, rfl, fun _ => .inl (by rw [stage]; trivial)⟩
  | stored stage => exact ⟨rfl, rfl, _, rfl, rfl, fun _ => .inl (by rw [stage]; trivial)⟩
  | full stage => exact ⟨rfl, rfl, _, rfl, rfl, fun _ => .inl (by rw [stage]; trivial)⟩
  | _ => exact ⟨rfl, rfl, _, rfl, rfl, fun past => past.elim⟩

/-- An operation leaves the queue as it is, or puts the envelope of its call at the end. -/
theorem Section.queue (next : Section settings s i call t) :
    call.queued = 0 ∧ t.drained = s.drained ∧ ∃ call', t.calls = s.calls.set i call' ∧
      (call'.queued = 0 ∧ t.dlq = s.dlq ∨
        call'.queued = {call.env} ∧ t.dlq = s.dlq ++ [call.env] ∧
          s.dlq.length < settings.dlqCapacity) := by
  have nothing {stage : Stage} (here : call.stage = stage)
      (notStored : stage ≠ .ended (.offered true)) : call.queued = 0 := by
    rw [Call.queued, here, if_neg notStored]
  cases next with
  | stored stage room =>
    exact ⟨nothing stage (by decide), rfl, _, rfl, .inr ⟨if_pos rfl, rfl, room⟩⟩
  | stamped stage => exact ⟨nothing stage (by simp), rfl, _, rfl, .inl ⟨if_neg (by simp), rfl⟩⟩
  | unnamed stage => exact ⟨nothing stage (by simp), rfl, _, rfl, .inl ⟨if_neg (by simp), rfl⟩⟩
  | duplicate stage => exact ⟨nothing stage (by simp), rfl, _, rfl, .inl ⟨if_neg (by simp), rfl⟩⟩
  | admitted stage => exact ⟨nothing stage (by simp), rfl, _, rfl, .inl ⟨if_neg (by simp), rfl⟩⟩
  | cutoff stage => exact ⟨nothing stage (by simp), rfl, _, rfl, .inl ⟨if_neg (by simp), rfl⟩⟩
  | visited _ stage => exact ⟨nothing stage (by simp), rfl, _, rfl, .inl ⟨if_neg (by simp), rfl⟩⟩
  | swept stage => exact ⟨nothing stage (by simp), rfl, _, rfl, .inl ⟨if_neg (by simp), rfl⟩⟩
  | accepted stage => exact ⟨nothing stage (by simp), rfl, _, rfl, .inl ⟨if_neg (by simp), rfl⟩⟩
  | dropped stage => exact ⟨nothing stage (by simp), rfl, _, rfl, .inl ⟨if_neg (by simp), rfl⟩⟩
  | malformed stage => exact ⟨nothing stage (by simp), rfl, _, rfl, .inl ⟨if_neg (by simp), rfl⟩⟩
  | invoked stage => exact ⟨nothing stage (by simp), rfl, _, rfl, .inl ⟨if_neg (by simp), rfl⟩⟩
  | noHandler stage => exact ⟨nothing stage (by simp), rfl, _, rfl, .inl ⟨if_neg (by simp), rfl⟩⟩
  | full stage => exact ⟨nothing stage (by simp), rfl, _, rfl, .inl ⟨if_neg (by simp), rfl⟩⟩

theorem GateSound.step (sound : GateSound settings s) (next : step settings s action = some t) :
    GateSound settings t := by
  rcases step_cases next with ⟨i, call, held, moved⟩ | ⟨env, rfl⟩ |
      ⟨calls, -, -, -, queue, shorter, more, table⟩
  · obtain ⟨sameKeys, registered, call', calls, env, past⟩ := moved.gate
    constructor
    · rw [sameKeys, registered]
      exact sound.table
    · rw [calls]
      intro other member gone
      unfold Accepted
      rw [registered]
      rcases List.mem_or_eq_of_mem_set member with old | rfl
      · exact sound.accepted other old gone
      · rw [env]
        rcases past gone with before | passed
        · exact sound.accepted call (List.mem_of_getElem? held) before
        · rw [check_eq_true_iff, sound.table] at passed
          exact ⟨s.registered, List.prefix_rfl, passed⟩
    · obtain ⟨nothing, drained, call', calls, change⟩ := moved.queue
      rw [calls, Outbox.sum_set_of_zero Call.queued held nothing call', ← sound.conserved, drained]
      rcases change with ⟨none, queue⟩ | ⟨stored, queue, -⟩
      · rw [none, add_zero, queue]
      · rw [stored, queue, ← List.append_assoc, ← Multiset.coe_add]
        rfl
    · obtain ⟨-, -, -, -, ⟨-, queue⟩ | ⟨-, queue, below⟩⟩ := moved.queue
      · rw [queue]
        exact sound.room
      · rw [queue, List.length_append]
        exact below
  -- A new call is not past the gate.
  · refine ⟨sound.table, ?_, ?_, sound.room⟩
    · intro other member gone
      rcases List.mem_append.mp member with old | last
      · exact sound.accepted other old gone
      · obtain rfl := List.mem_singleton.mp last
        exact gone.elim
    · rw [List.map_append, List.sum_append]
      exact sound.conserved.trans (add_zero _).symm
  · refine ⟨table sound.table, ?_, ?_, shorter.trans sound.room⟩
    · rw [calls]
      intro other member gone
      obtain ⟨known, before, accepts⟩ := sound.accepted other member gone
      exact ⟨known, before.trans more, accepts⟩
    · rw [queue, calls]
      exact sound.conserved

theorem gateSound {handlers : List Intent} {clock : ℤ} {actions : List (Action π)}
    (run : Run (OfPartial (step settings)) (initial handlers clock) actions s) :
    GateSound settings s := by
  refine run.invariant (fun _ _ _ sound next => GateSound.step sound next) ⟨rfl, ?_, rfl, ?_⟩
  · exact fun call member => absurd member List.not_mem_nil
  · exact Nat.zero_le _

/-- Whatever a handler was called for, or was ever in the dead letter queue, was accepted under
the keys of some time before. What was drained and what the queue still has is what it took,
each envelope once, and it never has more than its capacity. -/
theorem listeners_deliver_accepted {handlers : List Intent} {clock : ℤ} {actions : List (Action π)}
    (run : Run (OfPartial (step settings)) (initial handlers clock) actions s) :
    (∀ call ∈ s.calls, call.stage = .ended .invoked → s.Accepted settings call.env) ∧
      (∀ env ∈ s.drained ++ s.dlq, s.Accepted settings env) ∧
      (↑(s.drained ++ s.dlq) : Multiset (TPCPEnvelope π)) = (s.calls.map Call.queued).sum ∧
      s.dlq.length ≤ settings.dlqCapacity := by
  have sound := gateSound run
  refine ⟨fun call member invoked => ?_, fun env member => ?_, sound.conserved, sound.room⟩
  · exact sound.accepted call member (by rw [invoked]; trivial)
  · -- An envelope of the queue is that of a call that stored it.
    have queued : env ∈ (s.calls.map Call.queued).sum := by
      rw [← sound.conserved]
      exact Multiset.mem_coe.mpr member
    obtain ⟨call, present, inside⟩ := (Outbox.mem_sum_map_iff Call.queued).mp queued
    unfold Call.queued at inside
    split_ifs at inside with stage
    · obtain rfl := Multiset.mem_singleton.mp inside
      exact sound.accepted call present (by rw [stage]; trivial)
    · exact absurd inside (Multiset.notMem_zero env)

/-- An unsigned envelope of a sender with a key is dropped; without a sender it is not, and no
handler takes it. -/
theorem listeners_deliver_accepted_two :
    let settings : Settings Unit := ⟨100, fun _ => some [], transparent.verify⟩
    ∃ s : Node Unit, s.calls.map Call.stage = [.ended .dropped, .ended (.offered true)] ∧
      s.drained.length = 1 ∧ ∀ env ∈ s.drained, s.Accepted settings env := by
  intro settings
  let known : TPCPEnvelope Unit := ⟨some ⟨none, some "a", some .critique⟩, none, none⟩
  let nobody : TPCPEnvelope Unit := ⟨some ⟨none, none, some .critique⟩, none, some "AA=="⟩
  let actions : List (Action Unit) := [.registerPeerKey "a" "key", .onMessage (some known),
    .onMessage (some nobody), .advance 0, .advance 1, .advance 1, .advance 0, .advance 1,
    .advance 1, .drain 2]
  have reaches : (runPartial (step settings) (initial [.taskRequest] 0) actions).any
      (fun s => s.calls.map Call.stage = [.ended .dropped, .ended (.offered true)] ∧
        s.drained.length = 1) = true := by decide
  obtain ⟨s, run, ended⟩ := exists_run_of_any reaches
  obtain ⟨stages, drained⟩ := of_decide_eq_true ended
  obtain ⟨-, queue, -, -⟩ := listeners_deliver_accepted run
  exact ⟨s, stages, drained, fun env member => queue env (List.mem_append_left _ member)⟩

end Node

/-! ### The replay check -/

/-- What a call knows of its past, by its stage. -/
def Call.Timely (clock : ℤ) (call : Call π) : Prop :=
  match call.stage with
  | .received => call.admitted = none
  | .stamped messageId stamp =>
    call.env.messageId = some messageId ∧ stamp ≤ clock ∧ call.admitted = none
  | .sweeping now _ => now ≤ clock
  | _ => True

/-- Of two calls that put one id, one did so more than 300 s after the time that the other had
put. -/
def Call.Apart (a b : Call π) : Prop :=
  a.env.messageId = b.env.messageId → ∀ p q, a.admitted = some p → b.admitted = some q →
    p.1 + 300000 < q.2 ∨ q.1 + 300000 < p.2

theorem Call.Apart.symm {a b : Call π} (apart : Call.Apart a b) : Call.Apart b a :=
  fun same p q first second => (apart same.symm q p second first).symm

theorem Call.Timely.mono {clock later : ℤ} {call : Call π} (timely : call.Timely clock)
    (goesOn : clock ≤ later) : call.Timely later := by
  unfold Timely at timely ⊢
  split at timely
  · exact timely
  · exact ⟨timely.1, timely.2.1.trans goesOn, timely.2.2⟩
  · exact le_trans timely goesOn
  · trivial

namespace Node

variable {settings : Settings π} {s t : Node π} {i : ℕ} {call : Call π} {action : Action π}

/-- An operation puts the id of its call, removes an entry, or leaves the ids alone. -/
theorem Section.replay (next : Section settings s i call t) : t.clock = s.clock ∧
    ((∃ messageId stamp, call.stage = .stamped messageId stamp ∧
        s.seenMessages.get? messageId = none ∧ t = s.letPass i call messageId stamp) ∨
      (∃ messageId now left left', call.stage = .sweeping now left ∧
        t.calls = s.calls.set i { call with stage := .sweeping now left' } ∧
        t.acts = s.acts ++ [.forget messageId now] ∧
        t.seenMessages = forget 300000 messageId now s.seenMessages) ∨
      ∃ stage, t.calls = s.calls.set i { call with stage := stage } ∧ t.acts = s.acts ∧
        t.seenMessages = s.seenMessages ∧
        (call.Timely s.clock → { call with stage := stage }.Timely s.clock)) := by
  cases next with
  | admitted stage absent => exact ⟨rfl, .inl ⟨_, _, stage, absent, rfl⟩⟩
  | visited messageId stage => exact ⟨rfl, .inr (.inl ⟨_, _, _, _, stage, rfl, rfl, rfl⟩)⟩
  | stamped stage named =>
    refine ⟨rfl, .inr (.inr ⟨_, rfl, rfl, rfl, fun timely => ?_⟩)⟩
    rw [Call.Timely, stage] at timely
    exact ⟨named, le_rfl, timely⟩
  | cutoff => exact ⟨rfl, .inr (.inr ⟨_, rfl, rfl, rfl, fun _ => le_refl s.clock⟩)⟩
  | _ => exact ⟨rfl, .inr (.inr ⟨_, rfl, rfl, rfl, fun _ => trivial⟩)⟩

/-- What holds of the replay check. -/
structure ReplaySound (s : Node π) : Prop where
  follows : Follows 300000 s.clock s.acts s.seenMessages
  timely : ∀ call ∈ s.calls, call.Timely s.clock
  /-- What a call has put was recorded. -/
  recorded : ∀ call ∈ s.calls, ∀ messageId, call.env.messageId = some messageId →
    ∀ p, call.admitted = some p → .record messageId p.1 ∈ s.acts
  apart : Calls.Pairs Call.Apart s.calls

theorem ReplaySound.letPass (sound : ReplaySound s) (held : s.calls[i]? = some call)
    {messageId : String} {stamp : ℤ} (stage : call.stage = .stamped messageId stamp)
    (absent : s.seenMessages.get? messageId = none) :
    ReplaySound (s.letPass i call messageId stamp) := by
  have timely := sound.timely call (List.mem_of_getElem? held)
  rw [Call.Timely, stage] at timely
  obtain ⟨named, past, notYet⟩ := timely
  constructor
  · exact sound.follows.record absent past
  · intro other member
    rcases List.mem_or_eq_of_mem_set member with old | rfl
    · exact sound.timely other old
    · trivial
  · intro other member id named' p admitted
    rcases List.mem_or_eq_of_mem_set member with old | rfl
    · exact List.mem_append_left _ (sound.recorded other old id named' p admitted)
    · obtain rfl := Option.some.inj admitted
      obtain rfl := Option.some.inj (named.symm.trans named')
      exact List.mem_append_right _ (List.mem_singleton.mpr rfl)
  · -- Whoever put this id before, its entry is gone, so it is old.
    refine sound.apart.set Call.Apart.symm fun j other ne there same p q first second => ?_
    obtain rfl := Option.some.inj first
    have before := sound.recorded other (List.mem_of_getElem? there) messageId
      (same.symm.trans named) q second
    exact .inr (sound.follows.stale absent before)

/-- A call goes on with what it has put. -/
theorem ReplaySound.goOn (sound : ReplaySound s) (held : s.calls[i]? = some call) {stage : Stage}
    (calls : t.calls = s.calls.set i { call with stage := stage })
    (timely : { call with stage := stage }.Timely s.clock)
    (follows : Follows 300000 s.clock t.acts t.seenMessages) (more : s.acts ⊆ t.acts)
    (clock : t.clock = s.clock) : ReplaySound t := by
  have old := List.mem_of_getElem? held
  constructor
  · rw [clock]
    exact follows
  · rw [calls, clock]
    intro other member
    rcases List.mem_or_eq_of_mem_set member with before | rfl
    · exact sound.timely other before
    · exact timely
  · rw [calls]
    intro other member id named p admitted
    rcases List.mem_or_eq_of_mem_set member with before | rfl
    · exact more (sound.recorded other before id named p admitted)
    · exact more (sound.recorded call old id named p admitted)
  · rw [calls]
    exact sound.apart.set Call.Apart.symm fun j other ne there =>
      sound.apart i j call other (Ne.symm ne) held there

theorem ReplaySound.step (sound : ReplaySound s) (next : step settings s action = some t) :
    ReplaySound t := by
  rcases step_cases next with ⟨i, call, held, moved⟩ | ⟨env, rfl⟩ |
      ⟨calls, acts, seen, later, -⟩
  · have timely := sound.timely call (List.mem_of_getElem? held)
    obtain ⟨clock, ⟨messageId, stamp, stage, absent, rfl⟩ |
      ⟨messageId, now, left, left', stage, calls, acts, seen⟩ |
      ⟨stage, calls, acts, seen, kept⟩⟩ := moved.replay
    · exact sound.letPass held stage absent
    · rw [Call.Timely, stage] at timely
      refine sound.goOn held calls timely ?_ ?_ clock
      · rw [acts, seen]
        exact sound.follows.forget messageId timely
      · rw [acts]
        exact List.subset_append_left _ _
    · refine sound.goOn held calls (kept timely) ?_ ?_ clock
      · rw [acts, seen]
        exact sound.follows
      · rw [acts]
        exact List.Subset.refl _
  -- A new call has put nothing.
  · have fresh {other : Call π} (member : other ∈ s.calls ++ [⟨env, .received, none⟩]) :
        other ∈ s.calls ∨ other = ⟨env, .received, none⟩ :=
      (List.mem_append.mp member).imp_right List.mem_singleton.mp
    refine ⟨sound.follows, ?_, ?_, ?_⟩
    · intro other member
      rcases fresh member with old | rfl
      · exact sound.timely other old
      · rfl
    · intro other member id named p admitted
      rcases fresh member with old | rfl
      · exact sound.recorded other old id named p admitted
      · cases admitted
    · exact sound.apart.snoc Call.Apart.symm fun other _ _ p q first => by cases first
  · constructor
    · rw [acts, seen]
      exact sound.follows.mono later
    · rw [calls]
      exact fun other member => (sound.timely other member).mono later
    · rw [calls, acts]
      exact sound.recorded
    · rw [calls]
      exact sound.apart

theorem replaySound {handlers : List Intent} {clock : ℤ} {actions : List (Action π)}
    (run : Run (OfPartial (Node.step settings)) (initial handlers clock) actions s) :
    ReplaySound s := by
  refine run.invariant (fun _ _ _ sound next => ReplaySound.step sound next) ⟨?_, ?_, ?_, ?_⟩
  · exact .empty 300000 clock
  · exact fun call member => absurd member List.not_mem_nil
  · exact fun call member => absurd member List.not_mem_nil
  · exact .nil _

/-- A message id was put and not removed since. -/
def Blocked (s : Node π) (messageId : String) :
    Prop := ∃ stamp, Recorded 300000 s.acts messageId stamp

/-- Of two calls that put one id, one did so more than 300 s after the time that the other had
put. A call with a stamp ends as a duplicate exactly if its id was put and not removed since,
as is every id that was put with a time that is not more than 300 s back. -/
theorem listeners_replay_iff {handlers : List Intent} {clock : ℤ} {actions : List (Action π)}
    (run : Run (OfPartial (Node.step settings)) (initial handlers clock) actions s) :
    (∀ (i j : ℕ) a b, i ≠ j → s.calls[i]? = some a → s.calls[j]? = some b → Call.Apart a b) ∧
      (∀ (i : ℕ) call messageId stamp, s.calls[i]? = some call →
        call.stage = .stamped messageId stamp → ∃ t, Node.step settings s (.advance i) = some t ∧
          (s.Blocked messageId → t.calls[i]? = some { call with stage := .ended .duplicate }) ∧
          (¬ s.Blocked messageId → t.calls[i]? =
            some { call with stage := .recorded, admitted := some (stamp, s.clock) })) ∧
      ∀ call ∈ s.calls, ∀ messageId p, call.env.messageId = some messageId →
        call.admitted = some p → s.clock ≤ p.1 + 300000 → s.Blocked messageId := by
  have sound := replaySound run
  refine ⟨sound.apart, fun i call messageId stamp held stage => ?_,
    fun call member messageId p named admitted recent => ?_⟩
  · have inside : i < s.calls.length := (List.getElem?_eq_some_iff.mp held).1
    unfold Blocked
    rw [← sound.follows.contains_iff, Node.step, held, Option.bind_some, advance, stage]
    dsimp only
    split_ifs with seen
    · exact ⟨_, rfl, fun _ => List.getElem?_set_self inside, fun fresh => absurd seen fresh⟩
    · exact ⟨_, rfl, fun blocked => absurd blocked seen, fun _ => List.getElem?_set_self inside⟩
  · -- What is not held any more is older than that.
    by_contra free
    have recorded := sound.recorded call member messageId named p admitted
    have absent : s.seenMessages.get? messageId = none := by
      rw [Option.eq_none_iff_forall_ne_some]
      exact fun stamp held => free ⟨stamp, (sound.follows.holds _ _).mp held⟩
    exact absurd recent (not_le.mpr (sound.follows.stale absent recorded))

/-- A call that pauses before it puts its id: the entry is old when it comes, and the id passes
again 3 ms later. -/
theorem listeners_replay_iff_paused :
    let settings : Settings Unit := ⟨100, fun _ => some [], transparent.verify⟩
    ∃ actions s a b, Run (OfPartial (step settings)) (initial [] 0) actions s ∧
      s.calls[0]? = some a ∧ s.calls[2]? = some b ∧ a.env.messageId = b.env.messageId ∧
      a.admitted = some (0, 299999) ∧ b.admitted = some (300002, 300002) ∧ a.Apart b ∧
      s.Blocked "m" := by
  intro settings
  let message (id : String) : TPCPEnvelope Unit :=
    ⟨some ⟨some id, none, some .critique⟩, none, none⟩
  let actions : List (Action Unit) := [.onMessage (some (message "m")),
    .onMessage (some (message "n")), .onMessage (some (message "m")), .advance 0, .tick 299999,
    .advance 0, .tick 300001, .advance 1, .advance 1, .advance 1, .visit 1 "m", .tick 300002,
    .advance 2, .advance 2]
  have reaches : (runPartial (step settings) (initial [] 0) actions).any
      (fun s => (s.calls.map fun call => (call.env.messageId, call.admitted)) =
        [(some "m", some (0, 299999)), (some "n", some (300001, 300001)),
          (some "m", some (300002, 300002))] ∧ s.clock = 300002) = true := by decide
  obtain ⟨s, run, ended⟩ := exists_run_of_any reaches
  obtain ⟨calls, clock⟩ := of_decide_eq_true ended
  have here (j : ℕ) (entry : Option String × Option (ℤ × ℤ))
      (there : (s.calls.map fun call => (call.env.messageId, call.admitted))[j]? = some entry) :
      ∃ call, s.calls[j]? = some call ∧ call.env.messageId = entry.1 ∧
        call.admitted = entry.2 := by
    rw [List.getElem?_map] at there
    obtain ⟨call, held, rfl⟩ := Option.map_eq_some_iff.mp there
    exact ⟨call, held, rfl, rfl⟩
  obtain ⟨a, first, nameA, admittedA⟩ := here 0 _ (by rw [calls]; rfl)
  obtain ⟨b, third, nameB, admittedB⟩ := here 2 _ (by rw [calls]; rfl)
  obtain ⟨apart, -, recent⟩ := listeners_replay_iff run
  refine ⟨actions, s, a, b, run, first, third, nameA.trans nameB.symm, admittedA, admittedB,
    ?_, ?_⟩
  · exact apart 0 2 a b (by decide) first third
  · refine recent b (List.mem_of_getElem? third) "m" (300002, 300002) nameB admittedB ?_
    rw [clock]
    decide

end Node

end AgentTelepathy.Java
