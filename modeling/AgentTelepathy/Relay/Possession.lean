import AgentTelepathy.Foundation.Tickets
import AgentTelepathy.Relay.Step

/-!
# Proof of possession

Challenges are single-use tickets: the pending ones are outstanding, and a
challenge is spent when a response to it is judged. So if the nonces differ, no
nonce is judged twice, and each registered agent has answered a challenge that
was issued to it together with the registered key.
-/

namespace AgentTelepathy

open Foundation Foundation.Transition

namespace ADNSRelayServer

variable {s t : ADNSRelayServer} {verify : Verifier}

/-- The nonces of the challenges issued so far. -/
def issuedNonces (s : ADNSRelayServer) : List String := s.issued.map fun i => i.2.nonce

/-- The nonces of the challenges whose response was judged. -/
def judgedNonces (s : ADNSRelayServer) : List String := s.answers.map fun a => a.challenge.nonce

/-- The challenges as tickets. -/
def desk (s : ADNSRelayServer) : Desk Key Challenge :=
  ⟨s.pendingChallenges, s.issued, s.answers.map fun a => (a.agentId, a.challenge)⟩

theorem desk_congr (same : s.tables = t.tables) : s.desk = t.desk := by
  have pending : s.pendingChallenges = t.pendingChallenges := congrArg Tables.pendingChallenges same
  have issued : s.issued = t.issued := congrArg Tables.issued same
  have answers : s.answers = t.answers := congrArg Tables.answers same
  rw [desk, desk, pending, issued, answers]

theorem desk_settle (s : ADNSRelayServer) (id : Key) (challenge : Challenge) (verdict : Verdict)
    (ws : ℕ) (now : ℚ) :
    (s.settle id challenge verdict ws now).desk =
      ⟨s.desk.outstanding.erase id, s.desk.issued, s.desk.spent ++ [(id, challenge)]⟩ := by
  simp only [desk, settle, List.map_append]
  rfl

/-- An agent that is registered has answered a challenge with a signature that
verifies under the registered key. -/
def Vouched (verify : Verifier) (s : ADNSRelayServer) : Prop :=
  ∀ id registration, s.registry.get? id = some registration →
    ∃ a ∈ s.answers, a.agentId = id ∧ a.ws = registration.ws ∧
      a.challenge.publicKey = registration.publicKey ∧
      ∃ signature, a.verdict = .verified signature ∧
        AgentIdentityManager.verifyBytes verify registration.publicKey signature
          (utf8 a.challenge.nonce) = true

theorem Vouched.mono {verify' : Verifier} (vouched : s.Vouched verify)
    (more : ∀ publicKey signature data,
      AgentIdentityManager.verifyBytes verify publicKey signature data = true →
        AgentIdentityManager.verifyBytes verify' publicKey signature data = true) :
    s.Vouched verify' := by
  intro id registration registered
  obtain ⟨a, answered, agent, ws, key, signature, verdict, verified⟩ :=
    vouched id registration registered
  exact ⟨a, answered, agent, ws, key, signature, verdict, more _ _ _ verified⟩

/-- A response is judged verified only if its signature verifies. -/
theorem verifyBytes_of_judge {challenge : Challenge} {content : Json} {signature : String}
    (judged : judge verify challenge content = .verified signature) :
    content = .str signature ∧ signature ≠ "" ∧
      AgentIdentityManager.verifyBytes verify challenge.publicKey signature
        (utf8 challenge.nonce) = true := by
  unfold judge at judged
  split_ifs at judged with truthy
  split at judged
  · split_ifs at judged with verified
    cases judged
    have nonempty : signature ≠ "" := by simpa [Json.truthy] using truthy
    exact ⟨rfl, nonempty, verified⟩
  · cases judged

theorem vouched_congr (same : s.tables = t.tables) : s.Vouched verify ↔ t.Vouched verify := by
  have registry : s.registry = t.registry := congrArg Tables.registry same
  have answers : s.answers = t.answers := congrArg Tables.answers same
  rw [Vouched, Vouched, registry, answers]

theorem Vouched.forgets (vouched : s.Vouched verify) (forgets : Relay.Forgets s t) :
    t.Vouched verify := by
  intro id registration registered
  rw [forgets.answers]
  exact vouched id registration (forgets.registry _ _ registered)

theorem Vouched.settle {challenge : Challenge} {content : Json} (vouched : s.Vouched verify)
    (id : Key) (ws : ℕ) (now : ℚ) :
    (s.settle id challenge (judge verify challenge content) ws now).Vouched verify := by
  intro k registration registered
  rw [get?_registry_settle] at registered
  split_ifs at registered with fresh
  · obtain ⟨rfl, isVerified⟩ := fresh
    obtain ⟨signature, verdict⟩ := Verdict.eq_of_isVerified isVerified
    cases registered
    have verified := (verifyBytes_of_judge verdict).2.2
    exact ⟨_, List.mem_append_right _ (List.mem_singleton.mpr rfl), rfl, rfl, rfl, signature,
      verdict, verified⟩
  · obtain ⟨a, answered, rest⟩ := vouched k registration registered
    exact ⟨a, List.mem_append_left _ answered, rest⟩

end ADNSRelayServer

namespace Relay

variable {r t : Relay} {e : RelayEvent} {events : List RelayEvent}

open ADNSRelayServer

/-- Every step moves the desk. -/
theorem desk_of_step (step : TableStep r e t) :
    ∃ moves, Run Desk.Step r.server.desk moves t.server.desk := by
  rcases step.forgets_or with forgets |
    ⟨ws, m, readings, entropy, data, id, publicKey, -, -, -, tables⟩ |
    ⟨ws, m, readings, entropy, data, id, challenge, content, -, -, answered, tables⟩
  · have forgotten : t.server.desk =
        ⟨t.server.pendingChallenges, r.server.desk.issued, r.server.desk.spent⟩ := by
      rw [desk, forgets.issued, forgets.answers]
      rfl
    rw [forgotten]
    exact ⟨_, .single (.forget forgets.pending)⟩
  · rw [desk_congr tables]
    have sweep : Desk.Step r.server.desk .forget
        (r.server.cleanupStaleChallenges readings.cleanup).desk :=
      .forget fun k v found => (Dict.get?_filter_eq_some_iff.mp found).1
    have issue := Desk.Step.issue (s := (r.server.cleanupStaleChallenges readings.cleanup).desk) id
      ⟨ws, entropy.hex, publicKey, readings.stamp⟩
    exact ⟨_, .snoc (.single sweep) issue⟩
  · have outstanding : r.server.desk.outstanding.get? id = some challenge :=
      (answered?_eq_some_iff.mp answered).2.1
    rw [desk_congr tables, desk_settle]
    exact ⟨_, .single (.spend outstanding)⟩

theorem vouched_of_step (vouched : r.server.Vouched r.log.verify) (step : TableStep r e t) :
    t.server.Vouched r.log.verify := by
  rcases step.forgets_or with forgets |
    ⟨ws, m, readings, entropy, data, id, publicKey, -, -, -, tables⟩ |
    ⟨ws, m, readings, entropy, data, id, challenge, content, -, -, -, tables⟩
  · exact vouched.forgets forgets
  · rw [vouched_congr tables]
    exact vouched
  · rw [vouched_congr tables]
    exact vouched.settle id ws readings.consume

theorem desk_of_run (run : Run (OfPartial next) r events t) :
    ∃ moves, Run Desk.Step r.server.desk moves t.server.desk := by
  induction run with
  | nil => exact ⟨[], .nil⟩
  | snoc _ last ih =>
    obtain ⟨before, first⟩ := ih
    obtain ⟨moves, second⟩ := desk_of_step (tableStep_of_next last)
    exact ⟨_, first.append second⟩

theorem vouched_of_run (run : Run (OfPartial next) r events t)
    (vouched : r.server.Vouched r.log.verify) : t.server.Vouched t.log.verify := by
  have preserved : ∀ (u : Relay) event (v : Relay), u.server.Vouched u.log.verify →
      OfPartial next u event v → v.server.Vouched v.log.verify := by
    intro u event v vouched step
    refine (vouched_of_step vouched (tableStep_of_next step)).mono ?_
    intro publicKey signature data verified
    exact SignatureLog.verifyBytes_mono (log_subset_of_next step) verified
  have reached := run.invariant preserved vouched
  exact reached

/-- If the nonces differ, challenges are honest tickets. -/
theorem honest_of_reachable (reachable : r.Reachable) (distinct : r.server.issuedNonces.Nodup) :
    Desk.Honest Challenge.nonce r.server.desk := by
  obtain ⟨rateLimit, burstLimit, events, run⟩ := reachable
  obtain ⟨moves, moved⟩ := desk_of_run run
  exact Desk.honest_empty.run moved distinct

/-- A judged response consumes its challenge, whatever the verdict. -/
theorem consumed {ws : ℕ} {m : Message} {readings : Readings} {entropy : Entropy}
    {data content : Json} {id : Key} {challenge : Challenge}
    (step : r.next (.message ws m readings entropy) = some t)
    (read : r.server.read? ws m readings = some data)
    (answered : r.server.answered? data = some (id, challenge, content)) :
    t.server.pendingChallenges.get? id = none ∧
      t.server.answers = r.server.answers ++ [⟨id, challenge,
        judge r.log.verify challenge content, ws, readings.consume,
          r.server.registry.get? id⟩] := by
  obtain ⟨ip, isOpen, -, -, -, rfl⟩ := next_message step
  have tables := tables_receive_of_answered ip entropy read answered
  refine ⟨?_, congrArg Tables.answers tables⟩
  exact (pending_of_tables tables id).trans (Dict.get?_erase_self _ _)

/-- If all nonces differ, then in every reachable state each registered agent has
answered, with a signature that verifies under the registered key, a challenge
that was issued to it together with this key; the nonce of that challenge was
judged in no other response; no nonce was judged twice or is still pending once
it was judged; and every response that is judged consumes its challenge. -/
theorem possession (reachable : r.Reachable) (distinct : r.server.issuedNonces.Nodup) :
    (∀ id registration, r.server.registry.get? id = some registration →
      ∃ a ∈ r.server.answers, a.agentId = id ∧ a.challenge.publicKey = registration.publicKey ∧
        (id, a.challenge) ∈ r.server.issued ∧
        (∃ signature, a.verdict = .verified signature ∧
          AgentIdentityManager.verifyBytes r.log.verify registration.publicKey signature
            (utf8 a.challenge.nonce) = true) ∧
        ∀ b ∈ r.server.answers, b.challenge.nonce = a.challenge.nonce → b = a) ∧
    r.server.judgedNonces.Nodup ∧
    (∀ id challenge, r.server.pendingChallenges.get? id = some challenge →
      challenge.nonce ∉ r.server.judgedNonces) ∧
    ∀ ws m readings entropy t data id challenge content,
      r.next (.message ws m readings entropy) = some t →
      r.server.read? ws m readings = some data →
      r.server.answered? data = some (id, challenge, content) →
      t.server.pendingChallenges.get? id = none ∧
        t.server.answers = r.server.answers ++ [⟨id, challenge,
          judge r.log.verify challenge content, ws, readings.consume,
          r.server.registry.get? id⟩] := by
  have honest := honest_of_reachable reachable distinct
  have nonces : (r.server.desk.spent.map fun e => e.2.nonce) = r.server.judgedNonces := by
    rw [desk, List.map_map]
    rfl
  -- Every judged response spends the challenge it answers at the desk of challenges.
  have once : r.server.judgedNonces.Nodup := nonces ▸ honest.once
  have vouched : r.server.Vouched r.log.verify := by
    obtain ⟨rateLimit, burstLimit, events, run⟩ := reachable
    refine vouched_of_run run ?_
    intro id registration registered
    cases registered
  refine ⟨?_, once, ?_, ?_⟩
  · intro id registration registered
    obtain ⟨a, answered, agent, -, key, verified⟩ := vouched id registration registered
    have spent : (a.agentId, a.challenge) ∈ r.server.desk.spent := List.mem_map_of_mem answered
    have issued : (id, a.challenge) ∈ r.server.issued := agent ▸ honest.spent_issued _ spent
    refine ⟨a, answered, agent, key, issued, verified, ?_⟩
    intro b answered' same
    exact List.inj_on_of_nodup_map once answered' answered same
  · intro id challenge pending
    rw [← nonces]
    exact honest.unspent id challenge pending
  · intro ws m readings entropy t data id challenge content step read answered
    exact consumed step read answered

/-! ### The age of a challenge -/

/-- A response that verifies finds its challenge in the table within 300 seconds:
an older one has been swept. -/
def Punctual (r : Relay) : RelayEvent → Prop
  | .message ws m readings _ =>
    ∀ a ∈ (r.server.read? ws m readings).bind r.server.answered?,
      (judge r.log.verify a.2.1 a.2.2).isVerified = true →
        readings.consume - a.2.1.timestamp ≤ 300
  | _ => True

instance (r : Relay) (e : RelayEvent) : Decidable (r.Punctual e) := by
  induction e using RelayEvent.casesOn <;> unfold Punctual <;> infer_instance

/-- Every registration answered a nonce that was issued at most 300 seconds before. -/
def Fresh (s : ADNSRelayServer) : Prop :=
  ∀ a ∈ s.answers, a.verdict.isVerified = true → a.time - a.challenge.timestamp ≤ 300

theorem punctual_of_fresh (fresh : Fresh t.server) (step : r.next e = some t) : r.Punctual e := by
  cases e with
  | message ws m readings entropy =>
    rintro ⟨id, challenge, content⟩ found verified
    obtain ⟨data, read, answered⟩ := Option.bind_eq_some_iff.mp found
    -- The step records the answer with the time at which it arrived.
    have answers := (consumed step read answered).2
    rw [Fresh, answers] at fresh
    have last := fresh _ (List.mem_append_right _ List.mem_cons_self)
    exact last verified
  | connect | sent | closed | lose | finish | sign => trivial

theorem Fresh.next (fresh : Fresh r.server) (step : r.next e = some t) (punctual : r.Punctual e) :
    Fresh t.server := by
  rcases (tableStep_of_next step).forgets_or with forgets |
    ⟨ws, m, readings, entropy, data, id, publicKey, -, -, -, tables⟩ |
    ⟨ws, m, readings, entropy, data, id, challenge, content, rfl, read, answered, tables⟩
  · exact fun a judged => fresh a (forgets.answers ▸ judged)
  · have answers : t.server.answers = r.server.answers := congrArg Tables.answers tables
    exact fun a judged => fresh a (answers ▸ judged)
  · have answers : t.server.answers = r.server.answers ++ [_] := congrArg Tables.answers tables
    intro a judged verified
    rw [answers] at judged
    rcases List.mem_append.mp judged with before | now
    · exact fresh a before verified
    · obtain rfl := List.mem_singleton.mp now
      refine punctual (id, challenge, content) ?_ verified
      rw [read, Option.bind_some]
      exact answered

/-- A step keeps the registrations fresh exactly if it is punctual; so in every run
whose verified responses find challenges that are not older than 300 seconds, every
registration answered a nonce issued at most 300 seconds before. -/
theorem registrations_fresh (rateLimit burstLimit : ℚ) :
    (∀ events r e t, Run (OfPartial next) (init rateLimit burstLimit) events r → Fresh r.server →
      Relay.next r e = some t → (Fresh t.server ↔ r.Punctual e)) ∧
    ∀ events t, Run (Guarded (OfPartial next) Punctual) (init rateLimit burstLimit) events t →
      Fresh t.server ∧ ∀ id registration, t.server.registry.get? id = some registration →
        ∃ a ∈ t.server.answers, a.agentId = id ∧ a.challenge.publicKey = registration.publicKey ∧
          a.time - a.challenge.timestamp ≤ 300 := by
  constructor
  · intro events r e t _ fresh step
    exact ⟨fun after => punctual_of_fresh after step, fun punctual => fresh.next step punctual⟩
  intro events t run
  have fresh : Fresh t.server := by
    have preserved : ∀ u event v, Fresh u.server → Guarded (OfPartial next) Punctual u event v →
        Fresh v.server := by
      intro u event v fresh step
      exact fresh.next step.1 step.2
    have initially : Fresh (init rateLimit burstLimit).server := fun a judged => by cases judged
    have reached := run.invariant preserved initially
    exact reached
  -- Every registration goes back to an answer, and answers were judged in time.
  have vouched : t.server.Vouched t.log.verify := by
    refine vouched_of_run run.of_guarded ?_
    intro id registration registered
    cases registered
  refine ⟨fresh, ?_⟩
  intro id registration registered
  obtain ⟨a, answered, agent, -, key, signature, verdict, -⟩ := vouched id registration registered
  have verified : a.verdict.isVerified = true := by rw [verdict]; rfl
  exact ⟨a, answered, agent, key, fresh a answered verified⟩

/-! ### An agent that registers -/

/-- A frame of an agent. -/
def frame (senderId intent receiverId content : String) : Message where
  length := 300
  data := some (.obj
    [("header", .obj
        [("sender_id", .str senderId), ("intent", .str intent), ("receiver_id", .str receiverId)]),
      ("payload", .obj [("content", .str content)])])

/-- All readings at one time. -/
def readAt (now : ℚ) : Readings := ⟨now, now, now, now⟩

/-- Random bytes that are all the same. -/
def constant (b : UInt8) : Entropy := ⟨List.replicate 32 b, List.length_replicate⟩

/-- The handshake of an agent whose key consists of ones. -/
def hello (senderId : String) : Message :=
  frame senderId "Handshake" broadcastId
    "\x7b\"public_key\": \"AQEBAQEBAQEBAQEBAQEBAQEBAQEBAQEBAQEBAQEBAQE=\"\x7d"

/-- An agent connects and says hello at one time, and answers at another. -/
def joining (ws : ℕ) (senderId : String) (b : UInt8) (connected answered : ℚ) : List RelayEvent :=
  [.connect ws "10.0.0.1" connected,
    .message ws (hello senderId) (readAt connected) (constant b), .sent ws .ok,
    .sign ⟨List.replicate 32 1, utf8 (constant b).hex, [b]⟩,
    .message ws (frame senderId "Challenge_Response" "" (Base64.encode [b])) (readAt answered)
      (constant b),
    .sent ws .ok]

/-- An agent registers; it answers at the given time. -/
def registering (now : ℚ) : List RelayEvent := joining 0 "alice" 7 1 now

theorem possession_alice :
    ∃ r : Relay, r.Reachable ∧ r.server.judgedNonces.Nodup ∧
      ∃ a ∈ r.server.answers, a.agentId = .text "alice" ∧
        (.text "alice", a.challenge) ∈ r.server.issued := by
  have runs : (runPartial next (init 30 60) (registering 2)).any (fun r =>
      decide (r.server.issuedNonces.Nodup ∧
        (r.server.registry.get? (.text "alice")).isSome = true)) = true := by decide +kernel
  obtain ⟨r, run, facts⟩ := exists_run_of_any runs
  obtain ⟨distinct, registered⟩ := of_decide_eq_true facts
  obtain ⟨registration, registered⟩ := Option.isSome_iff_exists.mp registered
  have reachable : r.Reachable := ⟨30, 60, _, run⟩
  obtain ⟨proved, once, -⟩ := possession reachable distinct
  obtain ⟨a, answered, agent, -, issued, -⟩ := proved _ _ registered
  exact ⟨r, reachable, once, a, answered, agent, issued⟩

theorem registrations_fresh_alice :
    ∃ t, Run (OfPartial next) (init 30 60) (registering 2) t ∧ t.server.answers.length = 1 ∧
      Fresh t.server := by
  have runs : (runPartial (checked next Punctual) (init 30 60) (registering 2)).any (fun t =>
      decide (t.server.answers.length = 1)) = true := by decide +kernel
  obtain ⟨t, run, one⟩ := exists_guarded_of_any runs
  exact ⟨t, run.of_guarded, of_decide_eq_true one, ((registrations_fresh 30 60).2 _ t run).1⟩

/-- No other agent asks for a challenge, so nothing sweeps the table, and after a
thousand seconds the nonce is still accepted. -/
theorem registration_stale :
    ∃ t, Run (OfPartial next) (init 30 60) (registering 1000) t ∧
      (t.server.registry.get? (.text "alice")).isSome = true ∧
      ∃ a ∈ t.server.answers, a.agentId = .text "alice" ∧ a.verdict.isVerified = true ∧
        300 < a.time - a.challenge.timestamp := by
  have runs : (runPartial next (init 30 60) (registering 1000)).any (fun t =>
      decide ((t.server.registry.get? (.text "alice")).isSome = true ∧
        ∃ a ∈ t.server.answers, a.agentId = .text "alice" ∧ a.verdict.isVerified = true ∧
          300 < a.time - a.challenge.timestamp)) = true := by decide +kernel
  obtain ⟨t, run, facts⟩ := exists_run_of_any runs
  exact ⟨t, run, of_decide_eq_true facts⟩

end Relay

end AgentTelepathy
