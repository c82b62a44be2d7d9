import AgentTelepathy.Foundation.Interference
import AgentTelepathy.Relay.Alike

/-!
# An agent's own exchange with the relay

As long as an agent only shakes hands and answers challenges, each of its own steps
depends only on what it can tell of the relay, and the steps of others change none
of it. So its exchange ends alike whatever it is interleaved with.
-/

namespace AgentTelepathy

open Foundation Foundation.Transition

namespace Relay

open ADNSRelayServer

variable {p : Party} {r r' t t' : Relay} {e : RelayEvent} {events : List RelayEvent}
  {ws w : ℕ} {rateLimit burstLimit : ℚ}

/-! ### Conditions of an exchange -/

/-- The pending challenge of the agent is at most 300 seconds old whenever a message
may sweep it. -/
def InTime (p : Party) (r : Relay) (e : RelayEvent) : Prop :=
  match e with
  | .message _ _ readings _ =>
    ∀ challenge ∈ r.server.pendingChallenges.get? p.agent,
      readings.cleanup - challenge.timestamp ≤ 300
  | _ => True

/-- Sends to the agent succeed. -/
def Delivers (p : Party) (r : Relay) (e : RelayEvent) : Prop :=
  match e with
  | .sent ws outcome =>
    match r.task? ws with
    | some (.sending purpose _ _) => purpose.peer = p.agent → outcome = .ok
    | _ => True
  | _ => True

/-- On its own connections the agent sends handshakes and answers in its own name
and under its own keys, and its handshakes are below the limit of its address. -/
def Negotiates (p : Party) (r : Relay) (e : RelayEvent) : Prop :=
  match e with
  | .message ws m readings _ =>
    p.own ws = true → ∀ data ∈ r.server.read? ws m readings,
      (∀ named ∈ named? data, named.2.2.2 = p.agent ∧ (named.2.1 ≠ challengeResponse →
        (r.server.registry.get? p.agent).map Registration.ws ≠ some ws ∧
          r.server.Admits (r.address e) readings.limit)) ∧
      ∀ publicKey ∈ claimedKey? data, ∀ publicBytes ∈ Base64.decode false publicKey,
        p.keys publicBytes = true
  | _ => True

/-- The conditions under which the exchange of the agent is its own. -/
structure Undisturbing (p : Party) (r : Relay) (e : RelayEvent) : Prop where
  exclusive : Exclusive p r e
  inTime : InTime p r e
  delivers : Delivers p r e
  negotiates : Negotiates p r e

instance (p : Party) (r : Relay) (e : RelayEvent) : Decidable (InTime p r e) := by
  induction e using RelayEvent.casesOn <;> unfold InTime <;> infer_instance

instance (p : Party) (r : Relay) (e : RelayEvent) : Decidable (Delivers p r e) := by
  unfold Delivers
  split
  · split <;> infer_instance
  · infer_instance

instance (p : Party) (r : Relay) (e : RelayEvent) : Decidable (Negotiates p r e) := by
  induction e using RelayEvent.casesOn <;> unfold Negotiates <;> infer_instance

instance (p : Party) (r : Relay) (e : RelayEvent) : Decidable (Undisturbing p r e) :=
  decidable_of_iff (Exclusive p r e ∧ InTime p r e ∧ Delivers p r e ∧ Negotiates p r e)
    ⟨fun h => ⟨h.1, h.2.1, h.2.2.1, h.2.2.2⟩,
      fun h => ⟨h.exclusive, h.inTime, h.delivers, h.negotiates⟩⟩

theorem Negotiates.of_read {m : Message} {readings : Readings} {entropy : Entropy}
    {data header intent senderId : Json} {id : Key}
    (negotiates : Negotiates p r (.message ws m readings entropy)) (own : p.own ws = true)
    (read : r.server.read? ws m readings = some data)
    (names : Names data header intent senderId id) :
    id = p.agent ∧ (intent ≠ challengeResponse →
      (r.server.registry.get? p.agent).map Registration.ws ≠ some ws ∧
        r.server.Admits (r.address (.message ws m readings entropy)) readings.limit) :=
  (negotiates own data read).1 _ (named?_eq_some_iff.mpr names)

/-- Own handlers send challenges and confirmations of the agent, to their own
connection, and a pending challenge is for an own key. -/
structure Negotiating (p : Party) (r : Relay) : Prop where
  tasks : ∀ w purpose target transmitted, p.own w = true →
    r.task? w = some (.sending purpose target transmitted) →
      target = w ∧ (purpose = .challenge p.agent ∨ purpose = .confirm p.agent)
  keyed : ∀ challenge, r.server.pendingChallenges.get? p.agent = some challenge →
    ∀ publicBytes ∈ Base64.decode false challenge.publicKey, p.keys publicBytes = true

/-- What an own handler sends after a message. -/
theorem Negotiates.sends {m : Message} {readings : Readings} {entropy : Entropy} {target : ℕ}
    {purpose : Purpose} {frame : Json}
    (negotiates : Negotiates p r (.message ws m readings entropy)) (own : p.own ws = true)
    (acts : r.action? (.message ws m readings entropy) = some (w, .send purpose target frame)) :
    w = ws ∧ target = ws ∧ (purpose = .challenge p.agent ∨ purpose = .confirm p.agent) := by
  obtain ⟨rfl, starts⟩ := starts_of_message acts
  -- A routed frame would have come from the connection the agent is registered on.
  have notRouted {routing : Routing} (origin : routing.origin = w)
      (begins : Begins r.server routing m readings) : False := by
    obtain ⟨read, owner, header, intent, senderId, names, request, -⟩ := begins
    rw [origin] at read owner
    obtain ⟨agent, elsewhere⟩ := negotiates.of_read own read names
    rw [agent] at owner
    exact (elsewhere request).1 owner
  cases starts with
  | challenge read names =>
    exact ⟨rfl, rfl, .inl (congrArg Purpose.challenge (negotiates.of_read own read names).1)⟩
  | confirm read names =>
    exact ⟨rfl, rfl, .inr (congrArg Purpose.confirm (negotiates.of_read own read names).1)⟩
  | broadcast origin begins peers => exact (notRouted origin begins).elim
  | forward origin begins registered => exact (notRouted origin begins).elim

theorem Negotiating.next (negotiating : Negotiating p r) (step : r.next e = some t)
    (exclusive : Exclusive p r e) (negotiates : Negotiates p r e) : Negotiating p t := by
  constructor
  · intro w purpose target transmitted own sending
    rcases (acts_of_next step).sending w purpose target transmitted sending with old | ⟨frame, acts⟩
    · exact negotiating.tasks w purpose target transmitted own old
    cases e with
    | message ws m readings entropy =>
      obtain ⟨rfl, -⟩ := starts_of_message acts
      exact (negotiates.sends own acts).2
    | sent ws outcome =>
      obtain ⟨rfl, routing, peer, rest, stale, last, sent, _, _, task, -⟩ := broadcast_of_sent acts
      rcases (negotiating.tasks w _ _ _ own task).2 with impossible | impossible
      · cases impossible
      · cases impossible
    | connect | closed | lose | finish | sign => cases acts
  · intro challenge found
    rcases (tableStep_of_next step).forgets_or with forgets |
      ⟨ws, m, readings, entropy, data, id, publicKey, rfl, read, requested, tables⟩ |
      ⟨ws, m, readings, entropy, data, id, settled, content, rfl, read, answered, tables⟩
    · exact negotiating.keyed challenge (forgets.pending _ _ found)
    -- A new challenge for the agent is for a key that one of its own frames claims.
    · have stored := (pending_of_tables tables _).symm.trans found
      rw [ADNSRelayServer.tables, issue, Dict.get?_set] at stored
      split_ifs at stored with same
      · obtain ⟨⟨_, _, _, names, -⟩, -, -, claimed⟩ := requested?_eq_some_iff.mp requested
        have own := own_of_exclusive exclusive read (same ▸ names)
        rw [← Option.some.inj stored]
        exact (negotiates own data read).2 publicKey claimed
      · exact negotiating.keyed challenge (Dict.get?_filter_eq_some_iff.mp stored).1
    · exact negotiating.keyed challenge
        (Dict.get?_of_get?_erase ((pending_of_tables tables _).symm.trans found))

theorem negotiating_of_run
    (run : Run (Guarded (OfPartial next) (Undisturbing p)) (init rateLimit burstLimit) events r) :
    Negotiating p r := by
  have preserved : ∀ u event v, Negotiating p u →
      Guarded (OfPartial next) (Undisturbing p) u event v → Negotiating p v := by
    intro u event v negotiating step
    exact negotiating.next step.1 step.2.exclusive step.2.negotiates
  have initially : Negotiating p (init rateLimit burstLimit) := by
    constructor
    · intro w purpose target transmitted own sending
      cases sending
    · intro challenge found
      cases found
  have reached := run.invariant preserved initially
  exact reached

/-! ### Unwinding -/

/-- No send to the agent has raised along the run, nor does one in the next step. -/
theorem not_raised_of_run
    (run : Run (Guarded (OfPartial next) (Undisturbing p)) (init rateLimit burstLimit) events r) :
    ¬ Raised (init rateLimit burstLimit) events p.agent := by
  rintro ⟨before, u, ws, outcome, after, purpose, target, transmitted, rfl, reaches, task, failed,
    peer, -⟩
  obtain ⟨u', -, first, ⟨-, undisturbing⟩, -⟩ := run.middle
  obtain rfl := reaches.unique first.of_guarded
  have delivers := undisturbing.delivers
  rw [Delivers, task] at delivers
  exact failed (delivers peer)

theorem alike_of_foreign
    (run : Run (Guarded (OfPartial next) (Undisturbing p)) (init rateLimit burstLimit) events r)
    (step : r.next e = some t) (undisturbing : Undisturbing p r e) (foreign : p.owns e = false) :
    Alike p t r := by
  have exclusively := run.mono fun u event v (guarded : Guarded _ (Undisturbing p) u event v) =>
    (⟨guarded.1, guarded.2.exclusive⟩ : Guarded (OfPartial next) (Exclusive p) u event v)
  -- The step takes place on a connection of another party, if on any.
  have elsewhere : ∀ w, p.own w = true → e.connection? ≠ some w := by
    intro w own here
    cases e with
    | sign => cases here
    | connect | message | sent | closed | lose | finish =>
      cases here
      exact absurd (foreign.symm.trans own) Bool.false_ne_true
  have others : Foreign p e := by
    intro ws handler
    cases e with
    | connect | lose | sign => cases handler
    | message | sent | closed | finish =>
      cases handler
      exact foreign
  obtain ⟨limits, frame⟩ := frame_of_next step
  obtain ⟨entry, challenge⟩ := kept_of_foreign exclusively step undisturbing.exclusive others
  refine ⟨⟨limits, ?_, ?_, fun w own => (frame w (elsewhere w own)).2, ?_⟩,
    fun w own => (frame w (elsewhere w own)).1, ?_⟩
  · rcases entry with stays | ⟨-, raised⟩
    · exact stays
    · exact absurd raised (not_raised_of_run (.snoc run ⟨step, undisturbing⟩))
  · rcases challenge with stays | ⟨-, pending, readings, found, ⟨ws, m, entropy, rfl⟩, expired⟩
    · exact stays
    · exact absurd (undisturbing.inTime pending found) (not_le.mpr expired)
  · rcases (tableStep_of_next step).forgets_or with forgets |
      ⟨ws, m, readings, entropy, data, id, publicKey, rfl, read, requested, tables⟩ |
      ⟨ws, m, readings, entropy, data, id, settled, content, rfl, read, answered, tables⟩
    · rw [forgets.answers]
    · have answers : t.server.answers = r.server.answers := congrArg Tables.answers tables
      rw [answers]
    · have answers : t.server.answers = r.server.answers ++ [_] := congrArg Tables.answers tables
      obtain ⟨⟨_, _, names⟩, -⟩ := answered?_eq_some_iff.mp answered
      have other : id ≠ p.agent := by
        rintro rfl
        have own := own_of_exclusive undisturbing.exclusive read names
        exact absurd (foreign.symm.trans own) Bool.false_ne_true
      rw [answers, List.filter_append, List.filter_cons_of_neg (by simpa using other),
        List.filter_nil, List.append_nil]
  · intro signing own
    rw [log_of_next step, List.mem_append, or_iff_left]
    intro signed
    cases e with
    | sign other =>
      obtain rfl := List.mem_singleton.mp signed
      exact absurd (foreign.symm.trans own) Bool.false_ne_true
    | connect | message | sent | closed | lose | finish => cases signed

/-- Logs that agree on a key's signatures judge alike. -/
theorem judge_congr {log log' : SignatureLog} {challenge : Challenge}
    (same : ∀ signing, p.keys signing.publicKey = true → (signing ∈ log ↔ signing ∈ log'))
    (keyed : ∀ publicBytes ∈ Base64.decode false challenge.publicKey, p.keys publicBytes = true)
    (content : Json) : judge log.verify challenge content =
      judge log'.verify challenge content := by
  -- A signature is verified under the keys of the negotiation only, where the logs agree.
  have verifies (signature : String) :
      AgentIdentityManager.verifyBytes log.verify challenge.publicKey signature
          (utf8 challenge.nonce) =
        AgentIdentityManager.verifyBytes log'.verify challenge.publicKey signature
          (utf8 challenge.nonce) := by
    unfold AgentIdentityManager.verifyBytes
    cases decoded : Base64.decode false challenge.publicKey with
    | none => rfl
    | some publicBytes =>
      cases Base64.decode false signature with
      | none => rfl
      | some signatureBytes =>
        dsimp only [SignatureLog.verify]
        rw [decide_eq_decide.mpr (same ⟨publicBytes, utf8 challenge.nonce, signatureBytes⟩
          (keyed publicBytes decoded))]
  unfold judge
  split_ifs
  · split
    · rw [verifies]
    · rfl
  · rfl

/-- An own message: the agent is challenged or answers, alike in both relays. -/
theorem Alike.message {m : Message} {readings : Readings} {entropy : Entropy} (alike : Alike p r r')
    (negotiating : Negotiating p r) (own : p.own ws = true)
    (negotiates : Negotiates p r (.message ws m readings entropy))
    (negotiates' : Negotiates p r' (.message ws m readings entropy))
    (step : r.next (.message ws m readings entropy) = some t)
    (step' : r'.next (.message ws m readings entropy) = some t') : Alike p t t' := by
  obtain ⟨ip, isOpen, found, -, -, rfl⟩ := next_message step
  obtain ⟨ip', isOpen', found', -, -, rfl⟩ := next_message step'
  -- The connection is own, so both relays have it from the same address.
  obtain ⟨rfl, -⟩ : ip = ip' ∧ isOpen = isOpen' := by
    have same := found.symm.trans ((alike.connections ws own).trans found')
    simpa using same
  have address : r.address (.message ws m readings entropy) = ip := by
    rw [Relay.address, found, Option.map_some, Option.getD_some]
  have address' : r'.address (.message ws m readings entropy) = ip := by
    rw [Relay.address, found', Option.map_some, Option.getD_some]
  refine alike.receive ws ip m readings entropy ?_ ?_
  · refine alike.servers.handleMessage own ip m readings entropy.hex ?_ ?_
    · intro challenge content pending
      exact judge_congr alike.log (negotiating.keyed challenge pending) content
    · intro data header intent senderId id read read' names
      obtain ⟨agent, request⟩ := negotiates.of_read own read names
      obtain ⟨-, request'⟩ := negotiates'.of_read own read' names
      rw [address] at request
      rw [address'] at request'
      exact ⟨agent, fun ask => ⟨(request ask).1, (request ask).2, (request' ask).2⟩⟩
  -- What the agent is answered goes to its own connection.
  · intro purpose target frame acts
    have action : r.action? (.message ws m readings entropy) =
        some (ws, .send purpose target frame) := by
      rw [action?, address, acts, Option.map_some]
    rw [(negotiates.sends own action).2.1]
    exact own

theorem alike_of_own
    (run : Run (Guarded (OfPartial next) (Undisturbing p)) (init rateLimit burstLimit) events r)
    (alike : Alike p r r') (step : r.next e = some t) (step' : r'.next e = some t')
    (undisturbing : Undisturbing p r e) (undisturbing' : Undisturbing p r' e)
    (isOwn : p.owns e = true) :
    Alike p t t' := by
  have negotiating := negotiating_of_run run
  have tasks (ws : ℕ) (own : p.own ws = true) : r.task? ws = r'.task? ws :=
    congrArg (Option.map Connection.task) (alike.connections ws own)
  cases e with
  | connect ws ip now =>
    obtain ⟨-, same⟩ := Option.ite_none_right_eq_some.mp step
    obtain ⟨-, same'⟩ := Option.ite_none_right_eq_some.mp step'
    cases same
    cases same'
    refine ⟨alike.servers.connect ws now, ?_, alike.log⟩
    intro w own
    rw [Dict.get?_set, Dict.get?_set, alike.connections w own]
  | message ws m readings entropy =>
    exact alike.message negotiating isOwn undisturbing.negotiates undisturbing'.negotiates step
      step'
  | sent ws outcome =>
    have own : p.own ws = true := isOwn
    obtain ⟨purpose, target, transmitted, task, -, rfl⟩ := next_sent step
    obtain ⟨purpose', target', transmitted', task', -, rfl⟩ := next_sent step'
    obtain ⟨rfl, rfl, -⟩ : purpose = purpose' ∧ target = target' ∧ transmitted = transmitted' := by
      have same := task.symm.trans ((tasks ws own).trans task')
      simpa using same
    exact alike.resume ws target outcome (negotiating.tasks ws purpose target transmitted own
      task).2
  | closed ws =>
    have own : p.own ws = true := isOwn
    rw [Relay.next] at step step'
    rw [← tasks ws own] at step'
    split at step
    · rename_i leaving task
      rw [task] at step'
      cases step
      cases step'
      cases leaving with
      | true => exact alike.exit ws
      | false => exact alike.suspend ws .receiving
    · cases step
  | lose ws =>
    obtain ⟨-, same⟩ := Option.ite_none_right_eq_some.mp step
    obtain ⟨-, same'⟩ := Option.ite_none_right_eq_some.mp step'
    cases same
    cases same'
    exact alike.lose ws
  | finish ws =>
    obtain ⟨-, -, rfl⟩ := next_finish step
    obtain ⟨-, -, rfl⟩ := next_finish step'
    exact alike.exit ws
  | sign signing =>
    cases step
    cases step'
    refine ⟨alike.servers, alike.connections, ?_⟩
    intro other own
    rw [List.mem_append, List.mem_append, alike.log other own]

/-- If frames that name an agent arrive on its own connections only, then no step of
another connection's handler changes the agent's entry or its pending challenge,
but for the deletion of the entry after a send to a connection registered for the
agent raised, and the sweep of a challenge older than 300 seconds. And if moreover
the agent only shakes hands and answers challenges, its sends succeed, its
challenges do not expire and its address stays below the limit, then runs with the
same events of its own end alike for the agent. -/
theorem exchange_isolated (p : Party) (rateLimit burstLimit : ℚ) :
    (∀ events r e t,
      Run (Guarded (OfPartial next) (Exclusive p)) (init rateLimit burstLimit) events r →
      Relay.next r e = some t → Exclusive p r e → Foreign p e →
      EntryKept p (init rateLimit burstLimit) (events ++ [e]) r t ∧ ChallengeKept p r e t) ∧
    ∀ events events' t t',
      Run (Guarded (OfPartial next) (Undisturbing p)) (init rateLimit burstLimit) events t →
      Run (Guarded (OfPartial next) (Undisturbing p)) (init rateLimit burstLimit) events' t' →
      events.filter p.owns = events'.filter p.owns → Alike p t t' := by
  refine ⟨fun events r e t run step exclusive foreign => kept_of_foreign run step exclusive foreign,
    ?_⟩
  intro events events' t t' run run' labels
  have unwinds : Unwinds (Guarded (OfPartial next) (Undisturbing p))
      (init rateLimit burstLimit) p.owns (Alike p) := {
    equivalence := alike_equivalence p
    foreign := fun reaches step isForeign => alike_of_foreign reaches step.1 step.2 isForeign
    respects := fun reaches _ alike step step' isOwn =>
      alike_of_own reaches alike step.1 step'.1 step.2 step'.2 isOwn }
  exact unwinds.agree run run' labels

/-- An agent on the first connection whose key consists of ones. -/
def alice : Party := ⟨.text "alice", fun ws => ws = 0, fun key => key = List.replicate 32 1⟩

/-- Another agent shakes hands in the middle of its exchange. -/
def interleaved : List RelayEvent :=
  (registering 2).take 3 ++
    [.connect 1 "10.0.0.1" 1, .message 1 (hello "bob") (readAt 1) (constant 9), .sent 1 .ok] ++
    (registering 2).drop 3

theorem exchange_isolated_interleaved :
    ∃ t t', Run (OfPartial next) (init 30 60) (registering 2) t ∧
      Run (OfPartial next) (init 30 60) interleaved t' ∧
      (t.server.registry.get? (.text "alice")).isSome = true ∧
      t.server.registry.get? (.text "alice") = t'.server.registry.get? (.text "alice") := by
  have alone : (runPartial (checked next (Undisturbing alice)) (init 30 60) (registering 2)).any
      (fun t => (t.server.registry.get? (.text "alice")).isSome) = true := by decide +kernel
  have disturbed : (runPartial (checked next (Undisturbing alice)) (init 30 60) interleaved).any
      (fun _ => true) = true := by decide +kernel
  obtain ⟨t, run, registered⟩ := exists_guarded_of_any alone
  obtain ⟨t', run', -⟩ := exists_guarded_of_any disturbed
  have alike := (exchange_isolated alice 30 60).2 _ _ t t' run run' (by rfl)
  exact ⟨t, t', run.of_guarded, run'.of_guarded, registered, alike.servers.registry⟩

end Relay

end AgentTelepathy
