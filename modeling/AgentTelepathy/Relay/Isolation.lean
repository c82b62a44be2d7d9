import AgentTelepathy.Relay.Possession
import AgentTelepathy.Relay.Tasks

/-!
# What other connections can do to an agent

If all frames that name an agent arrive on its own connections, then its entry and
its pending challenge name own connections, and the handlers of other connections
leave both alone. What remains are the sweep of an expired challenge and the
deletion of the entry after a send on a connection registered for the agent raised.
-/

namespace AgentTelepathy

open Foundation Foundation.Transition

/-- An agent with the connections and the public keys it uses. -/
structure Party where
  agent : Key
  own : ℕ → Bool
  keys : Bytes → Bool

/-- The registered connections that a routing still has to send to, the one it
sends to first. -/
def Purpose.queue (target : ℕ) : Purpose → List (Key × ℕ)
  | .challenge _ | .confirm _ => []
  | .forward _ peer => [(peer, target)]
  | .broadcast _ peer rest _ => (peer, target) :: rest

/-- The agents that a broadcast has found to fail. -/
def Purpose.collected : Purpose → List Key
  | .challenge _ | .confirm _ | .forward _ _ => []
  | .broadcast _ _ _ stale => stale

theorem Purpose.mem_deregisters {purpose : Purpose} {outcome : SendOutcome} {id : Key} (target : ℕ)
    (deleted : id ∈ purpose.deregisters outcome) :
    id ∈ purpose.collected ∨
      outcome ≠ .ok ∧ purpose.peer = id ∧ (id, target) ∈ purpose.queue target := by
  cases purpose with
  | challenge | confirm => cases deleted
  | forward routing peer =>
    rw [deregisters] at deleted
    split_ifs at deleted with closed
    · obtain rfl := List.mem_singleton.mp deleted
      refine .inr ⟨?_, rfl, List.mem_singleton.mpr rfl⟩
      rw [closed]
      decide
    · cases deleted
  | broadcast routing peer rest stale =>
    rw [deregisters] at deleted
    split_ifs at deleted with ended ok
    · exact .inl deleted
    · rcases List.mem_append.mp deleted with before | now
      · exact .inl before
      · obtain rfl := List.mem_singleton.mp now
        exact .inr ⟨ok, rfl, List.mem_cons_self⟩
    · cases deleted

namespace Relay

open ADNSRelayServer

variable {start r t : Relay} {e : RelayEvent} {events : List RelayEvent} {id : Key} {ws : ℕ}
  {p : Party} {rateLimit burstLimit : ℚ}

/-! ### Failed sends -/

/-- A connection was registered for an agent during a run. -/
def WasRegistered (start : Relay) (events : List RelayEvent) (id : Key) (ws : ℕ) : Prop :=
  ∃ before u after registration, events = before ++ after ∧
    Run (OfPartial next) start before u ∧ u.server.registry.get? id = some registration ∧
    registration.ws = ws

/-- During a run a send to a connection that had been registered for an agent raised. -/
def Raised (start : Relay) (events : List RelayEvent) (id : Key) : Prop :=
  ∃ before u ws outcome after purpose target transmitted,
    events = before ++ .sent ws outcome :: after ∧ Run (OfPartial next) start before u ∧
    u.task? ws = some (.sending purpose target transmitted) ∧ outcome ≠ .ok ∧ purpose.peer = id ∧
    WasRegistered start before id target

theorem WasRegistered.later (registered : WasRegistered start events id ws) (e : RelayEvent) :
    WasRegistered start (events ++ [e]) id ws := by
  obtain ⟨before, u, after, registration, rfl, rest⟩ := registered
  exact ⟨before, u, after ++ [e], registration, List.append_assoc _ _ _, rest⟩

theorem Raised.later (raised : Raised start events id) (e : RelayEvent) :
    Raised start (events ++ [e]) id := by
  obtain ⟨before, u, ws, outcome, after, purpose, target, transmitted, rfl, rest⟩ := raised
  exact ⟨before, u, ws, outcome, after ++ [e], purpose, target, transmitted, by simp, rest⟩

/-- A routing sends only to connections that were registered, and collects only
agents whose send raised. -/
def Accounted (start : Relay) (events : List RelayEvent) (target : ℕ) (purpose : Purpose) : Prop :=
  (∀ a ∈ purpose.queue target, WasRegistered start events a.1 a.2) ∧
    ∀ id ∈ purpose.collected, Raised start events id

theorem Accounted.later {target : ℕ} {purpose : Purpose}
    (accounted : Accounted start events target purpose) (e : RelayEvent) :
    Accounted start (events ++ [e]) target purpose :=
  ⟨fun a queued => (accounted.1 a queued).later e, fun id found => (accounted.2 id found).later e⟩

private theorem wasRegistered_now {registration : Registration}
    (run : Run (OfPartial next) start events r) (e : RelayEvent)
    (registered : r.server.registry.get? id = some registration) :
    WasRegistered start (events ++ [e]) id registration.ws :=
  ⟨events, r, [e], registration, rfl, run, registered, rfl⟩

theorem accounted_of_run (run : Run (OfPartial next) start events t)
    (idle : ∀ w purpose target transmitted,
      start.task? w ≠ some (.sending purpose target transmitted)) :
    ∀ w purpose target transmitted, t.task? w = some (.sending purpose target transmitted) →
      Accounted start events target purpose := by
  induction run with
  | nil =>
    intro w purpose target transmitted sending
    exact absurd sending (idle w purpose target transmitted)
  | @snoc events r t e before last ih =>
    intro w purpose target transmitted sending
    -- A handler waits for a send it made before, or for the one that this event made.
    rcases (acts_of_next last).sending w purpose target transmitted sending with old | ⟨frame, acts⟩
    · exact (ih w purpose target transmitted old).later e
    cases e with
    | message ws m readings entropy =>
      obtain ⟨rfl, starts⟩ := starts_of_message acts
      cases starts with
      | challenge | confirm =>
        constructor
        · intro a queued
          cases queued
        · intro id found
          cases found
      | broadcast origin begins peers =>
        refine ⟨?_, fun id found => by cases found⟩
        intro a queued
        obtain ⟨⟨k, registration⟩, item, rfl⟩ := List.mem_map.mp (peers.subset queued)
        exact wasRegistered_now before _ (Dict.get?_eq_some_iff.mpr item)
      | forward origin begins registered =>
        refine ⟨?_, fun id found => by cases found⟩
        intro a queued
        obtain rfl := List.mem_singleton.mp queued
        exact wasRegistered_now before _ registered
    | sent ws outcome =>
      obtain ⟨-, routing, peer, rest, stale, lastTarget, lastTransmitted, next, later, task, rfl,
        suffix, -⟩ := broadcast_of_sent acts
      obtain ⟨queue, collected⟩ := ih ws _ _ _ task
      constructor
      · intro a queued
        exact (queue a (List.mem_cons_of_mem _ (suffix.subset queued))).later _
      · intro id found
        -- What is collected was so before, or is the peer whose send has just failed.
        have collectedOr : id ∈ stale ∨ outcome ≠ .ok ∧ id = peer := by
          rw [Purpose.collected] at found
          split_ifs at found with ok
          · exact .inl found
          · rcases List.mem_append.mp found with old | new
            · exact .inl old
            · exact .inr ⟨ok, List.mem_singleton.mp new⟩
        rcases collectedOr with old | ⟨failed, rfl⟩
        · exact (collected id old).later _
        · exact ⟨events, r, ws, outcome, [], _, lastTarget, lastTransmitted, rfl, before, task,
            failed,
            rfl, queue _ List.mem_cons_self⟩
    | connect | closed | lose | finish | sign => cases acts

/-! ### Own connections -/

/-- Frames that name the agent arrive on its own connections. -/
def Exclusive (p : Party) (r : Relay) (e : RelayEvent) : Prop :=
  match e with
  | .message ws m readings _ =>
    ∀ data ∈ r.server.read? ws m readings, ∀ named ∈ named? data,
      named.2.2.2 = p.agent → p.own ws = true
  | _ => True

instance (p : Party) (r : Relay) (e : RelayEvent) : Decidable (Exclusive p r e) := by
  induction e using RelayEvent.casesOn <;> unfold Exclusive <;> infer_instance

theorem own_of_exclusive {m : Message} {readings : Readings} {entropy : Entropy}
    {data header intent senderId : Json}
    (exclusive : Exclusive p r (.message ws m readings entropy))
    (read : r.server.read? ws m readings = some data)
    (names : Names data header intent senderId p.agent) : p.own ws = true :=
  exclusive data read _ (named?_eq_some_iff.mpr names) rfl

/-- What the relay stores for the agent belongs to its own connections, and other
handlers challenge other agents. -/
structure Owned (p : Party) (r : Relay) : Prop where
  registry : ∀ registration, r.server.registry.get? p.agent = some registration →
    p.own registration.ws = true
  pending : ∀ challenge, r.server.pendingChallenges.get? p.agent = some challenge →
    p.own challenge.ws = true
  tasks : ∀ w target transmitted,
    r.task? w = some (.sending (.challenge p.agent) target transmitted) → p.own w = true

theorem Owned.next (owned : Owned p r) (step : r.next e = some t) (exclusive : Exclusive p r e) :
    Owned p t := by
  have tasks : ∀ w target transmitted,
      t.task? w = some (.sending (.challenge p.agent) target transmitted) → p.own w = true := by
    intro w target transmitted sending
    rcases (acts_of_next step).sending w _ target transmitted sending with old | ⟨frame, acts⟩
    · exact owned.tasks w target transmitted old
    cases e with
    | message ws m readings entropy =>
      obtain ⟨rfl, starts⟩ := starts_of_message acts
      cases starts with
      | challenge read names => exact own_of_exclusive exclusive read names
    | sent ws outcome =>
      obtain ⟨-, _, _, _, _, _, _, _, _, -, impossible, -⟩ := broadcast_of_sent acts
      cases impossible
    | connect | closed | lose | finish | sign => cases acts
  -- Registrations and challenges of the agent come from its own frames only.
  rcases (tableStep_of_next step).forgets_or with forgets |
    ⟨ws, m, readings, entropy, data, id, publicKey, rfl, read, requested, tables⟩ |
    ⟨ws, m, readings, entropy, data, id, challenge, content, rfl, read, answered, tables⟩
  · exact ⟨fun x found => owned.registry x (forgets.registry _ _ found),
      fun x found => owned.pending x (forgets.pending _ _ found), tasks⟩
  · refine ⟨fun x found => owned.registry x ((registry_of_tables tables _).symm.trans found), ?_,
      tasks⟩
    intro x found
    have stored := (pending_of_tables tables _).symm.trans found
    rw [ADNSRelayServer.tables, issue, Dict.get?_set] at stored
    split_ifs at stored with same
    · obtain ⟨⟨_, _, _, names, -⟩, -⟩ := requested?_eq_some_iff.mp requested
      rw [← Option.some.inj stored]
      exact own_of_exclusive exclusive read (same ▸ names)
    · exact owned.pending x (Dict.get?_filter_eq_some_iff.mp stored).1
  · refine ⟨?_, ?_, tasks⟩
    · intro x found
      have stored := (registry_of_tables tables _).symm.trans found
      rw [ADNSRelayServer.tables, get?_registry_settle] at stored
      split_ifs at stored with fresh
      · obtain ⟨⟨_, _, names⟩, -⟩ := answered?_eq_some_iff.mp answered
        rw [← Option.some.inj stored]
        exact own_of_exclusive exclusive read (fresh.1 ▸ names)
      · exact owned.registry x stored
    · intro x found
      exact owned.pending x (Dict.get?_of_get?_erase
        ((pending_of_tables tables _).symm.trans found))

theorem owned_of_run
    (run : Run (Guarded (OfPartial next) (Exclusive p)) (init rateLimit burstLimit) events r) :
    Owned p r := by
  have preserved : ∀ u event v, Owned p u →
      Guarded (OfPartial next) (Exclusive p) u event v → Owned p v := by
    intro u event v owned step
    exact owned.next step.1 step.2
  have initially : Owned p (init rateLimit burstLimit) := by
    refine ⟨?_, ?_, ?_⟩
    · intro registration registered
      cases registered
    · intro challenge pending
      cases pending
    · intro w target transmitted sending
      cases sending
  have reached := run.invariant preserved initially
  exact reached

/-! ### Foreign steps -/

/-- The handler that takes part in an event, if any, belongs to another connection. -/
def Foreign (p : Party) (e : RelayEvent) : Prop := ∀ ws, e.handler? = some ws → p.own ws = false

/-- The entry of the agent stays, or it is deleted after a send to a connection
registered for the agent raised. -/
def EntryKept (p : Party) (start : Relay) (events : List RelayEvent) (r t : Relay) : Prop :=
  t.server.registry.get? p.agent = r.server.registry.get? p.agent ∨
    t.server.registry.get? p.agent = none ∧ Raised start events p.agent

/-- The pending challenge of the agent stays, or it is swept when it is older than
300 seconds. -/
def ChallengeKept (p : Party) (r : Relay) (e : RelayEvent) (t : Relay) : Prop :=
  t.server.pendingChallenges.get? p.agent = r.server.pendingChallenges.get? p.agent ∨
    t.server.pendingChallenges.get? p.agent = none ∧
      ∃ challenge readings, r.server.pendingChallenges.get? p.agent = some challenge ∧
        (∃ ws m entropy, e = .message ws m readings entropy) ∧
        300 < readings.cleanup - challenge.timestamp

theorem get?_deregister_of_notMem {ids : List Key} {registry : Dict Key Registration}
    (spared : id ∉ ids) : (deregister ids registry).get? id = registry.get? id := by
  induction ids generalizing registry with
  | nil => rfl
  | cons k ids ih =>
    obtain ⟨other, spared⟩ := List.ne_and_not_mem_of_not_mem_cons spared
    rw [deregister]
    split_ifs
    · rw [ih spared, Dict.get?_erase_of_ne other]
    · rfl

/-- Deleting entries leaves an entry or removes it. -/
theorem get?_deregister_or (ids : List Key) (registry : Dict Key Registration) (id : Key) :
    (deregister ids registry).get? id = registry.get? id ∨ (deregister ids registry).get? id =
      none := by
  cases left : (deregister ids registry).get? id with
  | none => exact .inr rfl
  | some x => exact .inl (get?_of_get?_deregister left).symm

/-- A sweep leaves a challenge or removes an expired one. -/
theorem get?_cleanup_or (s : ADNSRelayServer) (now : ℚ) (id : Key) :
    (s.cleanupStaleChallenges now).pendingChallenges.get? id = s.pendingChallenges.get? id ∨
      (s.cleanupStaleChallenges now).pendingChallenges.get? id = none ∧
        ∃ challenge, s.pendingChallenges.get? id = some challenge ∧
          300 < now - challenge.timestamp := by
  cases pending : s.pendingChallenges.get? id with
  | none =>
    cases swept : (s.cleanupStaleChallenges now).pendingChallenges.get? id with
    | none => exact .inl rfl
    | some x =>
      have there := (Dict.get?_filter_eq_some_iff.mp swept).1
      exact absurd (pending.symm.trans there) (Option.some_ne_none x).symm
  | some challenge =>
    by_cases expired : 300 < now - challenge.timestamp
    · refine .inr ⟨?_, challenge, rfl, expired⟩
      cases swept : (s.cleanupStaleChallenges now).pendingChallenges.get? id with
      | none => rfl
      | some x =>
        obtain ⟨there, young⟩ := Dict.get?_filter_eq_some_iff.mp swept
        obtain rfl := Option.some.inj (pending.symm.trans there)
        exact absurd expired (of_decide_eq_true young)
    · exact .inl (Dict.get?_filter_eq_some_iff.mpr ⟨pending, decide_eq_true expired⟩)

/-- A challenge that a message sweeps or leaves is kept. -/
theorem challengeKept_of_cleanup {m : Message} {readings : Readings} {entropy : Entropy}
    (after : t.server.pendingChallenges.get? p.agent =
      (r.server.cleanupStaleChallenges readings.cleanup).pendingChallenges.get? p.agent) :
    ChallengeKept p r (.message ws m readings entropy) t := by
  rcases get?_cleanup_or r.server readings.cleanup p.agent with stays |
    ⟨gone, challenge, old, expired⟩
  · exact .inl (after.trans stays)
  · exact .inr ⟨after.trans gone, challenge, readings, old, ⟨ws, m, entropy, rfl⟩, expired⟩

/-- An entry that a send deletes belongs to an agent a send to which raised. -/
theorem entryKept_of_deregister {outcome : SendOutcome} {purpose : Purpose} {target : ℕ}
    {transmitted : Bool} (run : Run (OfPartial next) (init rateLimit burstLimit) events r)
    (task : r.task? ws = some (.sending purpose target transmitted))
    (after : t.server.registry.get? p.agent =
      (deregister (purpose.deregisters outcome) r.server.registry).get? p.agent) :
    EntryKept p (init rateLimit burstLimit) (events ++ [.sent ws outcome]) r t := by
  by_cases deleted : p.agent ∈ purpose.deregisters outcome
  · rcases get?_deregister_or (purpose.deregisters outcome) r.server.registry p.agent with stays |
      gone
    · exact .inl (after.trans stays)
    · refine .inr ⟨after.trans gone, ?_⟩
      have idle : ∀ w purpose target transmitted,
          (init rateLimit burstLimit).task? w ≠ some (.sending purpose target transmitted) := by
        intro w purpose target transmitted sending
        cases sending
      obtain ⟨queue, collected⟩ := accounted_of_run run idle ws purpose target transmitted task
      rcases purpose.mem_deregisters target deleted with before | ⟨failed, peer, queued⟩
      · exact (collected _ before).later _
      · exact ⟨events, r, ws, outcome, [], purpose, target, transmitted, rfl, run, task, failed,
          peer, queue _ queued⟩
  · exact .inl (after.trans (get?_deregister_of_notMem deleted))

/-- A step of another connection's handler leaves the agent's entry and its pending
challenge, up to the two exceptions. -/
theorem kept_of_foreign
    (run : Run (Guarded (OfPartial next) (Exclusive p)) (init rateLimit burstLimit) events r)
    (step : r.next e = some t) (exclusive : Exclusive p r e) (foreign : Foreign p e) :
    EntryKept p (init rateLimit burstLimit) (events ++ [e]) r t ∧ ChallengeKept p r e t := by
  have owned := owned_of_run run
  have alien {ws : ℕ} (handler : e.handler? = some ws) (isOwn : p.own ws = true) : False :=
    absurd ((foreign ws handler).symm.trans isOwn) Bool.false_ne_true
  cases tableStep_of_next step with
  | same tables => exact ⟨.inl (registry_of_tables tables _), .inl (pending_of_tables tables _)⟩
  | @sweep ws m readings entropy event tables =>
    subst event
    exact ⟨.inl (registry_of_tables tables _),
      challengeKept_of_cleanup (pending_of_tables tables _)⟩
  | @issue ws m readings entropy event data k publicKey read requested tables =>
    subst event
    have other : p.agent ≠ k := by
      rintro rfl
      obtain ⟨⟨_, _, _, names, -⟩, -⟩ := requested?_eq_some_iff.mp requested
      exact alien rfl (own_of_exclusive exclusive read names)
    have pending := (pending_of_tables tables p.agent).trans (Dict.get?_set_of_ne other)
    exact ⟨.inl (registry_of_tables tables _), challengeKept_of_cleanup pending⟩
  | @settle ws m readings entropy event data content k challenge read answered tables =>
    subst event
    have other : p.agent ≠ k := by
      rintro rfl
      obtain ⟨⟨_, _, names⟩, -⟩ := answered?_eq_some_iff.mp answered
      exact alien rfl (own_of_exclusive exclusive read names)
    constructor
    · left
      rw [registry_of_tables tables, ADNSRelayServer.tables, get?_registry_settle,
        if_neg fun fresh => other fresh.1]
    · exact .inl ((pending_of_tables tables _).trans (Dict.get?_erase_of_ne other))
  -- A foreign handler deletes the entry only for a failed send, and drops only
  -- challenges that it sent itself.
  | @resume ws outcome purpose target transmitted event task tables =>
    subst event
    constructor
    · exact entryKept_of_deregister run.of_guarded task (registry_of_tables tables _)
    · left
      refine (pending_of_tables tables _).trans ?_
      dsimp only
      cases drops : purpose.drops? outcome with
      | none => rfl
      | some k =>
        have other : p.agent ≠ k := by
          rintro rfl
          cases purpose with
          | challenge id =>
            rw [Purpose.drops?] at drops
            split_ifs at drops
            cases drops
            exact alien rfl (owned.tasks ws target transmitted task)
          | confirm | forward | broadcast => cases drops
        exact Dict.get?_erase_of_ne other
  -- What the relay stores for the agent names its own connections, which this one is not.
  | @leave ws handler exited tables =>
    constructor
    · left
      refine (registry_of_tables tables _).trans (Dict.get?_filter_of_keeps ?_)
      intro registration registered
      refine decide_eq_true ?_
      rintro rfl
      exact alien handler (owned.registry registration registered)
    · left
      refine (pending_of_tables tables _).trans (Dict.get?_filter_of_keeps ?_)
      intro challenge pending
      refine decide_eq_true ?_
      rintro rfl
      exact alien handler (owned.pending challenge pending)

end Relay

end AgentTelepathy
