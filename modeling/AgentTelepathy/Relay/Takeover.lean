import AgentTelepathy.Relay.Possession

/-!
# Taking over an agent and its challenges

A registered agent that shows up on another connection is challenged under the
key that the new connection claims, not under the registered one. So an entry
keeps its key only as long as nobody claims another one. Pending challenges are
kept by agent, and nothing ties a response to the connection that was challenged.
-/

namespace AgentTelepathy

open Foundation Foundation.Transition

namespace Relay

variable {r t : Relay} {e : RelayEvent} {events : List RelayEvent}

open ADNSRelayServer

/-! ### Replacing an entry -/

/-- A challenge for an agent that is registered is asked for under the registered
key, up to the spelling of its base64 text. -/
def Faithful (r : Relay) (e : RelayEvent) : Prop :=
  match e with
  | .message ws m readings _ =>
    ∀ a ∈ (r.server.read? ws m readings).bind
        (r.server.requested? ws (r.address e) readings.limit),
      ∀ registration ∈ r.server.registry.get? a.1,
        Base64.decode false a.2 = Base64.decode false registration.publicKey
  | _ => True

instance (r : Relay) (e : RelayEvent) : Decidable (r.Faithful e) := by
  induction e using RelayEvent.casesOn <;> unfold Faithful <;> infer_instance

/-- The pending challenge of a registered agent is for the registered key. -/
def Consistent (s : ADNSRelayServer) : Prop :=
  ∀ id registration challenge, s.registry.get? id = some registration →
    s.pendingChallenges.get? id = some challenge →
      Base64.decode false challenge.publicKey = Base64.decode false registration.publicKey

theorem consistent_congr {s s' : ADNSRelayServer} (same : s.tables = s'.tables) :
    Consistent s ↔ Consistent s' := by
  have registry : s.registry = s'.registry := congrArg Tables.registry same
  have pending : s.pendingChallenges = s'.pendingChallenges :=
    congrArg Tables.pendingChallenges same
  rw [Consistent, Consistent, registry, pending]

theorem Consistent.next (consistent : Consistent r.server) (step : r.next e = some t)
    (faithful : r.Faithful e) : Consistent t.server := by
  rcases (tableStep_of_next step).forgets_or with forgets |
    ⟨ws, m, readings, entropy, data, id, publicKey, rfl, read, requested, tables⟩ |
    ⟨ws, m, readings, entropy, data, id, challenge, content, rfl, read, answered, tables⟩
  · intro k registration challenge registered pending
    exact consistent k registration challenge (forgets.registry _ _ registered)
      (forgets.pending _ _ pending)
  · rw [consistent_congr tables]
    intro k registration challenge registered pending
    rw [issue, Dict.get?_set] at pending
    split_ifs at pending with same
    · cases pending
      refine faithful (id, publicKey) ?_ registration (same ▸ registered)
      rw [read, Option.bind_some]
      exact requested
    · exact consistent k registration challenge registered
        (Dict.get?_filter_eq_some_iff.mp pending).1
  · rw [consistent_congr tables]
    intro k registration later registered pending
    rw [get?_registry_settle] at registered
    rw [pendingChallenges_settle, Dict.get?_erase] at pending
    split_ifs at pending with same
    rw [if_neg fun fresh => same fresh.1] at registered
    exact consistent k registration later registered pending

/-- Only a verified response replaces an entry. -/
theorem replaced_by_response {id : Key} {old new : Registration} (step : r.next e = some t)
    (held : r.server.registry.get? id = some old) (replaced : t.server.registry.get? id = some new)
    (changed : new ≠ old) :
    ∃ ws m readings entropy data challenge content signature,
      e = .message ws m readings entropy ∧ r.server.read? ws m readings = some data ∧
      r.server.answered? data = some (id, challenge, content) ∧
      judge r.log.verify challenge content = .verified signature ∧
      new = ⟨ws, challenge.publicKey⟩ := by
  have unchanged : r.server.registry.get? id ≠ some new := by
    rw [held]
    exact fun same => changed (Option.some.inj same).symm
  -- Forgetting and issuing put nothing into the registry, so an answer was settled.
  rcases (tableStep_of_next step).forgets_or with forgets |
    ⟨ws, m, readings, entropy, data, k, publicKey, rfl, read, requested, tables⟩ |
    ⟨ws, m, readings, entropy, data, k, challenge, content, rfl, read, answered, tables⟩
  · exact absurd (forgets.registry _ _ replaced) unchanged
  · have registry : t.server.registry = r.server.registry := congrArg Tables.registry tables
    exact absurd (registry ▸ replaced) unchanged
  · have settled : (r.server.settle k challenge (judge r.log.verify challenge content) ws
        readings.consume).registry.get? id = some new :=
          (registry_of_tables tables id).symm.trans replaced
    rw [get?_registry_settle] at settled
    split_ifs at settled with fresh
    · obtain ⟨rfl, isVerified⟩ := fresh
      obtain ⟨signature, verdict⟩ := Verdict.eq_of_isVerified isVerified
      exact ⟨ws, m, readings, entropy, data, challenge, content, signature, rfl, read, answered,
        verdict, (Option.some.inj settled).symm⟩
    · exact absurd settled unchanged

/-- After a run in which challenges for registered agents are asked for under the
registered key, an entry is replaced only by a response to a challenge whose nonce
the holder of the registered key has signed. -/
theorem no_takeover {rateLimit burstLimit : ℚ} {id : Key} {old new : Registration}
    (run : Run (Guarded (OfPartial next) Faithful) (init rateLimit burstLimit) events r)
    (step : r.next e = some t) (held : r.server.registry.get? id = some old)
    (replaced : t.server.registry.get? id = some new) (changed : new ≠ old) :
    ∃ ws m readings entropy data challenge content, e = .message ws m readings entropy ∧
      r.server.read? ws m readings = some data ∧
      r.server.answered? data = some (id, challenge, content) ∧
      r.log.Signed old.publicKey (utf8 challenge.nonce) := by
  have consistent : Consistent r.server := by
    have preserved : ∀ u event v, Consistent u.server →
        Guarded (OfPartial next) Faithful u event v → Consistent v.server := by
      intro u event v consistent step
      exact consistent.next step.1 step.2
    have initially : Consistent (init rateLimit burstLimit).server := by
      intro k registration challenge registered
      cases registered
    have reached := run.invariant preserved initially
    exact reached
  -- The answer was verified under the key of the challenge, which is the key on record.
  obtain ⟨ws, m, readings, entropy, data, challenge, content, signature, rfl, read, answered,
    verdict, -⟩ := replaced_by_response step held replaced changed
  have pending := (answered?_eq_some_iff.mp answered).2.1
  have sameKey := consistent id old challenge held pending
  obtain ⟨publicBytes, signed, decoded, logged⟩ :=
    SignatureLog.signed_of_verifyBytes (verifyBytes_of_judge verdict).2.2
  exact ⟨ws, m, readings, entropy, data, challenge, content, rfl, read, answered, publicBytes,
    signed, sameKey ▸ decoded, logged⟩

/-- The agent shows up on another connection, with a key of twos. -/
def impostorHello : Message :=
  frame "alice" "Handshake" broadcastId
    "\x7b\"public_key\": \"AgICAgICAgICAgICAgICAgICAgICAgICAgICAgICAgI=\"\x7d"

/-- The registered agent reconnects before its first connection is noticed to be dead. -/
def reconnecting : List RelayEvent :=
  registering 2 ++ [.connect 1 "10.0.0.2" 3, .message 1 (hello "alice") (readAt 4) (constant 9),
    .sent 1 .ok, .sign ⟨List.replicate 32 1, utf8 (constant 9).hex, [2]⟩]

/-- Someone else connects and claims to be the agent. -/
def usurping : List RelayEvent :=
  registering 2 ++ [.connect 1 "10.0.0.2" 3, .message 1 impostorHello (readAt 4) (constant 9),
    .sent 1 .ok, .sign ⟨List.replicate 32 2, utf8 (constant 9).hex, [2]⟩]

/-- The response on the second connection. -/
def secondResponse : RelayEvent :=
  .message 1 (frame "alice" "Challenge_Response" "" "Ag==") (readAt 5) (constant 8)

theorem no_takeover_reconnected :
    ∃ (r : Relay) (challenge : Challenge) (old : Registration), r.Reachable ∧
      r.server.registry.get? (.text "alice") = some old ∧
      r.server.pendingChallenges.get? (.text "alice") = some challenge ∧
      r.log.Signed old.publicKey (utf8 challenge.nonce) := by
  have runs : (runPartial (checked next Faithful) (init 30 60) reconnecting).any (fun r =>
      (r.next secondResponse).any fun t =>
        decide ((r.server.registry.get? (.text "alice")).map Registration.ws = some 0 ∧
          (t.server.registry.get? (.text "alice")).map Registration.ws = some 1)) = true := by
    decide +kernel
  obtain ⟨r, run, facts⟩ := exists_guarded_of_any runs
  obtain ⟨t, step, facts⟩ := (Option.any_eq_true _ _).mp facts
  obtain ⟨first, second⟩ := of_decide_eq_true facts
  obtain ⟨old, held, onFirst⟩ := Option.map_eq_some_iff.mp first
  obtain ⟨new, replaced, onSecond⟩ := Option.map_eq_some_iff.mp second
  have changed : new ≠ old := by
    rintro rfl
    exact absurd (onFirst.symm.trans onSecond) (by decide)
  obtain ⟨_, _, _, _, _, challenge, _, -, -, answered, signed⟩ :=
    no_takeover run step held replaced changed
  exact ⟨r, challenge, old, ⟨30, 60, _, run.of_guarded⟩, held,
    (answered?_eq_some_iff.mp answered).2.1, signed⟩

/-- The entry of the agent is replaced by one with another key, in response to a
challenge that the registered key has not signed. -/
theorem takeover :
    ∃ (r t : Relay) (challenge : Challenge) (old new : Registration),
      Run (OfPartial next) (init 30 60) usurping r ∧ r.next secondResponse = some t ∧
      r.server.registry.get? (.text "alice") = some old ∧
      t.server.registry.get? (.text "alice") = some new ∧ new.publicKey ≠ old.publicKey ∧
      r.server.pendingChallenges.get? (.text "alice") = some challenge ∧
      ¬ r.log.Signed old.publicKey (utf8 challenge.nonce) := by
  let old : Registration := ⟨0, "AQEBAQEBAQEBAQEBAQEBAQEBAQEBAQEBAQEBAQEBAQE="⟩
  let new : Registration := ⟨1, "AgICAgICAgICAgICAgICAgICAgICAgICAgICAgICAgI="⟩
  let challenge : Challenge := ⟨1, (constant 9).hex, new.publicKey, 4⟩
  have runs : (runPartial next (init 30 60) usurping).any (fun r =>
      (r.next secondResponse).any fun t =>
        decide (r.server.registry.get? (.text "alice") = some old ∧
          t.server.registry.get? (.text "alice") = some new ∧
          r.server.pendingChallenges.get? (.text "alice") = some challenge ∧
          ∀ signing ∈ r.log, signing.data = utf8 challenge.nonce →
            Base64.decode false old.publicKey ≠ some signing.publicKey)) = true := by
    decide +kernel
  obtain ⟨r, run, facts⟩ := exists_run_of_any runs
  obtain ⟨t, step, facts⟩ := (Option.any_eq_true _ _).mp facts
  obtain ⟨held, replaced, pending, others⟩ := of_decide_eq_true facts
  refine ⟨r, t, challenge, old, new, run, step, held, replaced, by decide, pending, ?_⟩
  rintro ⟨publicBytes, signature, decoded, logged⟩
  exact others _ logged rfl decoded

/-! ### Interfering with a pending challenge -/

/-- The agent whose pending challenge an event settles, replaces or drops. -/
def touched? (r : Relay) (e : RelayEvent) : Option Key :=
  match e with
  | .message ws m readings _ =>
    (r.server.read? ws m readings).bind fun data =>
      match r.server.answered? data with
      | some (id, _, _) => some id
      | none => (r.server.requested? ws (r.address e) readings.limit data).map Prod.fst
  | .sent ws outcome =>
    match r.task? ws with
    | some (.sending purpose _ _) => purpose.drops? outcome
    | _ => none
  | _ => none

/-- A challenge is older than 300 seconds when a message may sweep it. -/
def Expired (challenge : Challenge) : RelayEvent → Prop
  | .message _ _ readings _ => 300 < readings.cleanup - challenge.timestamp
  | _ => False

instance (challenge : Challenge) (e : RelayEvent) : Decidable (Expired challenge e) := by
  induction e using RelayEvent.casesOn <;> unfold Expired <;> infer_instance

/-- A handler answers, requests and drops challenges only for agents whose pending
challenge, if any, was issued to its own connection or has expired. -/
def Considerate (r : Relay) (e : RelayEvent) : Prop :=
  ∀ id ∈ r.touched? e, ∀ challenge ∈ r.server.pendingChallenges.get? id,
    e.handler? = some challenge.ws ∨ Expired challenge e

instance (r : Relay) (e : RelayEvent) : Decidable (r.Considerate e) :=
  inferInstanceAs (Decidable (∀ id ∈ r.touched? e, ∀ challenge ∈
    r.server.pendingChallenges.get? id, e.handler? = some challenge.ws ∨ Expired challenge e))

/-- Challenges that were issued to other connections stay, unless they expire. -/
def Undisturbed (r : Relay) (e : RelayEvent) (t : Relay) : Prop :=
  ∀ id challenge, r.server.pendingChallenges.get? id = some challenge →
    e.handler? ≠ some challenge.ws →
      t.server.pendingChallenges.get? id = some challenge ∨ Expired challenge e

theorem touched?_of_answered {ws : ℕ} {m : Message} {readings : Readings} {entropy : Entropy}
    {data content : Json} {id : Key} {challenge : Challenge}
    (read : r.server.read? ws m readings = some data)
    (answered : r.server.answered? data = some (id, challenge, content)) :
    r.touched? (.message ws m readings entropy) = some id := by
  rw [touched?, read, Option.bind_some, answered]

theorem touched?_of_requested {ws : ℕ} {m : Message} {readings : Readings} {entropy : Entropy}
    {data : Json} {id : Key} {publicKey : String} (read : r.server.read? ws m readings = some data)
    (requested : r.server.requested? ws (r.address (.message ws m readings entropy)) readings.limit
      data = some (id, publicKey)) :
    r.touched? (.message ws m readings entropy) = some id := by
  rw [touched?, read, Option.bind_some]
  cases answered : r.server.answered? data with
  | none => rw [requested, Option.map_some]
  | some a =>
    -- One frame has one intent.
    obtain ⟨⟨_, _, names⟩, -⟩ := answered?_eq_some_iff.mp answered
    obtain ⟨⟨_, _, _, names', request⟩, -⟩ := requested?_eq_some_iff.mp requested
    exact absurd (names.unique names').2.1.symm request

/-- What an event touches does not stay. -/
theorem gone_of_touched {id : Key} {challenge : Challenge} (step : r.next e = some t)
    (touched : r.touched? e = some id) (foreign : e.handler? ≠ some challenge.ws) :
    t.server.pendingChallenges.get? id ≠ some challenge := by
  cases e with
  | message ws m readings entropy =>
    obtain ⟨ip, isOpen, found, -, -, rfl⟩ := next_message step
    obtain ⟨data, read, rest⟩ := Option.bind_eq_some_iff.mp touched
    have address : r.address (.message ws m readings entropy) = ip := by
      rw [Relay.address, found, Option.map_some, Option.getD_some]
    split at rest
    · rename_i k ch content answered
      obtain rfl : k = id := Option.some.inj rest
      have tables := tables_receive_of_answered ip entropy read answered
      have pending := pending_of_tables tables k
      intro stays
      have gone := pending.symm.trans stays
      exact absurd ((Dict.get?_erase_self _ _).symm.trans gone) (Option.some_ne_none _).symm
    · obtain ⟨⟨k, publicKey⟩, requested, same⟩ := Option.map_eq_some_iff.mp rest
      obtain rfl : k = id := same
      rw [address] at requested
      have tables := tables_receive_of_requested entropy read requested
      have pending := pending_of_tables tables k
      intro stays
      have replaced := (Dict.get?_set_self _ _ _).symm.trans (pending.symm.trans stays)
      -- The new challenge is for the connection that asked.
      exact foreign (congrArg some (congrArg Challenge.ws (Option.some.inj replaced)))
  | sent ws outcome =>
    obtain ⟨purpose, target, transmitted, task, -, rfl⟩ := next_sent step
    have drops : purpose.drops? outcome = some id := by
      rw [touched?, task] at touched
      exact touched
    have pending := pending_of_tables (tables_resume r ws purpose target outcome) id
    intro stays
    have gone := pending.symm.trans stays
    dsimp only at gone
    rw [drops] at gone
    exact absurd ((Dict.get?_erase_self _ _).symm.trans gone) (Option.some_ne_none _).symm
  | connect | closed | lose | finish | sign => cases touched

private theorem get?_sweep {s : ADNSRelayServer} {id : Key} {challenge : Challenge} {now : ℚ}
    (pending : s.pendingChallenges.get? id = some challenge)
    (young : ¬ now - challenge.timestamp > 300) :
    (s.cleanupStaleChallenges now).pendingChallenges.get? id = some challenge :=
  Dict.get?_filter_eq_some_iff.mpr ⟨pending, decide_eq_true young⟩

theorem undisturbed_iff (step : r.next e = some t) : Undisturbed r e t ↔ r.Considerate e := by
  constructor
  · intro undisturbed id touched challenge pending
    -- A handler may forget what it asked itself.
    by_cases own : e.handler? = some challenge.ws
    · exact .inl own
    · rcases undisturbed id challenge pending own with stays | expired
      · exact absurd stays (gone_of_touched step touched own)
      · exact .inr expired
  · intro considerate id challenge pending foreign
    by_cases expired : Expired challenge e
    · exact .inr expired
    left
    have untouched : r.touched? e ≠ some id := by
      intro touched
      rcases considerate id touched challenge pending with own | old
      · exact foreign own
      · exact expired old
    -- One case for each way a step can change the tables.
    cases tableStep_of_next step with
    | same tables => exact (pending_of_tables tables id).trans pending
    | sweep event tables =>
      subst event
      exact (pending_of_tables tables id).trans (get?_sweep pending expired)
    | @issue ws m readings entropy event data k publicKey read requested tables =>
      subst event
      have other : id ≠ k := fun same =>
        untouched (same ▸ touched?_of_requested read requested)
      refine (pending_of_tables tables id).trans ?_
      exact (Dict.get?_set_of_ne other).trans (get?_sweep pending expired)
    | @settle ws m readings entropy event data content k answeredChallenge read answered tables =>
      subst event
      have other : id ≠ k := fun same => untouched (same ▸ touched?_of_answered read answered)
      refine (pending_of_tables tables id).trans ?_
      exact (Dict.get?_erase_of_ne other).trans pending
    | @resume ws outcome purpose target transmitted event task tables =>
      subst event
      refine (pending_of_tables tables id).trans ?_
      dsimp only
      split
      · exact pending
      · rename_i k drops
        have other : id ≠ k := by
          rintro rfl
          rw [touched?, task] at untouched
          exact untouched drops
        exact (Dict.get?_erase_of_ne other).trans pending
    | @leave ws handler _ tables =>
      have other : challenge.ws ≠ ws := fun same => foreign (same ▸ handler)
      refine (pending_of_tables tables id).trans ?_
      exact Dict.get?_filter_eq_some_iff.mpr ⟨pending, decide_eq_true other⟩

/-- A step leaves the challenges of other connections alone exactly if it is
considerate; along considerate steps of other handlers a challenge stays until it
expires. -/
theorem challenge_isolated (r : Relay) :
    (∀ e t, r.next e = some t → (Undisturbed r e t ↔ r.Considerate e)) ∧
    ∀ (t : Relay) events id (challenge : Challenge),
      Run (Guarded (OfPartial next) Considerate) r events t →
      r.server.pendingChallenges.get? id = some challenge →
      (∀ e ∈ events, RelayEvent.handler? e ≠ some challenge.ws ∧ ¬ Expired challenge e) →
      t.server.pendingChallenges.get? id = some challenge := by
  refine ⟨fun e t step => undisturbed_iff step, ?_⟩
  intro t events id challenge run pending foreign
  induction run with
  | nil => exact pending
  | snoc _ last ih =>
    have here := ih fun e earlier => foreign e (List.mem_append_left _ earlier)
    obtain ⟨other, young⟩ := foreign _ (List.mem_append_right _ (List.mem_singleton.mpr rfl))
    rcases (undisturbed_iff last.1).mpr last.2 id challenge here other with stays | expired
    · exact stays
    · exact absurd expired young

/-- Another agent is challenged and registers on its connection while an agent is being
challenged. -/
theorem challenge_isolated_joining :
    ∃ (r t : Relay) (challenge : Challenge), r.Reachable ∧
      Run (Guarded (OfPartial next) Considerate) r (joining 1 "bob" 8 2 3) t ∧
      (t.server.registry.get? (.text "bob")).isSome ∧
      r.server.pendingChallenges.get? (.text "alice") = some challenge ∧
      t.server.pendingChallenges.get? (.text "alice") = some challenge := by
  let challenge : Challenge :=
    ⟨0, (constant 7).hex, "AQEBAQEBAQEBAQEBAQEBAQEBAQEBAQEBAQEBAQEBAQE=", 1⟩
  have runs : (runPartial next (init 30 60) ((registering 2).take 3)).any (fun r =>
      decide (r.server.pendingChallenges.get? (.text "alice") = some challenge) &&
        (runPartial (checked next Considerate) r (joining 1 "bob" 8 2 3)).any fun t =>
          (t.server.registry.get? (.text "bob")).isSome) = true := by
    decide +kernel
  obtain ⟨r, run, facts⟩ := exists_run_of_any runs
  obtain ⟨pending, follows⟩ := (Bool.and_eq_true _ _).mp facts
  have pending := of_decide_eq_true pending
  obtain ⟨t, considerate, registered⟩ := exists_guarded_of_any follows
  -- All of it is handled on the other connection, within 300 seconds.
  have foreign : ∀ e ∈ joining 1 "bob" 8 2 3,
      RelayEvent.handler? e ≠ some challenge.ws ∧ ¬ Expired challenge e := by
    decide +kernel
  exact ⟨r, t, challenge, ⟨30, 60, _, run⟩, considerate, registered, pending,
    (challenge_isolated r).2 t _ _ challenge considerate pending foreign⟩

/-- An agent is being challenged on one connection, and another connection answers
in its name, with nothing. -/
def meddling : List RelayEvent :=
  [.connect 0 "10.0.0.1" 0, .message 0 (hello "alice") (readAt 1) (constant 7), .sent 0 .ok,
    .connect 1 "10.0.0.2" 2]

/-- The answer cancels the challenge, which is one second old. -/
theorem challenge_cancelled :
    ∃ (r t : Relay) (e : RelayEvent), r.Reachable ∧ r.next e = some t ∧ e.handler? = some 1 ∧
      (r.server.pendingChallenges.get? (.text "alice")).map Challenge.ws = some 0 ∧
      t.server.pendingChallenges.get? (.text "alice") = none ∧ ¬ Undisturbed r e t := by
  let e : RelayEvent :=
    .message 1 (frame "alice" "Challenge_Response" "" "") (readAt 2) (constant 8)
  have runs : (runPartial next (init 30 60) meddling).any (fun r => (r.next e).any fun t =>
      decide (r.server.pendingChallenges.get? (.text "alice") =
          some ⟨0, (constant 7).hex, "AQEBAQEBAQEBAQEBAQEBAQEBAQEBAQEBAQEBAQEBAQE=", 1⟩ ∧
        t.server.pendingChallenges.get? (.text "alice") = none)) = true := by decide +kernel
  obtain ⟨r, run, facts⟩ := exists_run_of_any runs
  obtain ⟨t, step, facts⟩ := (Option.any_eq_true _ _).mp facts
  obtain ⟨pending, cancelled⟩ := of_decide_eq_true facts
  refine ⟨r, t, e, ⟨30, 60, _, run⟩, step, rfl, by rw [pending]; rfl, cancelled, ?_⟩
  intro undisturbed
  rcases undisturbed _ _ pending (by decide) with stays | expired
  · exact absurd (cancelled.symm.trans stays) (Option.some_ne_none _).symm
  · exact absurd expired (by decide +kernel)

end Relay

end AgentTelepathy
