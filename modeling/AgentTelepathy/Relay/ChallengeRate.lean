import AgentTelepathy.Foundation.Windows
import AgentTelepathy.Relay.Possession

/-!
# The limit of challenges

The relay challenges the connections from one address at most ten times a minute. An attempt counts
before the handshake is looked at, so the history of an address has at least the attempts that led
to a challenge and still count; what is pruned counts for no later time.
-/

namespace AgentTelepathy

open Foundation Foundation.Transition

/-- The histories of challenges by address, and the challenges issued. -/
structure Throttle where
  limits : Dict String (List ℚ)
  issued : List (Key × Challenge)

namespace ADNSRelayServer

variable {s : ADNSRelayServer} {ip : String} {now : ℚ}

/-- The histories of a server and what it has issued. -/
def throttle (s : ADNSRelayServer) : Throttle := ⟨s.challengeRateLimits, s.issued⟩

/-- What a message from an address can do to the histories, at the reading for the limit. -/
inductive Throttles (s : ADNSRelayServer) (ip : String) (now : ℚ) : Throttle → Prop
  | ignored : Throttles s ip now s.throttle
  | refused : Throttles s ip now
      ⟨s.challengeRateLimits.set ip (s.recentChallenges ip now), s.issued⟩
  | attempted (admits : s.Admits ip now) : Throttles s ip now
      ⟨s.challengeRateLimits.set ip (s.recentChallenges ip now ++ [now]), s.issued⟩
  | challenged (admits : s.Admits ip now) (i : Key × Challenge) : Throttles s ip now
      ⟨s.challengeRateLimits.set ip (s.recentChallenges ip now ++ [now]), s.issued ++ [i]⟩

theorem limits_sweep (s : ADNSRelayServer) (ip : String) (r : Readings) :
    (s.sweep ip r).challengeRateLimits = s.challengeRateLimits.set ip
      (if s.Admits ip r.limit then s.recentChallenges ip r.limit ++ [r.limit]
        else s.recentChallenges ip r.limit) := by
  have same : (s.cleanupStaleChallenges r.cleanup).Admits ip r.limit ↔ s.Admits ip r.limit :=
    Iff.rfl
  rw [sweep, admitChallenge]
  by_cases admits : s.Admits ip r.limit
  · rw [if_pos admits, if_neg (not_le.mpr (same.mpr admits))]
    rfl
  · rw [if_neg admits, if_pos (not_lt.mp fun below => admits (same.mp below))]
    rfl

theorem throttles_initiateChallenge (s : ADNSRelayServer) (id : Key) (senderId data : Json) (ws : ℕ)
    (ip : String) (r : Readings) (nonce : String) :
    s.Throttles ip r.limit (s.initiateChallenge id senderId data ws ip r nonce).1.throttle := by
  have issued : (s.sweep ip r).issued = s.issued := by
    obtain ⟨limits, swept⟩ := s.sweep_eq ip r
    rw [swept]
    rfl
  have limits := s.limits_sweep ip r
  rcases s.initiateChallenge_cases id senderId data ws ip r nonce with
    ⟨same, -⟩ | ⟨publicKey, admits, -, same⟩
  · rw [same, throttle, issued, limits]
    split_ifs with admits
    · exact .attempted admits
    · exact .refused
  · rw [same, throttle]
    change Throttles s ip r.limit ⟨(s.sweep ip r).challengeRateLimits, (s.sweep ip r).issued ++ [_]⟩
    rw [issued, limits, if_pos admits]
    exact .challenged admits _

theorem throttles_processData (s : ADNSRelayServer) (verify : Verifier) (ws : ℕ) (ip : String)
    (data : Json) (r : Readings) (nonce : String) :
    s.Throttles ip r.limit (s.processData verify ws ip data r nonce).1.throttle := by
  rcases s.processData_cases verify ws ip data r nonce with same | ⟨_, senderId, id, -, same⟩ |
    ⟨_, _, senderId, id, -, -, -, same⟩ | ⟨header, _, _, id, _, -, -, -, -, same⟩
  · rw [same]
    exact .ignored
  · rcases s.handleChallengeResponse_cases verify id senderId data ws r.consume with
      ⟨ignored, -⟩ | ⟨challenge, content, -, -, settled⟩
    · rw [same, ignored]
      exact .ignored
    · rw [same, settled]
      exact .ignored
  · rw [same]
    exact throttles_initiateChallenge s id senderId data ws ip r nonce
  · rcases s.route_cases id data header ws with ignored | ⟨_, -, ⟨_, _, _, -, -, routed⟩ |
      ⟨_, _, -, -, routed⟩⟩
    · rw [same, ignored]
      exact .ignored
    · rw [same, routed]
      exact .ignored
    · rw [same, routed]
      exact .ignored

/-- The token buckets have no part in the histories. -/
theorem Throttles.of_charge {ws : ℕ} {bucket : TokenBucket} {throttle : Throttle}
    (throttles : (s.charge ws bucket).Throttles ip now throttle) : s.Throttles ip now throttle := by
  cases throttles with
  | ignored => exact .ignored
  | refused => exact .refused
  | attempted admits => exact .attempted admits
  | challenged admits i => exact Throttles.challenged (s := s) admits i

/-- What a message does to the histories. -/
theorem throttles_handleMessage (s : ADNSRelayServer) (verify : Verifier) (ws : ℕ) (ip : String)
    (m : Message) (r : Readings) (nonce : String) :
    s.Throttles ip r.limit (s.handleMessage verify ws ip m r nonce).1.throttle := by
  have handled := s.handled verify ws ip m r nonce
  generalize s.handleMessage verify ws ip m r nonce = result at handled ⊢
  obtain ⟨t, action⟩ := result
  cases handled with
  | crashed | ignored => exact .ignored
  | parsed bucket _ _ _ data _ =>
    exact (throttles_processData (s.charge ws (bucket.consume r.consume).1) verify ws ip data r
      nonce).of_charge

theorem throttle_resumeSend (s : ADNSRelayServer) (outcome : SendOutcome) (purpose : Purpose) :
    (s.resumeSend outcome purpose).1.throttle = s.throttle := by
  cases purpose with
  | challenge id =>
    rw [resumeSend]
    split_ifs <;> rfl
  | confirm id => rfl
  | forward routing target =>
    rw [resumeSend]
    split_ifs <;> rfl
  | broadcast routing peer rest stale =>
    rw [resumeSend, fanOut_fst]
    rfl

end ADNSRelayServer

namespace Relay

open ADNSRelayServer

variable {r t : Relay} {e : RelayEvent} {events later : List RelayEvent} {ip : String}
  {times : List ℚ}

@[simp] theorem clock_perform (r : Relay) (ws : ℕ) (action : Action) :
    (r.perform ws action).clock = r.clock := by
  cases action with
  | receive | send => exact clock_suspend r ws _
  | close leaving => rw [perform, clock_suspend, lose_eq]

@[simp] theorem clock_exit (r : Relay) (ws : ℕ) :
    (r.exit ws).clock = r.clock := clock_suspend _ ws _

theorem clock_receive (r : Relay) (ws : ℕ) (ip : String) (m : Message) (readings : Readings)
    (entropy : Entropy) : (r.receive ws ip m readings entropy).clock = readings.stamp := by
  rw [receive]
  obtain ⟨s, action⟩ := r.server.handleMessage r.log.verify ws ip m readings entropy.hex
  cases action with
  | none => exact clock_exit _ ws
  | some action => exact clock_perform _ ws action

theorem throttle_receive (r : Relay) (ws : ℕ) (ip : String) (m : Message) (readings : Readings)
    (entropy : Entropy) : (r.receive ws ip m readings entropy).server.throttle =
      (r.server.handleMessage r.log.verify ws ip m readings entropy.hex).1.throttle := by
  rw [receive]
  obtain ⟨s, action⟩ := r.server.handleMessage r.log.verify ws ip m readings entropy.hex
  cases action with
  | none =>
    dsimp only
    rw [server_exit]
    rfl
  | some action => exact congrArg throttle (server_perform _ ws action)

/-- A step is the processing of a message, at the reading for the limit, or has no part in the
histories. -/
inductive ThrottleStep (r : Relay) (e : RelayEvent) (t : Relay) : Prop
  | message {ws : ℕ} {m : Message} {readings : Readings} {entropy : Entropy}
      (event : e = .message ws m readings entropy) (before : r.clock ≤ readings.limit)
      (after : readings.limit ≤ t.clock)
      (throttles : r.server.Throttles (r.address e) readings.limit t.server.throttle)
  | other (before : r.clock ≤ t.clock) (same : t.server.throttle = r.server.throttle)

theorem throttleStep_of_next (step : r.next e = some t) : ThrottleStep r e t := by
  cases e with
  | connect ws ip now =>
    obtain ⟨⟨-, later⟩, same⟩ := Option.ite_none_right_eq_some.mp step
    cases same
    exact .other later rfl
  | message ws m readings entropy =>
    obtain ⟨ip, isOpen, found, later, ordered, rfl⟩ := next_message step
    have address : r.address (.message ws m readings entropy) = ip := by
      rw [Relay.address, found, Option.map_some, Option.getD_some]
    have throttles := r.server.throttles_handleMessage r.log.verify ws ip m readings entropy.hex
    -- Only a frame can reach `/challenge`; what the other events run leaves the throttle.
    refine .message rfl (later.trans (ordered.1.trans ordered.2.1)) ?_ ?_
    · rw [clock_receive]
      exact ordered.2.2
    · rw [address, throttle_receive]
      exact throttles
  | sent ws outcome =>
    obtain ⟨purpose, target, transmitted, -, -, rfl⟩ := next_sent step
    refine .other ?_ ?_
    · rw [resume, clock_perform]
    · rw [resume, server_perform]
      exact throttle_resumeSend r.server outcome purpose
  | closed ws =>
    rcases next_closed step with ⟨-, rfl⟩ | ⟨-, rfl⟩
    · exact .other (clock_exit r ws).ge (by rw [server_exit]; rfl)
    · exact .other (clock_suspend r ws _).ge (by rw [server_suspend])
  | lose ws =>
    obtain ⟨-, same⟩ := Option.ite_none_right_eq_some.mp step
    cases same
    exact .other (by rw [lose_eq]) (by rw [lose_eq])
  | finish ws =>
    obtain ⟨-, -, rfl⟩ := next_finish step
    exact .other (clock_exit r ws).ge (by rw [server_exit]; rfl)
  | sign signing =>
    cases step
    exact .other le_rfl rfl

/-- When a step issues a challenge to a connection from an address: the reading for the limit. -/
def issueTime? (ip : String) (r : Relay) (e : RelayEvent) (t : Relay) : Option ℚ :=
  match e with
  | .message _ _ readings _ =>
    if r.address e = ip ∧ r.server.issued.length < t.server.issued.length then some readings.limit
    else none
  | _ => none

/-- When the challenges to connections from an address are issued along some events. -/
def issueTimes (ip : String) (r : Relay) : List RelayEvent → List ℚ
  | [] => []
  | e :: events =>
    match r.next e with
    | none => []
    | some t => (issueTime? ip r e t).toList ++ issueTimes ip t events

theorem issueTimes_append (run : Run (OfPartial next) r events t) (later : List RelayEvent) :
    issueTimes ip r (events ++ later) = issueTimes ip r events ++ issueTimes ip t later := by
  induction run generalizing later with
  | nil => rfl
  | snoc _ last ih =>
    have step : next _ _ = some _ := last
    rw [List.append_assoc, ih, ih, List.append_assoc]
    simp only [List.singleton_append, issueTimes, step, List.append_nil]

/-- The history of an address. -/
def history (r : Relay) (ip : String) : List ℚ := (r.server.challengeRateLimits.get? ip).getD []

/-- A message from an address keeps its history above what was issued. -/
theorem covers_of_throttles {now : ℚ} (covers : Windows.Covers 10 60 now (r.history ip) times)
    (throttles : r.server.Throttles ip now t.server.throttle) :
    Windows.Covers 10 60 now (t.history ip)
      (times ++ if r.server.issued.length < t.server.issued.length then [now] else []) := by
  have after : t.history ip = (t.server.throttle.limits.get? ip).getD [] := rfl
  have issued : t.server.issued = t.server.throttle.issued := rfl
  rw [after, issued]
  generalize t.server.throttle = throttle at throttles ⊢
  cases throttles with
  | ignored =>
    rw [throttle, if_neg (lt_irrefl _), List.append_nil]
    exact covers
  | refused =>
    rw [if_neg (lt_irrefl _), List.append_nil, Dict.get?_set_self, Option.getD_some]
    exact covers.prune
  | attempted admits =>
    rw [if_neg (lt_irrefl _), List.append_nil, Dict.get?_set_self, Option.getD_some]
    exact covers.prune.attempt now
  | challenged admits i =>
    have longer : r.server.issued.length < (r.server.issued ++ [i]).length := by simp
    rw [if_pos longer, Dict.get?_set_self, Option.getD_some]
    refine covers.prune.pass ?_
    rw [Windows.recent_recent le_rfl]
    exact admits

/-- A message from an address leaves the histories of the others. -/
theorem history_of_throttles {now : ℚ} {other : String} (ne : other ≠ ip)
    (throttles : r.server.Throttles ip now t.server.throttle) :
    t.history other = r.history other := by
  have after : t.history other = (t.server.throttle.limits.get? other).getD [] := rfl
  rw [after]
  generalize t.server.throttle = throttle at throttles ⊢
  cases throttles with
  | ignored => rfl
  | refused | attempted | challenged =>
    rw [Dict.get?_set_of_ne ne]
    rfl

theorem covers_of_next (covers : Windows.Covers 10 60 r.clock (r.history ip) times)
    (step : r.next e = some t) :
    Windows.Covers 10 60 t.clock (t.history ip) (times ++ (issueTime? ip r e t).toList) := by
  cases throttleStep_of_next step with
  | other before same =>
    -- The throttle is as it was, so nothing was issued.
    have issued : t.server.issued = r.server.issued := congrArg Throttle.issued same
    have none' : issueTime? ip r e t = none := by
      unfold issueTime?
      split
      · rw [issued, if_neg fun longer => lt_irrefl _ longer.2]
      · rfl
    have history : t.history ip = r.history ip :=
      congrArg (fun throttle => (throttle.limits.get? ip).getD []) same
    rw [none', Option.toList_none, List.append_nil, history]
    exact covers.later before
  | @message ws m readings entropy event before after throttles =>
    subst event
    -- A request from another address leaves the history of this one.
    by_cases own : r.address (.message ws m readings entropy) = ip
    · rw [own] at throttles
      have kept := (covers_of_throttles (covers.later before) throttles).later after
      have time : (issueTime? ip r (.message ws m readings entropy) t).toList =
          if r.server.issued.length < t.server.issued.length then [readings.limit] else [] := by
        simp only [issueTime?, own, true_and]
        split_ifs <;> rfl
      rw [time]
      exact kept
    · rw [issueTime?, if_neg fun issued => own issued.1, Option.toList_none, List.append_nil,
        history_of_throttles (Ne.symm own) throttles]
      exact covers.later (before.trans after)

theorem covers_of_run (run : Run (OfPartial next) r events t)
    (covers : Windows.Covers 10 60 r.clock (r.history ip) []) :
    Windows.Covers 10 60 t.clock (t.history ip) (issueTimes ip r events) := by
  induction run with
  | nil => exact covers
  | snoc before last ih =>
    have step : next _ _ = some _ := last
    rw [issueTimes_append before]
    simp only [issueTimes, step, List.append_nil]
    exact covers_of_next ih step

/-- In every half-open minute at most ten challenges are issued to connections from one address. -/
theorem length_issueTimes_le {rateLimit burstLimit : ℚ}
    (run : Run (OfPartial next) (init rateLimit burstLimit) events t) (ip : String) (a : ℚ) :
    ((issueTimes ip (init rateLimit burstLimit) events).filter fun time =>
        a ≤ time ∧ time < a + 60).length ≤ 10 ∧
      ((issueTimes ip (init rateLimit burstLimit) events).filter fun time =>
        a < time ∧ time ≤ a + 60).length ≤ 10 := by
  have covers : Windows.Covers 10 60 t.clock (t.history ip)
      (issueTimes ip (init rateLimit burstLimit) events) :=
    covers_of_run run Windows.Covers.nil
  constructor
  · refine covers.few _ fun x y first second => ?_
    have first := of_decide_eq_true first
    have second := of_decide_eq_true second
    linarith
  · refine covers.few _ fun x y first second => ?_
    have first := of_decide_eq_true first
    have second := of_decide_eq_true second
    linarith

/-- The agent of a connection says hello a second after the one before it. -/
def crowd (ws : ℕ) : List RelayEvent :=
  [.connect ws "10.0.0.1" ws,
    .message ws (hello (String.ofList (List.replicate (ws + 1) 'a'))) (readAt ws) (constant 7)]

/-- Eleven agents at one address ask for a challenge within a minute. -/
def crowding : List RelayEvent :=
  (List.range 10).flatMap (fun ws => crowd ws ++ [.sent ws .ok]) ++ crowd 10

/-- The first ten are challenged, and the last is not. -/
theorem length_issueTimes_le_crowding :
    issueTimes "10.0.0.1" (init 30 60) crowding = [0, 1, 2, 3, 4, 5, 6, 7, 8, 9] ∧
      ((issueTimes "10.0.0.1" (init 30 60) crowding).filter fun time =>
        0 ≤ time ∧ time < 0 + 60).length ≤ 10 := by
  have follows : (runPartial next (init 30 60) crowding).isSome = true := by decide +kernel
  exact ⟨by decide +kernel, (length_issueTimes_le (run_get follows) "10.0.0.1" 0).1⟩

end Relay

end AgentTelepathy
