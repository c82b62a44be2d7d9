import AgentTelepathy.Relay.Isolation
import AgentTelepathy.Relay.Liveness

/-!
# What an agent can tell of the relay

An agent can tell its entry, its pending challenge, the answers it gave, its
connections with their token buckets, and what its keys have signed. The functions
of the server that work for the agent, or on its connections, look at nothing else.
-/

namespace AgentTelepathy

open Foundation Foundation.Transition

/-- The connection that an event takes place on. -/
def RelayEvent.connection? : RelayEvent → Option ℕ
  | .connect ws _ _ | .message ws _ _ _ | .sent ws _ | .closed ws | .lose ws | .finish ws => some ws
  | .sign _ => none

/-- The events on the connections of a party, and the signatures with its keys. -/
def Party.owns (p : Party) : RelayEvent → Bool
  | .connect ws _ _ | .message ws _ _ _ | .sent ws _ | .closed ws | .lose ws | .finish ws =>
      p.own ws
  | .sign signing => p.keys signing.publicKey

/-- A frame that names nobody is ignored. -/
theorem ADNSRelayServer.processData_of_unnamed {s : ADNSRelayServer} {data : Json}
    (unnamed : named? data = none) (verify : Verifier) (ws : ℕ) (ip : String) (r : Readings)
    (nonce : String) : s.processData verify ws ip data r nonce = (s, .receive) := by
  have nobody {header intent senderId : Json} {id : Key} :
      ¬ Names data header intent senderId id := by
    intro names
    exact absurd (unnamed.symm.trans (named?_eq_some_iff.mpr names)) (Option.some_ne_none _).symm
  rcases s.processData_cases verify ws ip data r nonce with same | ⟨_, _, _, names, -⟩ |
    ⟨_, _, _, _, names, -⟩ | ⟨_, _, _, _, _, names, -⟩
  · exact same
  · exact absurd names nobody
  · exact absurd names nobody
  · exact absurd names nobody

/-- Below the limit, a handshake obtains a challenge for the key that it claims. -/
theorem ADNSRelayServer.initiateChallenge_of_admits {s : ADNSRelayServer} {ip : String}
    {r : Readings}
    (admits : s.Admits ip r.limit) (id : Key) (senderId data : Json) (ws : ℕ) (nonce : String) :
    s.initiateChallenge id senderId data ws ip r nonce =
      match claimedKey? data with
      | none => (s.sweep ip r, .receive)
      | some publicKey =>
        ((s.sweep ip r).issue id ⟨ws, nonce, publicKey, r.stamp⟩,
          .send (.challenge id) ws (challengeFrame senderId nonce)) := by
  rcases s.initiateChallenge_cases id senderId data ws ip r nonce with ⟨refused, full | unclaimed⟩ |
    ⟨publicKey, -, claimed, issued⟩
  · exact absurd admits full
  · rw [refused, unclaimed]
  · rw [issued, claimed]

/-! ### Servers that look alike -/

/-- A party cannot tell two servers apart. -/
structure AlikeServers (p : Party) (s s' : ADNSRelayServer) : Prop where
  limits : s.rateLimit = s'.rateLimit ∧ s.burstLimit = s'.burstLimit
  registry : s.registry.get? p.agent = s'.registry.get? p.agent
  pending : s.pendingChallenges.get? p.agent = s'.pendingChallenges.get? p.agent
  buckets : ∀ ws, p.own ws = true → s.rateLimiters.get? ws = s'.rateLimiters.get? ws
  answers : s.answers.filter (fun a => a.agentId = p.agent) =
    s'.answers.filter fun a => a.agentId = p.agent

namespace AlikeServers

open ADNSRelayServer

variable {p : Party} {s s' s'' : ADNSRelayServer} {ws : ℕ} {verify verify' : Verifier}
  {ip nonce : String} {data : Json} {r : Readings}

theorem refl (p : Party) (s : ADNSRelayServer) : AlikeServers p s s :=
  ⟨⟨rfl, rfl⟩, rfl, rfl, fun _ _ => rfl, rfl⟩

theorem symm (alike : AlikeServers p s s') : AlikeServers p s' s :=
  ⟨⟨alike.limits.1.symm, alike.limits.2.symm⟩, alike.registry.symm, alike.pending.symm,
    fun ws own => (alike.buckets ws own).symm, alike.answers.symm⟩

theorem trans (alike : AlikeServers p s s') (alike' : AlikeServers p s' s'') :
    AlikeServers p s s'' :=
  ⟨⟨alike.limits.1.trans alike'.limits.1, alike.limits.2.trans alike'.limits.2⟩,
    alike.registry.trans alike'.registry, alike.pending.trans alike'.pending,
    fun ws own => (alike.buckets ws own).trans (alike'.buckets ws own),
    alike.answers.trans alike'.answers⟩

private theorem get?_filter_congr {κ ν : Type} [DecidableEq κ] {d e : Dict κ ν} {k : κ}
    (same : d.get? k = e.get? k) (keep : κ × ν → Bool) :
    (d.filter keep).get? k = (e.filter keep).get? k := by
  apply Option.ext
  intro v
  rw [Dict.get?_filter_eq_some_iff, Dict.get?_filter_eq_some_iff, same]

private theorem get?_set_congr {κ ν : Type} [DecidableEq κ] {d e : Dict κ ν} {j : κ}
    (same : d.get? j = e.get? j) (k : κ) (v : ν) : (d.set k v).get? j = (e.set k v).get? j := by
  rw [Dict.get?_set, Dict.get?_set, same]

private theorem get?_erase_congr {κ ν : Type} [DecidableEq κ] {d e : Dict κ ν} {j : κ}
    (same : d.get? j = e.get? j) (k : κ) : (d.erase k).get? j = (e.erase k).get? j := by
  rw [Dict.get?_erase, Dict.get?_erase, same]

theorem charge (alike : AlikeServers p s s') (ws : ℕ) (bucket : TokenBucket) :
    AlikeServers p (s.charge ws bucket) (s'.charge ws bucket) :=
  ⟨alike.limits, alike.registry, alike.pending,
    fun w own => get?_set_congr (alike.buckets w own) ws bucket, alike.answers⟩

theorem connect (alike : AlikeServers p s s') (ws : ℕ) (now : ℚ) :
    AlikeServers p (s.connect ws now) (s'.connect ws now) := by
  refine ⟨alike.limits, alike.registry, alike.pending, ?_, alike.answers⟩
  intro w own
  rw [ADNSRelayServer.connect, ADNSRelayServer.connect, alike.limits.1, alike.limits.2]
  exact get?_set_congr (alike.buckets w own) ws _

theorem disconnect (alike : AlikeServers p s s') (ws : ℕ) :
    AlikeServers p (s.disconnect ws) (s'.disconnect ws) :=
  ⟨alike.limits, get?_filter_congr alike.registry _, get?_filter_congr alike.pending _,
    fun w own => get?_erase_congr (alike.buckets w own) ws, alike.answers⟩

theorem sweep (alike : AlikeServers p s s') (ip : String) (r : Readings) :
    AlikeServers p (s.sweep ip r) (s'.sweep ip r) := by
  obtain ⟨limits, swept⟩ := s.sweep_eq ip r
  obtain ⟨limits', swept'⟩ := s'.sweep_eq ip r
  rw [swept, swept']
  exact ⟨alike.limits, alike.registry, get?_filter_congr alike.pending _, alike.buckets,
    alike.answers⟩

theorem issue (alike : AlikeServers p s s') (id : Key) (challenge : Challenge) :
    AlikeServers p (s.issue id challenge) (s'.issue id challenge) :=
  ⟨alike.limits, alike.registry, get?_set_congr alike.pending id challenge, alike.buckets,
    alike.answers⟩

theorem settle (alike : AlikeServers p s s') (challenge : Challenge) (verdict : Verdict) (ws : ℕ)
    (now : ℚ) :
    AlikeServers p (s.settle p.agent challenge verdict ws now)
      (s'.settle p.agent challenge verdict ws now) := by
  refine ⟨alike.limits, ?_, get?_erase_congr alike.pending _, alike.buckets, ?_⟩
  · rw [get?_registry_settle, get?_registry_settle, alike.registry]
  · have answers (s : ADNSRelayServer) : (s.settle p.agent challenge verdict ws now).answers =
        s.answers ++ [⟨p.agent, challenge, verdict, ws, now, s.registry.get? p.agent⟩] := rfl
    rw [answers, answers, List.filter_append, List.filter_append, alike.answers, alike.registry]

/-- A pending challenge is dropped. -/
theorem drop (alike : AlikeServers p s s') (id : Key) :
    AlikeServers p { s with pendingChallenges := s.pendingChallenges.erase id }
      { s' with pendingChallenges := s'.pendingChallenges.erase id } :=
  ⟨alike.limits, alike.registry, get?_erase_congr alike.pending id, alike.buckets, alike.answers⟩

/-- A handshake of the agent, below the limit. -/
theorem initiateChallenge (alike : AlikeServers p s s') (admits : s.Admits ip r.limit)
    (admits' : s'.Admits ip r.limit) (id : Key) (senderId data : Json) (ws : ℕ) (nonce : String) :
    AlikeServers p (s.initiateChallenge id senderId data ws ip r nonce).1
        (s'.initiateChallenge id senderId data ws ip r nonce).1 ∧
      (s.initiateChallenge id senderId data ws ip r nonce).2 =
        (s'.initiateChallenge id senderId data ws ip r nonce).2 := by
  rw [initiateChallenge_of_admits admits, initiateChallenge_of_admits admits']
  cases claimedKey? data with
  | none => exact ⟨alike.sweep ip r, rfl⟩
  | some publicKey => exact ⟨(alike.sweep ip r).issue id _, rfl⟩

/-- An answer of the agent, if both servers judge it alike. -/
theorem handleChallengeResponse (alike : AlikeServers p s s')
    (verdicts : ∀ challenge content, s.pendingChallenges.get? p.agent = some challenge →
      judge verify challenge content = judge verify' challenge content)
    (senderId data : Json) (ws : ℕ) (now : ℚ) :
    AlikeServers p (s.handleChallengeResponse verify p.agent senderId data ws now).1
        (s'.handleChallengeResponse verify' p.agent senderId data ws now).1 ∧
      (s.handleChallengeResponse verify p.agent senderId data ws now).2 =
        (s'.handleChallengeResponse verify' p.agent senderId data ws now).2 := by
  rw [ADNSRelayServer.handleChallengeResponse, ADNSRelayServer.handleChallengeResponse,
    ← alike.pending]
  cases pending : s.pendingChallenges.get? p.agent with
  | none => exact ⟨alike, rfl⟩
  | some challenge =>
    cases payloadContent data with
    | none => exact ⟨alike, rfl⟩
    | some content =>
      dsimp only
      rw [verdicts challenge content pending]
      exact ⟨alike.settle challenge _ ws now, rfl⟩

/-- A frame of the agent that is not routed. -/
theorem processData (alike : AlikeServers p s s') (ws : ℕ) (ip : String) (data : Json)
    (r : Readings) (nonce : String)
    (verdicts : ∀ challenge content, s.pendingChallenges.get? p.agent = some challenge →
      judge verify challenge content = judge verify' challenge content)
    (negotiates : ∀ header intent senderId id, Names data header intent senderId id →
      id = p.agent ∧ (intent ≠ challengeResponse →
        (s.registry.get? p.agent).map Registration.ws ≠ some ws ∧ s.Admits ip r.limit ∧
          s'.Admits ip r.limit)) :
    AlikeServers p (s.processData verify ws ip data r nonce).1
        (s'.processData verify' ws ip data r nonce).1 ∧
      (s.processData verify ws ip data r nonce).2 =
      (s'.processData verify' ws ip data r nonce).2 := by
  cases found : named? data with
  | none =>
    rw [processData_of_unnamed found, processData_of_unnamed found]
    exact ⟨alike, rfl⟩
  | some named =>
    obtain ⟨header, intent, senderId, id⟩ := named
    -- The frame is of the agent, so both relays look at the same registration.
    have names := named?_eq_some_iff.mp found
    obtain ⟨rfl, request⟩ := negotiates _ _ _ _ names
    rw [processData_of_names names, processData_of_names names, ← alike.registry]
    by_cases response : intent = challengeResponse
    · rw [if_pos response, if_pos response]
      exact alike.handleChallengeResponse verdicts senderId data ws r.consume
    rw [if_neg response, if_neg response]
    obtain ⟨elsewhere, admits, admits'⟩ := request response
    have initiates := alike.initiateChallenge admits admits' p.agent senderId data ws nonce
    cases registered : s.registry.get? p.agent with
    | none =>
      have pending : s'.pendingChallenges.contains p.agent = s.pendingChallenges.contains p.agent :=
        congrArg Option.isSome alike.pending.symm
      dsimp only
      rw [pending]
      split_ifs
      · exact ⟨alike, rfl⟩
      · exact initiates
    | some registration =>
      have other : registration.ws ≠ ws := by
        rintro rfl
        rw [registered] at elsewhere
        exact elsewhere rfl
      dsimp only
      rw [if_pos other, if_pos other]
      exact initiates

/-- A message on an own connection. -/
theorem handleMessage (alike : AlikeServers p s s') (own : p.own ws = true) (ip : String)
    (m : Message) (r : Readings) (nonce : String)
    (verdicts : ∀ challenge content, s.pendingChallenges.get? p.agent = some challenge →
      judge verify challenge content = judge verify' challenge content)
    (negotiates : ∀ data header intent senderId id, s.read? ws m r = some data →
      s'.read? ws m r = some data → Names data header intent senderId id →
      id = p.agent ∧ (intent ≠ challengeResponse →
        (s.registry.get? p.agent).map Registration.ws ≠ some ws ∧ s.Admits ip r.limit ∧
          s'.Admits ip r.limit)) :
    AlikeServers p (s.handleMessage verify ws ip m r nonce).1
        (s'.handleMessage verify' ws ip m r nonce).1 ∧
      (s.handleMessage verify ws ip m r nonce).2 =
      (s'.handleMessage verify' ws ip m r nonce).2 := by
  rw [ADNSRelayServer.handleMessage, ADNSRelayServer.handleMessage, ← alike.buckets ws own]
  cases found : s.rateLimiters.get? ws with
  | none => exact ⟨alike, rfl⟩
  | some bucket =>
    have charged := alike.charge ws (bucket.consume r.consume).1
    dsimp only
    -- Both servers charge the same bucket, so both read the frame or neither does.
    split_ifs with paid large
    · exact ⟨charged, rfl⟩
    · cases json : m.data with
      | none => exact ⟨charged, rfl⟩
      | some data =>
        have reads {u : ADNSRelayServer} (bucketFound : u.rateLimiters.get? ws = some bucket) :
            u.read? ws m r = some data :=
          read?_eq_some_iff.mpr ⟨⟨⟨bucket, bucketFound, paid⟩, not_lt.mp large⟩, json⟩
        obtain ⟨servers, actions⟩ := charged.processData ws ip data r nonce verdicts
          fun header intent senderId id names =>
            negotiates data header intent senderId id (reads found)
              (reads ((alike.buckets ws own).symm.trans found)) names
        exact ⟨servers, congrArg some actions⟩
    · exact ⟨charged, rfl⟩

/-- After a challenge or a confirmation of the agent its handler receives again. -/
theorem resumeSend (alike : AlikeServers p s s') (outcome : SendOutcome) {purpose : Purpose}
    (own : purpose = .challenge p.agent ∨ purpose = .confirm p.agent) :
    AlikeServers p (s.resumeSend outcome purpose).1 (s'.resumeSend outcome purpose).1 ∧
      (s.resumeSend outcome purpose).2 = .receive ∧ (s'.resumeSend outcome purpose).2 =
        .receive := by
  rcases own with rfl | rfl
  · rw [ADNSRelayServer.resumeSend, ADNSRelayServer.resumeSend]
    split_ifs
    · exact ⟨alike, rfl, rfl⟩
    · exact ⟨alike.drop p.agent, rfl, rfl⟩
  · exact ⟨alike, rfl, rfl⟩

end AlikeServers

namespace Relay

open ADNSRelayServer

variable {p : Party} {r r' t t' : Relay} {e : RelayEvent} {events events' : List RelayEvent}
  {ws w : ℕ} {rateLimit burstLimit : ℚ}

/-! ### Relays that look alike -/

/-- A party cannot tell two relays apart. -/
structure Alike (p : Party) (r r' : Relay) : Prop where
  servers : AlikeServers p r.server r'.server
  connections : ∀ ws, p.own ws = true → r.connections.get? ws = r'.connections.get? ws
  log : ∀ signing, p.keys signing.publicKey = true → (signing ∈ r.log ↔ signing ∈ r'.log)

theorem alike_equivalence (p : Party) : Equivalence (Alike p) where
  refl r := ⟨.refl p r.server, fun _ _ => rfl, fun _ _ => Iff.rfl⟩
  symm alike := ⟨alike.servers.symm, fun ws own => (alike.connections ws own).symm,
    fun signing own => (alike.log signing own).symm⟩
  trans alike alike' := ⟨alike.servers.trans alike'.servers,
    fun ws own => (alike.connections ws own).trans (alike'.connections ws own),
    fun signing own => (alike.log signing own).trans (alike'.log signing own)⟩

theorem Alike.suspend (alike : Alike p r r') (ws : ℕ) (task : HandlerTask) :
    Alike p (r.suspend ws task) (r'.suspend ws task) := by
  refine ⟨?_, ?_, ?_⟩
  · rw [server_suspend, server_suspend]
    exact alike.servers
  · intro w own
    rw [get?_suspend, get?_suspend]
    split_ifs with same
    · rw [alike.connections ws (same ▸ own)]
    · exact alike.connections w own
  · rw [log_suspend, log_suspend]
    exact alike.log

theorem Alike.lose (alike : Alike p r r') (ws : ℕ) : Alike p (r.lose ws) (r'.lose ws) := by
  refine ⟨?_, ?_, ?_⟩
  · rw [lose_eq r, lose_eq r']
    exact alike.servers
  · intro w own
    rw [get?_lose, get?_lose]
    split_ifs with same
    · rw [alike.connections ws (same ▸ own)]
    · exact alike.connections w own
  · rw [lose_eq r, lose_eq r']
    exact alike.log

/-- A handler goes on, and sends to own connections only. -/
theorem Alike.perform (alike : Alike p r r') (ws : ℕ) {action : Action}
    (own : ∀ purpose target frame, action = .send purpose target frame → p.own target = true) :
    Alike p (r.perform ws action) (r'.perform ws action) := by
  cases action with
  | receive => exact alike.suspend ws _
  | send purpose target frame =>
    have opened : r.isOpen target = r'.isOpen target := by
      rw [isOpen, isOpen, alike.connections target (own purpose target frame rfl)]
    have suspended := alike.suspend ws (.sending purpose target (r'.isOpen target))
    rw [Relay.perform, Relay.perform, opened]
    exact ⟨suspended.servers, suspended.connections, suspended.log⟩
  | close leaving => exact (alike.lose ws).suspend ws _

theorem Alike.exit (alike : Alike p r r') (ws : ℕ) : Alike p (r.exit ws) (r'.exit ws) := by
  have gone : Alike p { r with server := r.server.disconnect ws }
      { r' with server := r'.server.disconnect ws } :=
    ⟨alike.servers.disconnect ws, alike.connections, alike.log⟩
  exact gone.suspend ws .exited

/-- A message on which both servers act alike, sending to own connections only. -/
theorem Alike.receive (alike : Alike p r r') (ws : ℕ) (ip : String) (m : Message)
    (readings : Readings) (entropy : Entropy)
    (handled : AlikeServers p (r.server.handleMessage r.log.verify ws ip m readings entropy.hex).1
        (r'.server.handleMessage r'.log.verify ws ip m readings entropy.hex).1 ∧
      (r.server.handleMessage r.log.verify ws ip m readings entropy.hex).2 =
        (r'.server.handleMessage r'.log.verify ws ip m readings entropy.hex).2)
    (own : ∀ purpose target frame,
      (r.server.handleMessage r.log.verify ws ip m readings entropy.hex).2 =
        some (.send purpose target frame) → p.own target = true) :
    Alike p (r.receive ws ip m readings entropy) (r'.receive ws ip m readings entropy) := by
  rw [Relay.receive, Relay.receive]
  generalize r.server.handleMessage r.log.verify ws ip m readings entropy.hex =
    result at handled own ⊢
  generalize r'.server.handleMessage r'.log.verify ws ip m readings entropy.hex =
    result' at handled ⊢
  obtain ⟨s, action⟩ := result
  obtain ⟨s', action'⟩ := result'
  obtain ⟨servers, actions⟩ := handled
  obtain rfl : action = action' := actions
  have later : Alike p { r with server := s, clock := readings.stamp }
      { r' with server := s', clock := readings.stamp } := ⟨servers, alike.connections, alike.log⟩
  -- Both relays go on with the same action.
  cases action with
  | none => exact later.exit ws
  | some action =>
    refine later.perform ws ?_
    intro purpose target frame same
    exact own purpose target frame (congrArg some same)

/-- A send of a challenge or a confirmation of the agent returns or raises. -/
theorem Alike.resume (alike : Alike p r r') (ws : ℕ) {purpose : Purpose} (target : ℕ)
    (outcome : SendOutcome) (own : purpose = .challenge p.agent ∨ purpose = .confirm p.agent) :
    Alike p (r.resume ws purpose target outcome) (r'.resume ws purpose target outcome) := by
  have resumed := alike.servers.resumeSend outcome own
  rw [Relay.resume, Relay.resume]
  generalize r.server.resumeSend outcome purpose = result at resumed ⊢
  generalize r'.server.resumeSend outcome purpose = result' at resumed ⊢
  obtain ⟨s, action⟩ := result
  obtain ⟨s', action'⟩ := result'
  obtain ⟨servers, rfl, rfl⟩ : AlikeServers p s s' ∧ action = .receive ∧ action' = .receive :=
    resumed
  have later (failures failures' : List (Key × ℕ)) :
      Alike p { r with server := s, failures := failures }
        { r' with server := s', failures := failures' } := ⟨servers, alike.connections, alike.log⟩
  exact (later _ _).suspend ws .receiving

theorem get?_perform_of_ne (r : Relay) (action : Action) (other : w ≠ ws) :
    (r.perform ws action).connections.get? w = r.connections.get? w := by
  cases action with
  | receive | send => exact (get?_suspend r ws w _).trans (if_neg other)
  | close leaving => rw [perform, get?_suspend, if_neg other, get?_lose, if_neg other]

theorem get?_exit_of_ne (r : Relay) (other : w ≠ ws) :
    (r.exit ws).connections.get? w = r.connections.get? w :=
  (get?_suspend _ ws w _).trans (if_neg other)

/-- A step changes no connection and no token bucket but those of the connection it
takes place on, and never the limits. -/
theorem frame_of_next (step : r.next e = some t) :
    (t.server.rateLimit = r.server.rateLimit ∧ t.server.burstLimit = r.server.burstLimit) ∧
      ∀ w, e.connection? ≠ some w → t.connections.get? w = r.connections.get? w ∧
        t.server.rateLimiters.get? w = r.server.rateLimiters.get? w := by
  -- The limits and the buckets are part of the service, which only a frame charges.
  have fields {s s' : ADNSRelayServer} (same : s.service = s'.service) :
      (s.rateLimit = s'.rateLimit ∧ s.burstLimit = s'.burstLimit) ∧
        s.rateLimiters = s'.rateLimiters :=
    ⟨⟨congrArg Prod.fst same, congrArg (fun x => x.2.1) same⟩, congrArg (fun x => x.2.2) same⟩
  have differ {ws w : ℕ} (elsewhere : some ws ≠ some w) : w ≠ ws := fun same =>
    elsewhere (congrArg some same.symm)
  cases e with
  | connect ws ip now =>
    obtain ⟨-, same⟩ := Option.ite_none_right_eq_some.mp step
    cases same
    exact ⟨⟨rfl, rfl⟩, fun w elsewhere => ⟨Dict.get?_set_of_ne (differ elsewhere),
      Dict.get?_set_of_ne (differ elsewhere)⟩⟩
  | message ws m readings entropy =>
    obtain ⟨ip, isOpen, -, -, -, rfl⟩ := next_message step
    have service := r.server.service_handleMessage r.log.verify ws ip m readings entropy.hex
    rw [receive]
    generalize r.server.handleMessage r.log.verify ws ip m readings entropy.hex =
      result at service ⊢
    obtain ⟨s, action⟩ := result
    rcases service with ⟨-, raises⟩ | ⟨bucket, taken, -, service, acts⟩
    · cases raises
      refine ⟨by rw [server_exit]; exact ⟨rfl, rfl⟩, ?_⟩
      intro w elsewhere
      refine ⟨get?_exit_of_ne _ (differ elsewhere), ?_⟩
      rw [server_exit]
      exact Dict.get?_erase_of_ne (differ elsewhere)
    · obtain rfl : action = some taken := acts
      obtain ⟨limits, buckets⟩ := fields service
      refine ⟨by rw [server_perform]; exact limits, ?_⟩
      intro w elsewhere
      refine ⟨get?_perform_of_ne _ taken (differ elsewhere), ?_⟩
      rw [server_perform, buckets]
      exact Dict.get?_set_of_ne (differ elsewhere)
  | sent ws outcome =>
    obtain ⟨purpose, target, transmitted, -, -, rfl⟩ := next_sent step
    obtain ⟨limits, buckets⟩ := fields (r.server.service_resumeSend outcome purpose)
    refine ⟨by rw [resume, server_perform]; exact limits, ?_⟩
    intro w elsewhere
    rw [resume, server_perform, buckets]
    exact ⟨get?_perform_of_ne _ _ (differ elsewhere), rfl⟩
  | closed ws =>
    rcases next_closed step with ⟨-, rfl⟩ | ⟨-, rfl⟩
    · refine ⟨by rw [server_exit]; exact ⟨rfl, rfl⟩, ?_⟩
      intro w elsewhere
      rw [server_exit]
      exact ⟨get?_exit_of_ne _ (differ elsewhere), Dict.get?_erase_of_ne (differ elsewhere)⟩
    · refine ⟨by rw [server_suspend]; exact ⟨rfl, rfl⟩, ?_⟩
      intro w elsewhere
      rw [server_suspend]
      exact ⟨(get?_suspend r ws w _).trans (if_neg (differ elsewhere)), rfl⟩
  | lose ws =>
    obtain ⟨-, same⟩ := Option.ite_none_right_eq_some.mp step
    cases same
    rw [lose_eq]
    refine ⟨⟨rfl, rfl⟩, fun w elsewhere => ⟨?_, rfl⟩⟩
    exact (get?_lose r ws w).trans (if_neg (differ elsewhere))
  | finish ws =>
    obtain ⟨ip, -, rfl⟩ := next_finish step
    refine ⟨by rw [server_exit]; exact ⟨rfl, rfl⟩, ?_⟩
    intro w elsewhere
    rw [server_exit]
    exact ⟨get?_exit_of_ne _ (differ elsewhere), Dict.get?_erase_of_ne (differ elsewhere)⟩
  | sign signing =>
    cases step
    exact ⟨⟨rfl, rfl⟩, fun w _ => ⟨rfl, rfl⟩⟩

end Relay

end AgentTelepathy
