import AgentTelepathy.Relay.Server

/-!
# What the server does with a message

One inversion lemma for each function of the server. A frame that names an agent
answers the pending challenge of that agent, or requests a challenge because the
connection does not own the agent's entry, or is routed; any other frame changes
nothing.
-/

namespace AgentTelepathy

open Foundation

/-- A frame names an agent: header, intent and sender are present, and the sender
is truthy and can be a key. -/
structure Names (data header intent senderId : Json) (id : Key) : Prop where
  opened : openHeader data = some (header, intent, senderId)
  truthy : senderId.truthy = true
  key : senderId.key? = some id

/-- Header, intent, sender and agent of a frame that names one. -/
def named? (data : Json) : Option (Json × Json × Json × Key) :=
  (openHeader data).bind fun (header, intent, senderId) =>
    if senderId.truthy then senderId.key?.map fun id => (header, intent, senderId, id) else none

theorem named?_eq_some_iff {data header intent senderId : Json} {id : Key} :
    named? data = some (header, intent, senderId, id) ↔ Names data header intent senderId id := by
  constructor
  · intro named
    obtain ⟨⟨h, i, x⟩, opened, rest⟩ := Option.bind_eq_some_iff.mp named
    obtain ⟨truthy, rest⟩ := Option.ite_none_right_eq_some.mp rest
    obtain ⟨k, key, same⟩ := Option.map_eq_some_iff.mp rest
    obtain ⟨rfl, rfl, rfl, rfl⟩ : h = header ∧ i = intent ∧ x = senderId ∧ k = id := by
      simpa using same
    exact ⟨opened, truthy, key⟩
  · rintro ⟨opened, truthy, key⟩
    simp [named?, opened, truthy, key]

theorem openHeader_fields {data header intent senderId : Json}
    (opened : openHeader data = some (header, intent, senderId)) :
    intent = (header.get? "intent").getD .null ∧ senderId = (header.get? "sender_id").getD .null ∧
      (∃ members, data = .obj members) ∧ ∃ members, header = .obj members := by
  obtain ⟨h, found, rest⟩ := Option.bind_eq_some_iff.mp opened
  obtain ⟨i, ofIntent, rest⟩ := Option.bind_eq_some_iff.mp rest
  obtain ⟨x, ofSender, same⟩ := Option.map_eq_some_iff.mp rest
  obtain ⟨rfl, rfl, rfl⟩ : h = header ∧ i = intent ∧ x = senderId := by simpa using same
  exact ⟨(Json.getD_eq ofIntent).1, (Json.getD_eq ofSender).1, (Json.getD_eq found).2,
    (Json.getD_eq ofIntent).2⟩

/-- A frame names one agent. -/
theorem Names.unique {data header intent senderId header' intent' senderId' : Json} {id id' : Key}
    (names : Names data header intent senderId id)
    (names' : Names data header' intent' senderId' id') :
    header = header' ∧ intent = intent' ∧ senderId = senderId' ∧ id = id' := by
  have same := names.opened.symm.trans names'.opened
  obtain ⟨rfl, rfl, rfl⟩ : header = header' ∧ intent = intent' ∧ senderId = senderId' := by
    simpa using same
  exact ⟨rfl, rfl, rfl, Option.some.inj (names.key.symm.trans names'.key)⟩

namespace ADNSRelayServer

variable {s t : ADNSRelayServer} {verify : Verifier} {ws : ℕ} {ip : String} {data : Json}
  {m : Message} {r : Readings} {nonce : String} {id : Key} {routing : Routing} {stale : List Key}

/-- A connection that is challenged when it names an agent: the agent is neither
registered nor pending, or registered on another connection. -/
def Unowned (s : ADNSRelayServer) (id : Key) (ws : ℕ) : Prop :=
  match s.registry.get? id with
  | none => s.pendingChallenges.get? id = none
  | some registration => registration.ws ≠ ws

/-- A frame that names an agent is a response, a request for a challenge, or routed. -/
theorem processData_of_names {header intent senderId : Json}
    (names : Names data header intent senderId id) :
    s.processData verify ws ip data r nonce =
      if intent = challengeResponse then
        s.handleChallengeResponse verify id senderId data ws r.consume
      else
        match s.registry.get? id with
        | none =>
          if s.pendingChallenges.contains id then (s, .receive)
          else s.initiateChallenge id senderId data ws ip r nonce
        | some registration =>
          if registration.ws ≠ ws then s.initiateChallenge id senderId data ws ip r nonce
          else s.route id data header ws := by
  rw [processData, names.opened]
  dsimp only
  rw [if_pos names.truthy]
  have key := names.key
  generalize senderId.key? = found at key ⊢
  subst key
  rfl

theorem processData_of_response {header senderId : Json}
    (names : Names data header challengeResponse senderId id) :
    s.processData verify ws ip data r nonce =
      s.handleChallengeResponse verify id senderId data ws r.consume := by
  rw [processData_of_names names, if_pos rfl]

theorem processData_of_unowned {header intent senderId : Json}
    (names : Names data header intent senderId id) (request : intent ≠ challengeResponse)
    (unowned : s.Unowned id ws) :
    s.processData verify ws ip data r nonce =
      s.initiateChallenge id senderId data ws ip r nonce := by
  rw [processData_of_names names, if_neg request]
  unfold Unowned at unowned
  cases registered : s.registry.get? id with
  | none =>
    rw [registered] at unowned
    have absent := Dict.contains_eq_false_iff.mpr unowned
    dsimp only
    rw [absent, if_neg Bool.false_ne_true]
  | some registration =>
    rw [registered] at unowned
    dsimp only at unowned ⊢
    rw [if_pos unowned]

instance (s : ADNSRelayServer) (id : Key) (ws : ℕ) : Decidable (s.Unowned id ws) := by
  unfold Unowned
  split <;> infer_instance

theorem processData_cases (s : ADNSRelayServer) (verify : Verifier) (ws : ℕ) (ip : String)
    (data : Json) (r : Readings) (nonce : String) :
    s.processData verify ws ip data r nonce = (s, .receive) ∨
    (∃ header senderId id, Names data header challengeResponse senderId id ∧
      s.processData verify ws ip data r nonce =
        s.handleChallengeResponse verify id senderId data ws r.consume) ∨
    (∃ header intent senderId id, Names data header intent senderId id ∧
      intent ≠ challengeResponse ∧ s.Unowned id ws ∧
      s.processData verify ws ip data r nonce =
        s.initiateChallenge id senderId data ws ip r nonce) ∨
    ∃ header intent senderId id registration, Names data header intent senderId id ∧
      intent ≠ challengeResponse ∧ s.registry.get? id = some registration ∧
      registration.ws = ws ∧ s.processData verify ws ip data r nonce =
        s.route id data header ws := by
  -- The branches of `_process_data` in the order of the source.
  unfold processData
  split
  · exact .inl rfl
  · rename_i header intent senderId opened
    by_cases truthy : senderId.truthy = true
    · rw [if_pos truthy]
      split
      · exact .inl rfl
      · rename_i id key
        have names : Names data header intent senderId id := ⟨opened, truthy, key⟩
        by_cases response : intent = challengeResponse
        · subst response
          rw [if_pos rfl]
          exact .inr (.inl ⟨header, senderId, id, names, rfl⟩)
        · rw [if_neg response]
          split
          · rename_i absent
            split_ifs with pending
            · exact .inl rfl
            · have none : s.pendingChallenges.get? id = none :=
                Dict.contains_eq_false_iff.mp (Bool.eq_false_of_not_eq_true pending)
              refine .inr (.inr (.inl ⟨header, intent, senderId, id, names, response, ?_, rfl⟩))
              rw [Unowned, absent]
              exact none
          · rename_i registration registered
            split_ifs with other
            · refine .inr (.inr (.inl ⟨header, intent, senderId, id, names, response, ?_, rfl⟩))
              rw [Unowned, registered]
              exact other
            · exact .inr (.inr (.inr ⟨header, intent, senderId, id, registration, names, response,
                registered, not_not.mp other, rfl⟩))
    · rw [if_neg truthy]
      exact .inl rfl

/-- A response changes something only when it reaches a pending challenge. -/
theorem handleChallengeResponse_cases (s : ADNSRelayServer) (verify : Verifier) (id : Key)
    (senderId data : Json) (ws : ℕ) (now : ℚ) :
    s.handleChallengeResponse verify id senderId data ws now = (s, .receive) ∧
      (s.pendingChallenges.get? id = none ∨ payloadContent data = none) ∨
    ∃ challenge content, s.pendingChallenges.get? id = some challenge ∧
      payloadContent data = some content ∧
      s.handleChallengeResponse verify id senderId data ws now =
        (s.settle id challenge (judge verify challenge content) ws now,
          match judge verify challenge content with
          | .empty => .receive
          | .verified _ => .send (.confirm id) ws (registeredFrame senderId)
          | .failed => .close false) := by
  unfold handleChallengeResponse
  split
  · rename_i absent
    exact .inl ⟨rfl, .inl absent⟩
  · rename_i challenge pending
    split
    · rename_i raises
      exact .inl ⟨rfl, .inr raises⟩
    · rename_i content found
      exact .inr ⟨challenge, content, pending, found, rfl⟩

/-- The sweep and the limit, which come before the payload of a handshake is looked at. -/
def sweep (s : ADNSRelayServer) (ip : String) (r : Readings) : ADNSRelayServer :=
  ((s.cleanupStaleChallenges r.cleanup).admitChallenge ip r.limit).1

/-- Whether an address is below its limit of challenges. -/
def Admits (s : ADNSRelayServer) (ip : String) (now : ℚ) : Prop :=
  (s.recentChallenges ip now).length < 10

instance (s : ADNSRelayServer) (ip : String) (now : ℚ) : Decidable (s.Admits ip now) :=
  inferInstanceAs (Decidable (_ < _))

theorem admitChallenge_eq (s : ADNSRelayServer) (ip : String) (now : ℚ) :
    ∃ limits, (s.admitChallenge ip now).1 = { s with challengeRateLimits := limits } := by
  unfold admitChallenge
  dsimp only
  split_ifs <;> exact ⟨_, rfl⟩

theorem admitChallenge_snd (s : ADNSRelayServer) (ip : String) (now : ℚ) :
    (s.admitChallenge ip now).2 = true ↔ s.Admits ip now := by
  unfold admitChallenge Admits
  dsimp only
  split_ifs with full
  · simpa using full
  · simpa using full

theorem sweep_eq (s : ADNSRelayServer) (ip : String) (r : Readings) :
    ∃ limits, s.sweep ip r =
      { s.cleanupStaleChallenges r.cleanup with challengeRateLimits := limits } :=
  admitChallenge_eq _ ip r.limit

theorem initiateChallenge_cases (s : ADNSRelayServer) (id : Key) (senderId data : Json) (ws : ℕ)
    (ip : String) (r : Readings) (nonce : String) :
    s.initiateChallenge id senderId data ws ip r nonce = (s.sweep ip r, .receive) ∧
      (¬ s.Admits ip r.limit ∨ claimedKey? data = none) ∨
    ∃ publicKey, s.Admits ip r.limit ∧ claimedKey? data = some publicKey ∧
      s.initiateChallenge id senderId data ws ip r nonce =
        ((s.sweep ip r).issue id ⟨ws, nonce, publicKey, r.stamp⟩,
          .send (.challenge id) ws (challengeFrame senderId nonce)) := by
  have same : (s.cleanupStaleChallenges r.cleanup).Admits ip r.limit ↔ s.Admits ip r.limit :=
    Iff.rfl
  unfold initiateChallenge
  split
  · rename_i swept refused
    have full : ¬ s.Admits ip r.limit := by
      rw [← same, ← admitChallenge_snd, refused]
      exact Bool.false_ne_true
    exact .inl ⟨by rw [sweep, refused], .inl full⟩
  · rename_i swept admitted
    have below : s.Admits ip r.limit := by
      rw [← same, ← admitChallenge_snd, admitted]
    split
    · rename_i unclaimed
      exact .inl ⟨by rw [sweep, admitted], .inr unclaimed⟩
    · rename_i publicKey claimed
      exact .inr ⟨publicKey, below, claimed, by rw [sweep, admitted]⟩

/-- A fan-out awaits the next peer other than the sender, or ends. -/
theorem fanOut_cases (s : ADNSRelayServer) (routing : Routing) (stale : List Key)
    (peers : List (Key × ℕ)) :
    s.fanOut routing stale peers = ({ s with registry := deregister stale s.registry }, .receive) ∨
    ∃ peer ws rest, (peer, ws) :: rest <:+ peers ∧ peer.differs routing.senderId = true ∧
      s.fanOut routing stale peers =
        (s, .send (.broadcast routing peer rest stale) ws routing.message) := by
  induction peers with
  | nil => exact .inl rfl
  | cons head peers ih =>
    obtain ⟨peer, ws⟩ := head
    by_cases other : peer.differs routing.senderId = true
    · exact .inr ⟨peer, ws, peers, List.suffix_rfl, other, by rw [fanOut, if_pos other]⟩
    · rw [fanOut, if_neg other]
      rcases ih with ended | ⟨peer', ws', rest, later, differs, awaits⟩
      · exact .inl ended
      · exact .inr ⟨peer', ws', rest, later.trans (List.suffix_cons _ _), differs, awaits⟩

theorem route_cases (s : ADNSRelayServer) (id : Key) (data header : Json) (ws : ℕ) :
    s.route id data header ws = (s, .receive) ∨
    ∃ message, forwarded? data header = some message ∧
      let routing : Routing := ⟨ws, id, data, message⟩
      ((∃ peer ws' rest, (peer, ws') :: rest <:+ s.registry.items.map (fun e => (e.1, e.2.ws)) ∧
          peer.differs id = true ∧
          s.route id data header ws = (s, .send (.broadcast routing peer rest []) ws' message)) ∨
        ∃ target registration, s.registry.get? target = some registration ∧
          target.differs id = true ∧
          s.route id data header ws =
            (s, .send (.forward routing target) registration.ws message)) := by
  unfold route
  split
  · exact .inl rfl
  · rename_i message forwards
    dsimp only
    -- A broadcast goes to the first peer that differs, and any other message to its receiver.
    split_ifs with everyone truthy
    · rcases s.fanOut_cases ⟨ws, id, data, message⟩ []
          (s.registry.items.map fun e => (e.1, e.2.ws)) with ended |
            ⟨peer, ws', rest, later, differs, awaits⟩
      · exact .inl ended
      · exact .inr ⟨message, forwards, .inl ⟨peer, ws', rest, later, differs, awaits⟩⟩
    · split
      · exact .inl rfl
      · rename_i target key
        split
        · exact .inl rfl
        · rename_i registration registered
          split_ifs with differs
          · exact .inr ⟨message, forwards, .inr ⟨target, registration, registered, differs, rfl⟩⟩
          · exact .inl rfl
    · exact .inl rfl

theorem get?_of_get?_deregister {stale : List Key} {registry : Dict Key Registration} {k : Key}
    {v : Registration} (left : (deregister stale registry).get? k = some v) :
    registry.get? k = some v := by
  induction stale generalizing registry with
  | nil => exact left
  | cons id stale ih =>
    rw [deregister] at left
    split_ifs at left with present
    · exact Dict.get?_of_get?_erase (ih left)
    · exact left

/-- The server once the token bucket of a connection has been consulted. -/
def charge (s : ADNSRelayServer) (ws : ℕ) (bucket : TokenBucket) : ADNSRelayServer :=
  { s with rateLimiters := s.rateLimiters.set ws bucket }

/-- A message passes the token bucket of its connection and the limit of its size. -/
def Accepts (s : ADNSRelayServer) (ws : ℕ) (m : Message) (r : Readings) : Prop :=
  (∃ bucket ∈ s.rateLimiters.get? ws, (bucket.consume r.consume).2 = true) ∧ m.length ≤ 1048576

instance (s : ADNSRelayServer) (ws : ℕ) (m : Message) (r : Readings) :
    Decidable (s.Accepts ws m r) := inferInstanceAs (Decidable (_ ∧ _))

/-- The JSON of a message that passes the limits. -/
def read? (s : ADNSRelayServer) (ws : ℕ) (m : Message) (r : Readings) : Option Json :=
  if s.Accepts ws m r then m.data else none

/-- The agent whose pending challenge a frame answers, that challenge, and the answer. -/
def answered? (s : ADNSRelayServer) (data : Json) : Option (Key × Challenge × Json) :=
  (named? data).bind fun (_, intent, _, id) =>
    if intent = challengeResponse then
      (s.pendingChallenges.get? id).bind fun challenge =>
        (payloadContent data).map fun content => (id, challenge, content)
    else none

/-- The agent for which a frame obtains a challenge, and the key it claims. -/
def requested? (s : ADNSRelayServer) (ws : ℕ) (ip : String) (now : ℚ) (data : Json) :
    Option (Key × String) :=
  (named? data).bind fun (_, intent, _, id) =>
    if intent ≠ challengeResponse ∧ s.Unowned id ws ∧ s.Admits ip now then
      (claimedKey? data).map fun publicKey => (id, publicKey)
    else none

theorem answered?_eq_some_iff {challenge : Challenge} {content : Json} :
    s.answered? data = some (id, challenge, content) ↔
      (∃ header senderId, Names data header challengeResponse senderId id) ∧
        s.pendingChallenges.get? id = some challenge ∧ payloadContent data = some content := by
  constructor
  · intro answered
    obtain ⟨⟨header, intent, senderId, k⟩, named, rest⟩ := Option.bind_eq_some_iff.mp answered
    obtain ⟨rfl, rest⟩ := Option.ite_none_right_eq_some.mp rest
    obtain ⟨c, pending, rest⟩ := Option.bind_eq_some_iff.mp rest
    obtain ⟨w, found, same⟩ := Option.map_eq_some_iff.mp rest
    obtain ⟨rfl, rfl, rfl⟩ : k = id ∧ c = challenge ∧ w = content := by simpa using same
    exact ⟨⟨header, senderId, named?_eq_some_iff.mp named⟩, pending, found⟩
  · rintro ⟨⟨header, senderId, names⟩, pending, found⟩
    simp [answered?, named?_eq_some_iff.mpr names, pending, found]

theorem requested?_eq_some_iff {now : ℚ} {publicKey : String} :
    s.requested? ws ip now data = some (id, publicKey) ↔
      (∃ header intent senderId, Names data header intent senderId id ∧
        intent ≠ challengeResponse) ∧
        s.Unowned id ws ∧ s.Admits ip now ∧ claimedKey? data = some publicKey := by
  constructor
  · intro requested
    obtain ⟨⟨header, intent, senderId, k⟩, named, rest⟩ := Option.bind_eq_some_iff.mp requested
    obtain ⟨⟨request, unowned, admits⟩, rest⟩ := Option.ite_none_right_eq_some.mp rest
    obtain ⟨key, claimed, same⟩ := Option.map_eq_some_iff.mp rest
    obtain ⟨rfl, rfl⟩ : k = id ∧ key = publicKey := by simpa using same
    exact ⟨⟨header, intent, senderId, named?_eq_some_iff.mp named, request⟩, unowned, admits,
      claimed⟩
  · rintro ⟨⟨header, intent, senderId, names, request⟩, unowned, admits, claimed⟩
    simp [requested?, named?_eq_some_iff.mpr names, request, unowned, admits, claimed]

theorem read?_eq_some_iff : s.read? ws m r = some data ↔ s.Accepts ws m r ∧ m.data = some data :=
  Option.ite_none_right_eq_some

/-- What handling a message amounts to. -/
inductive Handled (s : ADNSRelayServer) (verify : Verifier) (ws : ℕ) (ip : String) (m : Message)
    (r : Readings) (nonce : String) : ADNSRelayServer → Option Action → Prop
  | crashed (absent : s.rateLimiters.get? ws = none) : Handled s verify ws ip m r nonce s none
  | ignored (bucket : TokenBucket) (found : s.rateLimiters.get? ws = some bucket) (action : Action)
      (plain : action = .receive ∨ action = .close true) :
      Handled s verify ws ip m r nonce (s.charge ws (bucket.consume r.consume).1) (some action)
  | parsed (bucket : TokenBucket) (found : s.rateLimiters.get? ws = some bucket)
      (paid : (bucket.consume r.consume).2 = true) (small : m.length ≤ 1048576) (data : Json)
      (json : m.data = some data) :
      Handled s verify ws ip m r nonce
        ((s.charge ws (bucket.consume r.consume).1).processData verify ws ip data r nonce).1
        (some ((s.charge ws (bucket.consume r.consume).1).processData verify ws ip data r nonce).2)

/-- An accepted message with JSON is processed. -/
theorem handleMessage_of_accepts (accepts : s.Accepts ws m r) (json : m.data = some data) :
    ∃ bucket, s.handleMessage verify ws ip m r nonce =
      (((s.charge ws bucket).processData verify ws ip data r nonce).1,
        some ((s.charge ws bucket).processData verify ws ip data r nonce).2) := by
  obtain ⟨⟨bucket, found, paid⟩, small⟩ := accepts
  refine ⟨(bucket.consume r.consume).1, ?_⟩
  rw [handleMessage, found]
  dsimp only
  rw [if_pos paid, if_neg (not_lt.mpr small), json]
  rfl

theorem handled (s : ADNSRelayServer) (verify : Verifier) (ws : ℕ) (ip : String) (m : Message)
    (r : Readings) (nonce : String) :
    Handled s verify ws ip m r nonce (s.handleMessage verify ws ip m r nonce).1
      (s.handleMessage verify ws ip m r nonce).2 := by
  unfold handleMessage
  split
  · rename_i absent
    exact .crashed absent
  · rename_i bucket found
    dsimp only
    split_ifs with paid large
    · exact .ignored bucket found _ (.inr rfl)
    · split
      · exact .ignored bucket found _ (.inl rfl)
      · rename_i data json
        exact .parsed bucket found paid (not_lt.mp large) data json
    · exact .ignored bucket found _ (.inr rfl)

end ADNSRelayServer

end AgentTelepathy
