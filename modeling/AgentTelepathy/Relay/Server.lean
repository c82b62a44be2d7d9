import AgentTelepathy.Foundation.JsonRead
import AgentTelepathy.Foundation.Scalar
import AgentTelepathy.Security.Crypto

/-!
# The relay server

`ADNSRelayServer` between two awaits. Frames are JSON values of any shape; what
raises an exception inside the message loop is logged and has no further effect.
A handler that has to await says so with an action: a send, with what the
handler goes on to do, or the closing of its own connection. The challenges that
were issued and the answers that were judged are recorded.
-/

namespace AgentTelepathy

open Foundation

/-- `TokenBucket`. -/
structure TokenBucket where
  rate : ℚ
  burst : ℚ
  tokens : ℚ
  lastRefill : ℚ
deriving DecidableEq

namespace TokenBucket

/-- A full bucket. -/
def init (rate burst now : ℚ) : TokenBucket := ⟨rate, burst, burst, now⟩

/-- `consume()`. -/
def consume (b : TokenBucket) (now : ℚ) : TokenBucket × Bool :=
  let tokens := min b.burst (b.tokens + (now - b.lastRefill) * b.rate)
  if 1 ≤ tokens then (⟨b.rate, b.burst, tokens - 1, now⟩, true)
  else (⟨b.rate, b.burst, tokens, now⟩, false)

end TokenBucket

/-- An entry of the verified registry. Connections are named by numbers. -/
structure Registration where
  ws : ℕ
  publicKey : String
deriving DecidableEq

/-- A pending challenge. -/
structure Challenge where
  ws : ℕ
  nonce : String
  publicKey : String
  timestamp : ℚ
deriving DecidableEq

/-- How a response to a challenge was judged. -/
inductive Verdict
  | empty
  | verified (signature : String)
  | failed
deriving DecidableEq

/-- Whether a response was verified. -/
def Verdict.isVerified : Verdict → Bool
  | .verified _ => true
  | _ => false

theorem Verdict.eq_of_isVerified {verdict : Verdict} (verified : verdict.isVerified = true) :
    ∃ signature, verdict = .verified signature := by
  cases verdict with
  | verified signature => exact ⟨signature, rfl⟩
  | empty | failed => cases verified

/-- A judged response: the challenge it answers, the connection it came from, the
time, and the entry that was registered for the agent before. -/
structure Answer where
  agentId : Key
  challenge : Challenge
  verdict : Verdict
  ws : ℕ
  time : ℚ
  previous : Option Registration
deriving DecidableEq

/-- The forwarding of a frame: the connection it arrived on, its sender, the frame
and what is sent. -/
structure Routing where
  origin : ℕ
  senderId : Key
  frame : Json
  message : Json
deriving DecidableEq

/-- What a handler sends for, with the local variables it needs afterwards. -/
inductive Purpose
  | challenge (senderId : Key)
  | confirm (senderId : Key)
  | forward (routing : Routing) (target : Key)
  | broadcast (routing : Routing) (peer : Key) (rest : List (Key × ℕ)) (stale : List Key)
deriving DecidableEq

/-- What a handler does next: wait for a message, await a send, or await the
closing of its own connection, after which it may leave the loop. -/
inductive Action
  | receive
  | send (purpose : Purpose) (ws : ℕ) (frame : Json)
  | close (leaving : Bool)
deriving DecidableEq

/-- How a send ended: it returned, raised `ConnectionClosed`, or raised otherwise. -/
inductive SendOutcome
  | ok
  | closed
  | raised
deriving DecidableEq

/-- A received message: its length, and what `json.loads` makes of it unless it raises. -/
structure Message where
  length : ℕ
  data : Option Json

/-- The readings of the monotonic clock while a message is processed: by the token
bucket, by the sweep, by the limit of challenges and for the new challenge. -/
structure Readings where
  consume : ℚ
  cleanup : ℚ
  limit : ℚ
  stamp : ℚ

/-- Readings do not go back. -/
def Readings.Ordered (r : Readings) : Prop :=
  r.consume ≤ r.cleanup ∧ r.cleanup ≤ r.limit ∧ r.limit ≤ r.stamp

instance (r : Readings) : Decidable r.Ordered := by
  unfold Readings.Ordered
  infer_instance

/-- `os.urandom(32)`. -/
abbrev Entropy := { bytes : Bytes // bytes.length = 32 }

/-- `os.urandom(32).hex()`. -/
def Entropy.hex (entropy : Entropy) : String :=
  String.ofList (entropy.1.flatMap fun b => FixedWidth.write 16 2 b.toNat)

/-- The relay server. -/
structure ADNSRelayServer where
  rateLimit : ℚ
  burstLimit : ℚ
  registry : Dict Key Registration
  pendingChallenges : Dict Key Challenge
  rateLimiters : Dict ℕ TokenBucket
  challengeRateLimits : Dict String (List ℚ)
  issued : List (Key × Challenge)
  answers : List Answer

/-- `BROADCAST_ID`. -/
def broadcastId : String := "00000000-0000-0000-0000-000000000000"

/-- The intent that answers a challenge. -/
def challengeResponse : Json := .str "Challenge_Response"

/-- The frame that asks for a signed nonce. -/
def challengeFrame (senderId : Json) (nonce : String) : Json :=
  .obj [("type", .str "ADNS_CHALLENGE"), ("agent_id", senderId), ("nonce", .str nonce)]

/-- The frame that confirms a registration. -/
def registeredFrame (senderId : Json) : Json :=
  .obj [("type", .str "ADNS_REGISTERED"), ("agent_id", senderId)]

/-- Header, intent and sender of a frame; nothing if looking them up raises. -/
def openHeader (data : Json) : Option (Json × Json × Json) :=
  (data.getD "header" (.obj [])).bind fun header =>
    (header.getD "intent" .null).bind fun intent =>
      (header.getD "sender_id" .null).map fun senderId => (header, intent, senderId)

/-- The content of a frame's payload; nothing if looking it up raises. -/
def payloadContent (data : Json) : Option Json :=
  (data.getD "payload" (.obj [])).bind fun payload => payload.getD "content" (.str "")

/-- The public key that a handshake claims: the base64 text of 32 bytes. -/
def claimedKey? (data : Json) : Option String :=
  match payloadContent data with
  | some (.str content) =>
    match (JsonText.loads content).bind fun identity => identity.getD "public_key" .null with
    | some (.str publicKey) =>
      if publicKey ≠ "" ∧ (Base64.decode false publicKey).map List.length = some 32 then
        some publicKey
      else none
    | _ => none
  | _ => none

/-- What is forwarded: the frame with its ttl decremented; nothing if the ttl is
used up or is not a number. -/
def forwarded? (data header : Json) : Option Json :=
  let ttl := (header.get? "ttl").getD (.int 30)
  match ttl.number? with
  | none => none
  | some x =>
    if x.nonpositive then none
    else ttl.subOne?.map fun ttl => data.setMember "header" (header.setMember "ttl" ttl)

/-- `del registry[id]` for the ids of a list; the first `KeyError` ends it. -/
def deregister : List Key → Dict Key Registration → Dict Key Registration
  | [], registry => registry
  | id :: ids, registry =>
    if registry.contains id then deregister ids (registry.erase id) else registry

namespace ADNSRelayServer

/-- A new server. -/
def init (rateLimit burstLimit : ℚ) : ADNSRelayServer where
  rateLimit := rateLimit
  burstLimit := burstLimit
  registry := Dict.empty
  pendingChallenges := Dict.empty
  rateLimiters := Dict.empty
  challengeRateLimits := Dict.empty
  issued := []
  answers := []

/-! ### Challenges -/

/-- `_cleanup_stale_challenges`. -/
def cleanupStaleChallenges (s : ADNSRelayServer) (now : ℚ) : ADNSRelayServer :=
  { s with pendingChallenges := s.pendingChallenges.filter fun e => ¬ now - e.2.timestamp > 300 }

/-- The challenges of an address that still count. -/
def recentChallenges (s : ADNSRelayServer) (ip : String) (now : ℚ) : List ℚ :=
  ((s.challengeRateLimits.get? ip).getD []).filter fun t => now - t < 60

/-- The limit of challenges for an address: the part of `_initiate_challenge`
before the payload is looked at. -/
def admitChallenge (s : ADNSRelayServer) (ip : String) (now : ℚ) : ADNSRelayServer × Bool :=
  let recent := s.recentChallenges ip now
  if recent.length ≥ 10 then
    ({ s with challengeRateLimits := s.challengeRateLimits.set ip recent }, false)
  else ({ s with challengeRateLimits := s.challengeRateLimits.set ip (recent ++ [now]) }, true)

/-- Store a new challenge. -/
def issue (s : ADNSRelayServer) (id : Key) (challenge : Challenge) : ADNSRelayServer :=
  { s with
    pendingChallenges := s.pendingChallenges.set id challenge
    issued := s.issued ++ [(id, challenge)] }

/-- `_initiate_challenge` up to the send. -/
def initiateChallenge (s : ADNSRelayServer) (id : Key) (senderId data : Json) (ws : ℕ) (ip : String)
    (r : Readings) (nonce : String) : ADNSRelayServer × Action :=
  match (s.cleanupStaleChallenges r.cleanup).admitChallenge ip r.limit with
  | (s, false) => (s, .receive)
  | (s, true) =>
    match claimedKey? data with
    | none => (s, .receive)
    | some publicKey =>
      (s.issue id ⟨ws, nonce, publicKey, r.stamp⟩,
        .send (.challenge id) ws (challengeFrame senderId nonce))

/-- `verify_bytes` for a response of any type. -/
def judge (verify : Verifier) (challenge : Challenge) (signedNonce : Json) : Verdict :=
  if signedNonce.truthy then
    match signedNonce with
    | .str signature =>
      if AgentIdentityManager.verifyBytes verify challenge.publicKey signature
          (utf8 challenge.nonce) then .verified signature
      else .failed
    | _ => .failed
  else .empty

/-- Take a challenge out of the table once its response is judged, and register
the agent if the response verified. -/
def settle (s : ADNSRelayServer) (id : Key) (challenge : Challenge) (verdict : Verdict) (ws : ℕ)
    (now : ℚ) : ADNSRelayServer :=
  { s with
    registry :=
      match verdict with
      | .verified _ => s.registry.set id ⟨ws, challenge.publicKey⟩
      | _ => s.registry
    pendingChallenges := s.pendingChallenges.erase id
    answers := s.answers ++ [⟨id, challenge, verdict, ws, now, s.registry.get? id⟩] }

/-- `_handle_challenge_response` up to its await. -/
def handleChallengeResponse (s : ADNSRelayServer) (verify : Verifier) (id : Key)
    (senderId data : Json) (ws : ℕ) (now : ℚ) : ADNSRelayServer × Action :=
  match s.pendingChallenges.get? id with
  | none => (s, .receive)
  | some challenge =>
    match payloadContent data with
    | none => (s, .receive)
    | some signedNonce =>
      let verdict := judge verify challenge signedNonce
      (s.settle id challenge verdict ws now,
        match verdict with
        | .empty => .receive
        | .verified _ => .send (.confirm id) ws (registeredFrame senderId)
        | .failed => .close false)

/-! ### Routing -/

/-- The fan-out of a broadcast from the next peer on; at its end the peers whose
send raised are deregistered. -/
def fanOut (s : ADNSRelayServer) (routing : Routing) (stale : List Key) :
    List (Key × ℕ) → ADNSRelayServer × Action
  | [] => ({ s with registry := deregister stale s.registry }, .receive)
  | (peer, ws) :: rest =>
    if peer.differs routing.senderId then
      (s, .send (.broadcast routing peer rest stale) ws routing.message)
    else s.fanOut routing stale rest

/-- Routing of a frame from a verified sender, up to the first send. -/
def route (s : ADNSRelayServer) (id : Key) (data header : Json) (ws : ℕ) :
    ADNSRelayServer × Action :=
  match forwarded? data header with
  | none => (s, .receive)
  | some message =>
    let routing : Routing := ⟨ws, id, data, message⟩
    let targetId := (header.get? "receiver_id").getD .null
    if targetId = .str broadcastId then
      s.fanOut routing [] (s.registry.items.map fun e => (e.1, e.2.ws))
    else if targetId.truthy then
      match targetId.key? with
      | none => (s, .receive)
      | some target =>
        match s.registry.get? target with
        | none => (s, .receive)
        | some registration =>
          if target.differs id then (s, .send (.forward routing target) registration.ws message)
          else (s, .receive)
    else (s, .receive)

/-- What a handler does after a send. -/
def resumeSend (s : ADNSRelayServer) (outcome : SendOutcome) : Purpose → ADNSRelayServer × Action
  | .challenge id =>
    if outcome = .ok then (s, .receive)
    else ({ s with pendingChallenges := s.pendingChallenges.erase id }, .receive)
  | .confirm _ => (s, .receive)
  | .forward _ target =>
    if outcome = .closed then ({ s with registry := deregister [target] s.registry }, .receive)
    else (s, .receive)
  | .broadcast routing peer rest stale =>
    s.fanOut routing (if outcome = .ok then stale else stale ++ [peer]) rest

/-! ### Messages -/

/-- The body of the message loop for a parsed message. -/
def processData (s : ADNSRelayServer) (verify : Verifier) (ws : ℕ) (ip : String) (data : Json)
    (r : Readings) (nonce : String) : ADNSRelayServer × Action :=
  match openHeader data with
  | none => (s, .receive)
  | some (header, intent, senderId) =>
    if senderId.truthy then
      match senderId.key? with
      | none => (s, .receive)
      | some id =>
        if intent = challengeResponse then
          s.handleChallengeResponse verify id senderId data ws r.consume
        else
          match s.registry.get? id with
          | none =>
            if s.pendingChallenges.contains id then (s, .receive)
            else s.initiateChallenge id senderId data ws ip r nonce
          | some registration =>
            if registration.ws ≠ ws then s.initiateChallenge id senderId data ws ip r nonce
            else s.route id data header ws
    else (s, .receive)

/-- One message; nothing if the handler's token bucket is missing, which raises. -/
def handleMessage (s : ADNSRelayServer) (verify : Verifier) (ws : ℕ) (ip : String) (m : Message)
    (r : Readings) (nonce : String) : ADNSRelayServer × Option Action :=
  match s.rateLimiters.get? ws with
  | none => (s, none)
  | some bucket =>
    let s := { s with rateLimiters := s.rateLimiters.set ws (bucket.consume r.consume).1 }
    if (bucket.consume r.consume).2 then
      if m.length > 1048576 then (s, some (.close true))
      else
        match m.data with
        | none => (s, some .receive)
        | some data =>
          let (s, action) := s.processData verify ws ip data r nonce
          (s, some action)
    else (s, some (.close true))

/-- The start of `_handle_connection`. -/
def connect (s : ADNSRelayServer) (ws : ℕ) (now : ℚ) : ADNSRelayServer :=
  { s with rateLimiters := s.rateLimiters.set ws (.init s.rateLimit s.burstLimit now) }

/-- The end of `_handle_connection`. -/
def disconnect (s : ADNSRelayServer) (ws : ℕ) : ADNSRelayServer :=
  { s with
    rateLimiters := s.rateLimiters.erase ws
    registry := s.registry.filter fun e => e.2.ws ≠ ws
    pendingChallenges := s.pendingChallenges.filter fun e => e.2.ws ≠ ws }

end ADNSRelayServer

end AgentTelepathy
