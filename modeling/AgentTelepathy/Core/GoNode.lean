import AgentTelepathy.Security.GoIdentity

/-!
# Messages of the Go node

`SendMessage` signs the canonical bytes of a payload; the envelope travels as JSON, and
`readLoop` of the other side drops what it cannot read, replays, and what a check of
the signature refuses. Whatever that check lets pass is dispatched, to the handler of
its intent or to the dead letter queue.
-/

namespace AgentTelepathy.Go

open Foundation GoJson

/-- A `TPCPEnvelope`, by the fields that the node reads or signs. The payload is a
`json.RawMessage`, empty where the frame has none. -/
structure TPCPEnvelope where
  messageId : String
  senderId : String
  intent : String
  payload : Option Document
  signature : String

/-- What `readLoop` of every connection shares. -/
structure TPCPNode where
  peerKeys : Dict String String
  /-- The intents with a handler. -/
  handlers : List String
  seenMessages : Dict String ℤ
  dlq : List TPCPEnvelope

/-! ### Sending -/

/-- Why `SendMessage` sends nothing. -/
inductive SendError where
  | validation (text : String)
  | unknownPeer
  | marshal
  | canonical

/-- `SendMessage`, for a payload whose `Validate` gives the error, if it has one. Nothing
is signed without a private key. -/
def sendMessage (ed : Ed25519) (agentId : String) (privKey : Option ed.PrivateKey)
    (connected : Bool) (messageId intent : String) (payload : GoValue) (validate : Option String) :
    Except SendError TPCPEnvelope :=
  match validate with
  | some text => .error (.validation text)
  | none =>
    if !connected then .error .unknownPeer
    else
      match marshalValue payload with
      | none => .error .marshal
      | some rawPayload =>
        match privKey with
        | none => .ok ⟨messageId, agentId, intent, some rawPayload, ""⟩
        | some key =>
          match canonicalJSON payload with
          | none => .error .canonical
          | some canonical => .ok ⟨messageId, agentId, intent, some rawPayload,
            sign ed key canonical⟩

/-! ### Receiving -/

/-- What the check of a signature comes to. -/
inductive Check where
  | passed
  | unknownPeer
  | failed
  | panicked
deriving DecidableEq

/-- The check of `readLoop`, in its four conditions. -/
def checkSignature (ed25519 : Verifier) (peerKeys : Dict String String) (env : TPCPEnvelope) :
    Check :=
  if env.signature ≠ "" then
    match peerKeys.get? env.senderId with
    | none => .unknownPeer
    | some pubKey =>
      match env.payload.bind unmarshal with
      -- An error of `json.Unmarshal` leaves the signature unread.
      | none => .passed
      | some payloadVal =>
        match canonicalJSON (ofGeneric payloadVal) with
        | none => .passed
        | some canonical =>
          match verify ed25519 pubKey canonical env.signature with
          | none => .panicked
          | some false => .failed
          | some true => .passed
  else .passed

/-- How a frame ends. -/
inductive Outcome where
  | invalid
  | replayed
  | refused (check : Check)
  /-- The handler of its intent was called. -/
  | handled
  /-- `DLQ.Enqueue` was called, and put it into the queue or found that full. -/
  | enqueued (stored : Bool)
deriving DecidableEq

/-- The envelope was dispatched. -/
def Outcome.Dispatched : Outcome → Prop
  | .handled | .enqueued _ => True
  | _ => False

/-- `dispatch(env)` -/
def TPCPNode.dispatch (n : TPCPNode) (env : TPCPEnvelope) : TPCPNode × Outcome :=
  if env.intent ∈ n.handlers then (n, .handled)
  -- The queue is a channel of capacity 100.
  else if n.dlq.length < 100 then ({ n with dlq := n.dlq ++ [env] }, .enqueued true)
  else (n, .enqueued false)

/-- The replay check, and the entries that are then too old. -/
def TPCPNode.record (n : TPCPNode) (now : ℤ) (messageId : String) : TPCPNode :=
  { n with seenMessages := (n.seenMessages.set messageId now).filter fun entry =>
    ¬ 300 < now - entry.2 }

/-- A turn of `readLoop`, for a frame as `json.Unmarshal` reads it. -/
def TPCPNode.readFrame (ed25519 : Verifier) (n : TPCPNode) (now : ℤ) (frame : Option TPCPEnvelope) :
    TPCPNode × Outcome :=
  match frame with
  | none => (n, .invalid)
  | some env =>
    if n.seenMessages.contains env.messageId then (n, .replayed)
    else
      let n := n.record now env.messageId
      match checkSignature ed25519 n.peerKeys env with
      | .passed => n.dispatch env
      | check => (n, .refused check)

/-! ### Signed envelopes are accepted -/

theorem decodeString_encode (data : Bytes) : decodeString (Base64.encode data) = some data := by
  have kept : (Base64.encode data).toList.filter (fun c => c ≠ '\r' ∧ c ≠ '\n') =
      (Base64.encode data).toList := by
    rw [List.filter_eq_self]
    refine fun c member => decide_eq_true (Base64.forall_mem_encodeChars
      (p := fun c => c ≠ '\r' ∧ c ≠ '\n') (by decide) (by decide) data c ?_)
    rwa [Base64.encode, String.toList_ofList] at member
  rw [decodeString, kept, String.ofList_toList, Base64.decode_encode]

theorem verify_sign (ed : Ed25519) (key : ed.PrivateKey) (payload : Bytes) :
    verify ed.verify (Base64.encode (ed.publicBytes key)) payload (sign ed key payload) =
      some true := by
  simp [verify, sign, decodeString_encode, ed.length_publicBytes, ed.verify_sign]

/-- What is sent with a key carries the payload, and a signature of its canonical bytes. -/
theorem sendMessage_cases {ed : Ed25519} {agentId messageId intent : String} {key : ed.PrivateKey}
    {connected : Bool} {payload : GoValue} {validate : Option String} {env : TPCPEnvelope}
    (sent :
      sendMessage ed agentId (some key) connected messageId intent payload validate = .ok env) :
    ∃ rawPayload canonical, marshalValue payload = some rawPayload ∧
      canonicalJSON payload = some canonical ∧
        env = ⟨messageId, agentId, intent, some rawPayload, sign ed key canonical⟩ := by
  unfold sendMessage at sent
  cases validate with
  | some text => cases sent
  | none =>
    dsimp only at sent
    split_ifs at sent
    cases raw : marshalValue payload with
    | none => simp [raw] at sent
    | some rawPayload =>
      cases bytes : canonicalJSON payload with
      | none => simp [raw, bytes] at sent
      | some canonical =>
        refine ⟨rawPayload, canonical, rfl, rfl, ?_⟩
        simpa [raw, bytes] using sent.symm

/-- The bytes of a typed payload are those of the payload that was read from the wire. -/
theorem payloadBytes_marshalValue {payload : GoValue} {rawPayload : Document} {canonical : Bytes}
    (raw : marshalValue payload = some rawPayload)
    (signed : canonicalJSON payload = some canonical) :
    payloadBytes rawPayload = some canonical := by
  rw [canonicalJSON, raw, Option.bind_some] at signed
  obtain ⟨v, reads, rfl⟩ := Option.map_eq_some_iff.mp signed
  exact payloadBytes_of_unmarshal reads

/-- What a node with a key sends passes the check of every node that has registered the
key, over the same bytes. -/
theorem sendMessage_accepted {ed : Ed25519} {agentId messageId intent : String}
    {key : ed.PrivateKey} {connected : Bool} {payload : GoValue} {validate : Option String}
    {env : TPCPEnvelope} {peerKeys : Dict String String}
    (sent : sendMessage ed agentId (some key) connected messageId intent payload validate = .ok env)
    (registered : peerKeys.get? agentId = some (Base64.encode (ed.publicBytes key))) :
    (∃ canonical, canonicalJSON payload = some canonical ∧
        env.payload.bind payloadBytes = some canonical ∧
          verify ed.verify (Base64.encode (ed.publicBytes key)) canonical env.signature =
            some true) ∧
      checkSignature ed.verify peerKeys env = .passed := by
  obtain ⟨rawPayload, canonical, raw, signed, rfl⟩ := sendMessage_cases sent
  have received := payloadBytes_marshalValue raw signed
  refine ⟨⟨canonical, signed, received, verify_sign ed key canonical⟩, ?_⟩
  have some' : sign ed key canonical ≠ "" := Base64.encode_ne_empty (ed.sign_ne_nil key canonical)
  obtain ⟨v, reads, written⟩ := Option.bind_eq_some_iff.mp received
  unfold checkSignature
  rw [if_pos some']
  simp only [registered, Option.bind_some, reads, written, verify_sign]

/-- A struct with markup in a string, a number, and a field that is left out. -/
theorem sendMessage_accepted_struct :
    let key : transparent.PrivateKey := ⟨List.replicate 32 0, by decide⟩
    let payload : GoValue := .struct [(⟨"content", false⟩, .string (bytes ['<', 'é', '>'])),
      (⟨"language", true⟩, .string []), (⟨"count", false⟩, .int 3)]
    ∃ env, sendMessage transparent "a" (some key) true "m" "Critique" payload none = .ok env ∧
      checkSignature transparent.verify
        (Dict.ofItems [("a", Base64.encode (transparent.publicBytes key))]) env = .passed := by
  intro key payload
  have inRange : InRange ⟨false, 3, 0⟩ := by decide +kernel
  have reads {raw : Document} (raw' : marshalValue payload = some raw) :
      raw.Passes { number := InRange } := by
    obtain rfl := Option.some.inj raw'
    exact ⟨trivial, trivial, trivial, trivial, inRange, trivial⟩
  obtain ⟨raw, raw'⟩ : ∃ raw, marshalValue payload = some raw := ⟨_, rfl⟩
  have signed : canonicalJSON payload = some (marshalSorted (decode raw)) := by
    rw [canonicalJSON, raw', Option.bind_some, unmarshal, if_pos (reads raw'), Option.map_some]
  have sent : sendMessage transparent "a" (some key) true "m" "Critique" payload none =
      .ok ⟨"m", "a", "Critique", some raw, sign transparent key (marshalSorted (decode raw))⟩ := by
    simp [sendMessage, raw', signed]
  exact ⟨_, sent, (sendMessage_accepted sent (Dict.get?_set_self Dict.empty "a" _)).2⟩

/-! ### Where the check fails closed -/

/-- If the sender has a registered key, the signature is not empty and verifies under that
key over the canonical bytes of the payload. -/
def Verified (ed25519 : Verifier) (peerKeys : Dict String String) (env : TPCPEnvelope) : Prop :=
  ∀ pubKey, peerKeys.get? env.senderId = some pubKey → env.signature ≠ "" ∧
    ∃ canonical, env.payload.bind payloadBytes = some canonical ∧
      verify ed25519 pubKey canonical env.signature = some true

/-- The sender is not registered, or the check has a signature and a payload to read. -/
def Checkable (peerKeys : Dict String String) (env : TPCPEnvelope) : Prop :=
  peerKeys.get? env.senderId = none ∨
    env.signature ≠ "" ∧
      ∃ payload, env.payload = some payload ∧ payload.Passes { number := InRange }

variable {ed25519 : Verifier}

theorem payloadBytes_isSome {env : TPCPEnvelope} :
    (∃ canonical, env.payload.bind payloadBytes = some canonical) ↔
    ∃ payload, env.payload = some payload ∧ payload.Passes { number := InRange } := by
  cases env.payload with
  | none => simp
  | some payload =>
    simp only [Option.bind_some, payloadBytes_eq, Option.some.injEq, exists_eq_left']
    split_ifs with inRange <;> simp [inRange]

/-- The check of an envelope whose payload can be read. -/
theorem checkSignature_of_payload {peerKeys : Dict String String} {env : TPCPEnvelope}
    {pubKey : String} {canonical : Bytes} (signature : env.signature ≠ "")
    (registered : peerKeys.get? env.senderId = some pubKey)
    (readable : env.payload.bind payloadBytes = some canonical) :
    checkSignature ed25519 peerKeys env =
      match verify ed25519 pubKey canonical env.signature with
      | none => .panicked
      | some false => .failed
      | some true => .passed := by
  have reads : ∃ v, env.payload.bind unmarshal = some v ∧
      canonicalJSON (ofGeneric v) = some canonical := by
    obtain ⟨payload, here, bytes⟩ := Option.bind_eq_some_iff.mp readable
    obtain ⟨v, reads, written⟩ := Option.bind_eq_some_iff.mp bytes
    exact ⟨v, by rw [here, Option.bind_some, reads], written⟩
  obtain ⟨v, reads, written⟩ := reads
  unfold checkSignature
  rw [if_pos signature]
  simp only [registered, reads, written]

/-- What passes is verified exactly if it could be checked. -/
theorem checkSignature_verified_iff (ed25519 : Verifier) (peerKeys : Dict String String)
    (env : TPCPEnvelope) :
    (checkSignature ed25519 peerKeys env = .passed → Verified ed25519 peerKeys env) ↔
      Checkable peerKeys env := by
  cases registered : peerKeys.get? env.senderId with
  | none => simp [Verified, Checkable, registered]
  | some pubKey =>
    have verified : Verified ed25519 peerKeys env ↔ env.signature ≠ "" ∧
        ∃ canonical, env.payload.bind payloadBytes = some canonical ∧
          verify ed25519 pubKey canonical env.signature = some true := by
      simp [Verified, registered]
    rw [verified, Checkable, registered, ← payloadBytes_isSome]
    -- Without a signature, or with a payload that cannot be read, the check is passed over.
    by_cases signature : env.signature = ""
    · simp [checkSignature, signature]
    · cases readable : env.payload.bind payloadBytes with
      | none =>
        have unread : env.payload.bind unmarshal = none := by
          cases payload : env.payload with
          | none => rfl
          | some payload =>
            rw [payload, Option.bind_some, payloadBytes_eq] at readable
            rw [Option.bind_some, unmarshal]
            split_ifs at readable ⊢
            rfl
        simp [checkSignature, signature, registered, unread]
      | some canonical =>
        rw [checkSignature_of_payload signature registered readable]
        cases accepted : verify ed25519 pubKey canonical env.signature with
        | none => simp [signature]
        | some ok => cases ok <;> simp [signature, accepted]

theorem dispatched_dispatch (n : TPCPNode) (env : TPCPEnvelope) :
    (n.dispatch env).2.Dispatched := by
  unfold TPCPNode.dispatch
  split_ifs <;> trivial

/-- A new envelope is dispatched exactly if its signature passes. -/
theorem dispatched_readFrame_iff {n : TPCPNode} {now : ℤ} {env : TPCPEnvelope}
    (fresh : ¬ n.seenMessages.contains env.messageId = true) :
    (n.readFrame ed25519 now (some env)).2.Dispatched ↔
      checkSignature ed25519 n.peerKeys env = .passed := by
  have keys : (n.record now env.messageId).peerKeys = n.peerKeys := rfl
  simp only [TPCPNode.readFrame, if_neg fresh, keys]
  cases check : checkSignature ed25519 n.peerKeys env with
  | passed => exact iff_of_true (dispatched_dispatch _ env) rfl
  | unknownPeer => exact iff_of_false id nofun
  | failed => exact iff_of_false id nofun
  | panicked => exact iff_of_false id nofun

/-- The node fails closed exactly on frames that it cannot read, replays, senders without a
registered key, and envelopes that carry a signature and a payload which decodes. -/
theorem readFrame_failsClosed_iff (ed25519 : Verifier) (n : TPCPNode) (now : ℤ)
    (frame : Option TPCPEnvelope) :
    (∀ env ∈ frame,
      (n.readFrame ed25519 now frame).2.Dispatched → Verified ed25519 n.peerKeys env) ↔
      ∀ env ∈ frame, n.seenMessages.contains env.messageId = true ∨ Checkable n.peerKeys env := by
  cases frame with
  | none => simp
  | some env =>
    simp only [Option.mem_some_iff, forall_eq']
    by_cases seen : n.seenMessages.contains env.messageId = true
    · have dropped : ¬ (n.readFrame ed25519 now (some env)).2.Dispatched := by
        simp only [TPCPNode.readFrame, if_pos seen]
        exact id
      exact iff_of_true (fun dispatched => absurd dispatched dropped) (.inl seen)
    · rw [dispatched_readFrame_iff seen, checkSignature_verified_iff, or_iff_right seen]

/-- The envelope of a registered sender, its signature taken off. -/
theorem readFrame_failsOpen :
    let n : TPCPNode := ⟨Dict.ofItems [("a", "key")], ["Task_Request"], Dict.empty, []⟩
    let env : TPCPEnvelope := ⟨"m", "a", "Task_Request", some .null, ""⟩
    (n.readFrame transparent.verify 0 (some env)).2 = .handled ∧
      ¬ Verified transparent.verify n.peerKeys env := by
  refine ⟨rfl, fun verified => ?_⟩
  exact (verified "key" rfl).1 rfl

end AgentTelepathy.Go
