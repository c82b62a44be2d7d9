import AgentTelepathy.Core.Node
import AgentTelepathy.Relay.Server

/-!
# A node on its relay connection

What a node does with a message that arrives from the relay: a challenge is
answered with a signature, a confirmation is noted, and everything else is
processed as an inbound frame. Which of these a message is depends on its
top-level type alone. The nonce of a challenge is signed as it is, with the key
that also signs payloads; so the signature is one for a payload exactly if the
nonce is the canonical text of that payload.
-/

namespace AgentTelepathy

open Foundation

/-- A node with what it knows about its registration at the relay. -/
structure AdnsNode (M : Type) where
  node : TPCPNode M
  adnsRegistered : Bool

/-- What a node does with a message from its relay connection. -/
inductive AdnsReaction
  /-- An exception is raised and logged. -/
  | raised
  /-- The nonce is signed, and the signature is sent in a response. -/
  | challenged (nonce signedNonce : String) (response : Json)
  | registered
  | inbound (outcome : Outcome)

/-- The frame that answers a challenge. -/
def challengeAnswer (agentId : UUID) (signedNonce : String) : Json :=
  .obj [("header", .obj [("sender_id", .str agentId.toText), ("intent", challengeResponse)]),
    ("payload", .obj [("content", .str signedNonce)])]

namespace AdnsNode

variable {M : Type} {a : AdnsNode M} {c : Context M} {data : Json} {nonce : String}

/-- `_process_adns_message`, from what `json.loads` returned; nothing if it raised. -/
def processAdnsMessage (a : AdnsNode M) (c : Context M) (data : Option Json) :
    AdnsNode M × AdnsReaction :=
  match data with
  | none => (a, .raised)
  | some data =>
    match data.getD "type" .null with
    | none => (a, .raised)
    | some type =>
      if type = .str "ADNS_CHALLENGE" then
        match data.getD "nonce" (.str "") with
        | some (.str nonce) =>
          let signedNonce := AgentIdentityManager.signBytes c.sign (utf8 nonce)
          (a, .challenged nonce signedNonce (challengeAnswer a.node.identity.agentId signedNonce))
        | _ => (a, .raised)
      else if type = .str "ADNS_REGISTERED" then ({ a with adnsRegistered := true }, .registered)
      else
        let (node, outcome) := a.node.processInbound c (some data)
        ({ a with node }, .inbound outcome)

/-- A message is processed as an ordinary envelope. -/
def Ordinary (a : AdnsNode M) (c : Context M) (data : Json) : Prop :=
  a.processAdnsMessage c (some data) =
    ({ a with node := (a.node.processInbound c (some data)).1 },
      .inbound (a.node.processInbound c (some data)).2)

/-- The types of the relay's own frames. -/
def controlTypes : List Json := [.str "ADNS_CHALLENGE", .str "ADNS_REGISTERED"]

/-- A dictionary is an ordinary envelope exactly if its type is not a relay's. -/
theorem ordinary_iff {members : List (String × Json)} :
    a.Ordinary c (.obj members) ↔ ∀ kind ∈ (Json.obj members).get? "type", kind ∉ controlTypes := by
  have opened : (Json.obj members).getD "type" .null =
      some (((Json.obj members).get? "type").getD .null) := rfl
  rw [Ordinary, processAdnsMessage, opened]
  dsimp only
  cases present : (Json.obj members).get? "type" with
  | none =>
    refine ⟨fun _ kind impossible => ?_, fun _ => rfl⟩
    cases impossible
  | some kind =>
    rw [Option.getD_some]
    -- The two types that the source takes as control messages.
    by_cases challenge : kind = .str "ADNS_CHALLENGE"
    · rw [if_pos challenge]
      refine ⟨fun ordinary => ?_, fun uncontrolled => ?_⟩
      · split at ordinary
        · cases congrArg Prod.snd ordinary
        · cases congrArg Prod.snd ordinary
      · exact absurd (challenge ▸ List.mem_cons_self) (uncontrolled kind rfl)
    · rw [if_neg challenge]
      by_cases confirmation : kind = .str "ADNS_REGISTERED"
      · rw [if_pos confirmation]
        refine ⟨fun ordinary => ?_, fun uncontrolled => ?_⟩
        · cases congrArg Prod.snd ordinary
        · refine absurd ?_ (uncontrolled kind rfl)
          rw [confirmation]
          exact List.mem_cons_of_mem _ (List.mem_singleton.mpr rfl)
      · rw [if_neg confirmation]
        refine ⟨fun _ found same member => ?_, fun _ => rfl⟩
        obtain rfl := Option.some.inj same
        rcases List.mem_cons.mp member with rfl | rest
        · exact challenge rfl
        · exact confirmation (List.mem_singleton.mp rest)

/-! ### What is signed -/

/-- A challenge is answered with the signature of its nonce, whatever the nonce is. -/
theorem signature_of_challenged {signedNonce : String} {response : Json}
    (challenged : (a.processAdnsMessage c (some data)).2 = .challenged nonce signedNonce response) :
    signedNonce = AgentIdentityManager.signBytes c.sign (utf8 nonce) ∧
      payloadContent response = some (.str signedNonce) := by
  rw [processAdnsMessage] at challenged
  split at challenged
  · cases challenged
  · split_ifs at challenged
    split at challenged
    · cases challenged
      exact ⟨rfl, rfl⟩
    · cases challenged

/-- A signature of bytes passes for a payload if the bytes are its canonical text,
and only then if signatures bind the key to the data. -/
theorem verifySignature_signBytes_iff {ed : Ed25519} {key : ed.PrivateKey}
    (binding : ∀ data data', ed.verify (ed.publicBytes key) (ed.sign key data) data' = true →
      data' = data) (data : Bytes) (payload : Json) :
    AgentIdentityManager.verifySignature ed.verify
        (AgentIdentityManager.getPublicKeyString (ed.publicBytes key))
        (AgentIdentityManager.signBytes (ed.sign key) data) payload = true ↔
      canonical payload = data := by
  rw [AgentIdentityManager.verifySignature, AgentIdentityManager.getPublicKeyString,
    AgentIdentityManager.signBytes,
    AgentIdentityManager.verifyBytes_encode (ed.length_publicBytes key)]
  constructor
  · exact binding data (canonical payload)
  · rintro rfl
    exact ed.verify_sign key _

/-- The signature that a node returns for a challenge passes only for payload
dictionaries that it signed itself, exactly if the nonce is the canonical text of
no other dictionary. -/
theorem harvest_iff {ed : Ed25519} {key : ed.PrivateKey} {signedNonce : String} {response : Json}
    (binding : ∀ data data', ed.verify (ed.publicBytes key) (ed.sign key data) data' = true →
      data' = data)
    (signs : c.sign = ed.sign key)
    (challenged : (a.processAdnsMessage c (some data)).2 = .challenged nonce signedNonce response)
    (itself : Json → Prop) :
    (∀ members, AgentIdentityManager.verifySignature ed.verify
        (AgentIdentityManager.getPublicKeyString (ed.publicBytes key)) signedNonce (.obj members) =
          true → itself (.obj members)) ↔
      ∀ members, utf8 nonce = canonical (.obj members) → itself (.obj members) := by
  obtain ⟨rfl, -⟩ := signature_of_challenged challenged
  rw [signs]
  refine forall_congr' fun members => ?_
  rw [verifySignature_signBytes_iff binding, eq_comm]

/-- The canonical text of a dictionary has an opening brace. -/
theorem brace_mem_of_canonical {members : List (String × Json)}
    (same : utf8 nonce = canonical (.obj members)) : '{' ∈ nonce.toList := by
  rw [utf8_injective same, JsonText.dumpsSorted, String.toList_ofList, Json.sortKeys]
  cases Json.sortByKey (Json.sortMembers members) with
  | nil => exact List.mem_cons_self
  | cons => exact List.mem_cons_self

/-- The relay's own nonces are safe to sign. -/
theorem hex_ne_canonical (entropy : Entropy) (members : List (String × Json)) :
    utf8 entropy.hex ≠ canonical (.obj members) := by
  intro same
  have brace := brace_mem_of_canonical same
  rw [Entropy.hex, String.toList_ofList, List.mem_flatMap] at brace
  obtain ⟨b, -, brace⟩ := brace
  have digits : ∀ d < 16, '{' ≠ Nat.digitChar d := by decide
  have positive : 0 < 16 := by decide
  -- A byte is written with two digits.
  rcases List.mem_cons.mp brace with high | low
  · exact digits _ (Nat.mod_lt _ positive) high
  · exact digits _ (Nat.mod_lt _ positive) (List.mem_singleton.mp low)

/-- A key of the transparent scheme. -/
def ownKey : transparent.PrivateKey := ⟨List.replicate 32 3, List.length_replicate⟩

/-- A node with this key that has signed nothing. -/
def unused : AdnsNode Unit :=
  ⟨.init ⟨⟨2, 0, 0, 0, 0⟩, "CrewAI", [], Base64.encode ownKey.1, []⟩ false none (), true⟩

/-- What the node uses. -/
def ownContext : Context Unit where
  ambient := .strict UUID.nil ⟨2026, 3, 1, 12, 0, 0, 0, DateTime.valid_noon⟩
  verify := transparent.verify
  sign := transparent.sign ownKey
  backend := ⟨fun m _ => (m, none), fun m _ _ => (m, none), fun _ m _ => (m, none)⟩
  now := 0
  host := none

/-- A challenge with a given nonce. -/
def challengeWith (nonce : String) : Json :=
  .obj [("type", .str "ADNS_CHALLENGE"), ("nonce", .str nonce)]

theorem harvest_iff_hex :
    ∃ signedNonce response,
      (unused.processAdnsMessage ownContext (some (challengeWith "c0ffee"))).2 =
        .challenged "c0ffee" signedNonce response ∧
      ∀ members, AgentIdentityManager.verifySignature transparent.verify
        (AgentIdentityManager.getPublicKeyString (transparent.publicBytes ownKey)) signedNonce
          (.obj members) ≠ true := by
  have binding : ∀ data data', transparent.verify (transparent.publicBytes ownKey)
      (transparent.sign ownKey data) data' = true → data' = data := by
    intro data data' verified
    have same : ownKey.1 ++ data = ownKey.1 ++ data' := of_decide_eq_true verified
    exact (List.append_cancel_left same).symm
  have challenged : (unused.processAdnsMessage ownContext (some (challengeWith "c0ffee"))).2 =
      .challenged "c0ffee" _ _ := rfl
  refine ⟨_, _, challenged, ?_⟩
  refine (@harvest_iff _ _ _ _ _ transparent ownKey _ _ binding rfl challenged fun _ => False).mpr
    ?_
  intro members same
  exact absurd (brace_mem_of_canonical same) (by decide)

/-- The payload of a task that the node never sent. -/
def unsent : Payload := .text ⟨"wire the funds", "en"⟩

/-- Its canonical text, sent as a nonce, makes the node sign it. -/
theorem harvested :
    ∃ nonce signedNonce response,
      nonce = "\x7b\"content\":\"wire the funds\",\"language\":\"en\",\"payload_type\":\"text\"\x7d" ∧
      (unused.processAdnsMessage ownContext (some (challengeWith nonce))).2 =
        .challenged nonce signedNonce response ∧
      AgentIdentityManager.verifySignature transparent.verify
        (AgentIdentityManager.getPublicKeyString (transparent.publicBytes ownKey)) signedNonce
          unsent.modelDump = true := by
  refine ⟨_, _, _, rfl, rfl, ?_⟩
  have text : utf8 "\x7b\"content\":\"wire the funds\",\"language\":\"en\",\"payload_type\":\"text\"\x7d" =
      canonical unsent.modelDump := congrArg utf8 (by decide)
  rw [AgentIdentityManager.verifySignature, AgentIdentityManager.getPublicKeyString,
    AgentIdentityManager.signBytes, AgentIdentityManager.verifyBytes_encode (by decide), text]
  exact transparent.verify_sign ownKey _

end AdnsNode

end AgentTelepathy
