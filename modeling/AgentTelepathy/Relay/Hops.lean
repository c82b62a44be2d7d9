import AgentTelepathy.Core.Inbound
import AgentTelepathy.Foundation.NumberText
import AgentTelepathy.Relay.Routing
import AgentTelepathy.Schemas.Records

/-!
# Hops

An envelope on its way over relays. Each relay drops it if its ttl is used up, and else sends it on
with its ttl decremented; the node that receives it drops it if its ttl is used up. So the last of
the hops that an envelope has left takes it to a node that drops it.
-/

namespace AgentTelepathy

open Foundation Foundation.Transition
open AgentTelepathy.Reader

/-! ### The ttl at a TypeScript node -/

namespace TypeScript

/-- What `JSON.parse` makes of a number. -/
def parseNumber : Json → Option Float64
  | .int n => some (.ofInt n)
  | .float x => some x
  | _ => none

/-- `z.number().int().min(0)`: the integers up to `Number.MAX_SAFE_INTEGER`. -/
def isCount (x : Float64) : Bool :=
  match x.number with
  | .rat q => decide (q.den = 1 ∧ 0 ≤ q ∧ q ≤ 2 ^ 53 - 1)
  | _ => false

/-- The ttl that `TPCPEnvelopeSchema.parse` reads in a header; nothing if it throws. -/
def headerTtl (header : Json) : Option Float64 :=
  match header.get? "ttl" with
  | none => some (.ofInt 30)
  | some ttl => (parseNumber ttl).filter isCount

/-- A node finds that the ttl of a frame is used up: `envelope.header.ttl <= 0`. -/
def expired (frame : Json) : Bool :=
  ((frame.get? "header").bind headerTtl).any fun ttl => ttl.number.nonpositive

end TypeScript

/-! ### Frames of an envelope -/

/-- The ttl of a header, 30 if there is none, is an integer. -/
def HasTtl (header : Json) (ttl : ℕ) : Prop := (header.get? "ttl").getD (.int 30) = .int ttl

/-- A frame is read as an envelope, except for the ttl, which is another. -/
structure CarriesEnvelope (ambient : Ambient) (e : TPCPEnvelope) (ttl : ℕ) (frame : Json) :
    Prop where
  valid : TPCPEnvelope.modelValidate ambient frame =
    .ok { e with header := { e.header with ttl := ttl } }
  header : ∃ header, frame.get? "header" = some header ∧ HasTtl header ttl

variable {ambient : Ambient} {e : TPCPEnvelope} {ttl k : ℕ} {frame message : Json}

theorem exists_obj_of_get? {v w : Json} {key : String} (found : v.get? key = some w) :
    ∃ members, v = .obj members := by
  cases v with
  | obj members => exact ⟨members, rfl⟩
  | null | bool | int | float | str | arr => cases found

theorem required_congr {α : Type} {v w : Json} {name : String} (same : v.get? name = w.get? name)
    (read : Reader α) : required v name read = required w name read := by
  rw [required, required, same]

theorem defaulted_congr {α : Type} {v w : Json} {name : String} (same : v.get? name = w.get? name)
    (default : α) (read : Reader α) :
    defaulted v name default read = defaulted w name default read := by
  rw [defaulted, defaulted, same]

/-- A header that differs in its ttl is read with that ttl. -/
theorem modelValidate_header_of_ttl {header header' : Json} {h : MessageHeader}
    (others : ∀ key, key ≠ "ttl" → header'.get? key = header.get? key)
    (ttl : header'.get? "ttl" = some (.int k))
    (valid : MessageHeader.modelValidate ambient header = .ok h) :
    MessageHeader.modelValidate ambient header' = .ok { h with ttl := k } := by
  obtain ⟨members', rfl⟩ := exists_obj_of_get? ttl
  -- A whole count is a valid `ttl`; the other fields read as before.
  have counted : defaulted (.obj members') "ttl" 30 (nonNegative ambient) = .ok k := by
    rw [defaulted, ttl]
    simp [nonNegative, Reader.int, Except.bind]
  cases header with
  | obj members =>
    simp only [MessageHeader.modelValidate, model, bind_eq_ok] at valid ⊢
    obtain ⟨messageId, id, timestamp, time, senderId, sender, receiverId, receiver, intent, kind, _,
      _, version, protocol, same⟩ := valid
    refine ⟨messageId, ?_, timestamp, ?_, senderId, ?_, receiverId, ?_, intent, ?_, k, counted,
      version, ?_, ?_⟩
    · rw [defaulted_congr (others _ (by decide)), id]
    · rw [defaulted_congr (others _ (by decide)), time]
    · rw [required_congr (others _ (by decide)), sender]
    · rw [required_congr (others _ (by decide)), receiver]
    · rw [required_congr (others _ (by decide)), kind]
    · rw [defaulted_congr (others _ (by decide)), protocol]
    · cases same
      rfl
  | null | bool | int | float | str | arr => cases valid

/-- A frame that differs in its header's ttl is read with that ttl. -/
theorem modelValidate_of_ttl {header header' : Json}
    (found : frame.get? "header" = some header) (found' : message.get? "header" = some header')
    (others : ∀ key, key ≠ "header" → message.get? key = frame.get? key)
    (others' : ∀ key, key ≠ "ttl" → header'.get? key = header.get? key)
    (ttl : header'.get? "ttl" = some (.int k))
    (valid : TPCPEnvelope.modelValidate ambient frame = .ok e) :
    TPCPEnvelope.modelValidate ambient message =
      .ok { e with header := { e.header with ttl := k } } := by
  obtain ⟨members, rfl⟩ := exists_obj_of_get? found
  obtain ⟨members', rfl⟩ := exists_obj_of_get? found'
  simp only [TPCPEnvelope.modelValidate, model, bind_eq_ok] at valid ⊢
  obtain ⟨h, readHeader, payload, readPayload, signature, readSignature, ack, readAck, chunk,
    readChunk, same⟩ := valid
  rw [required, found, within_eq_ok] at readHeader
  refine ⟨{ h with ttl := k }, ?_, payload, ?_, signature, ?_, ack, ?_, chunk, ?_, ?_⟩
  · rw [required, found', within_eq_ok]
    exact modelValidate_header_of_ttl others' ttl readHeader
  · rw [required_congr (others _ (by decide)), readPayload]
  · rw [defaulted_congr (others _ (by decide)), readSignature]
  · rw [defaulted_congr (others _ (by decide)), readAck]
  · rw [defaulted_congr (others _ (by decide)), readChunk]
  · cases same
    rfl

/-- A relay forwards a frame with an integer for its ttl exactly if that is positive. -/
theorem forwarded?_isSome_iff {header : Json} (has : HasTtl header ttl) :
    (forwarded? frame header).isSome = true ↔ 1 ≤ ttl := by
  have number : ((header.get? "ttl").getD (.int 30)).number? = some (.rat ttl) := by
    rw [has]
    rfl
  have usedUp : (Number.rat (ttl : ℚ)).nonpositive = decide (ttl = 0) := by
    simp [Number.nonpositive]
  rw [forwarded?, number]
  dsimp only
  rw [usedUp, has]
  by_cases zero : ttl = 0
  · simp [zero]
  · simp [zero, Json.subOne?, Nat.one_le_iff_ne_zero]

/-- What is forwarded carries the envelope with its ttl decremented. -/
theorem CarriesEnvelope.forwarded {header intent senderId : Json} {id : Key}
    (carries : CarriesEnvelope ambient e ttl frame) (names : Names frame header intent senderId id)
    (forwards : forwarded? frame header = some message) :
    1 ≤ ttl ∧ CarriesEnvelope ambient e (ttl - 1) message := by
  obtain ⟨header', found, has⟩ := carries.header
  obtain rfl := Option.some.inj (found.symm.trans names.get?_header.1)
  have alive := (forwarded?_isSome_iff has).mp (by rw [forwards]; rfl)
  obtain ⟨-, h, h', ttl', found', sent, less, ttlSent, others', others⟩ :=
    decremented_of_forwarded names forwards
  obtain rfl := Option.some.inj (found.symm.trans found')
  have sentTtl : ttl' = .int (ttl - 1 : ℕ) := by
    rw [has] at less
    have same : Json.int ((ttl : ℤ) - 1) = ttl' := Option.some.inj less
    rw [← same, Nat.cast_sub alive, Nat.cast_one]
  rw [sentTtl] at ttlSent
  have valid := modelValidate_of_ttl found sent others others' ttlSent carries.valid
  have has' : HasTtl h' (ttl - 1) := by rw [HasTtl, ttlSent, Option.getD_some]
  exact ⟨alive, valid, h', sent, has'⟩

/-- A TypeScript node finds the ttl of a frame used up exactly if it is zero. -/
theorem TypeScript.expired_iff {header : Json} (found : frame.get? "header" = some header)
    (has : HasTtl header ttl) : TypeScript.expired frame = true ↔ ttl = 0 := by
  rw [expired, found, Option.bind_some, headerTtl]
  cases given : header.get? "ttl" with
  | none =>
    rw [HasTtl, given] at has
    have thirty : (30 : ℤ) = ttl := Json.int.inj has
    -- Without a `ttl` the hub takes 30.
    have alive : (Float64.ofInt 30).number.nonpositive = false := by decide +kernel
    simp [alive]
    omega
  | some v =>
    rw [HasTtl, given] at has
    obtain rfl : v = .int ttl := has
    by_cases zero : ttl = 0
    · subst zero
      exact iff_of_true (by decide +kernel) rfl
    · have some' : (ttl : ℤ) ≠ 0 := Nat.cast_ne_zero.mpr zero
      refine iff_of_false ?_ zero
      -- A count too large for a number of TypeScript is read as infinity, which is alive too.
      cases nearest : Float64.ofInt ttl with
      | infinite | nan => simp [parseNumber, nearest, isCount, Float64.number]
      | finite b =>
        obtain ⟨neg, mant⟩ := Numeral.ofInt_finite some' nearest
        have sign : b.neg = false :=
          neg.trans (decide_eq_false (not_lt.mpr (Int.natCast_nonneg ttl)))
        have positive : (0 : ℚ) < b.mant * 2 ^ b.exp := by
          have := Nat.pos_of_ne_zero mant
          positivity
        have alive : (Float64.finite b).number.nonpositive = false := by
          rw [Float64.number_finite, sign]
          simpa [Number.nonpositive] using positive
        simp [parseNumber, nearest, Option.any_filter, alive]

/-! ### Relays and receivers -/

/-- In some run of a relay a message is sent for a frame. -/
def Forwarded (frame message : Json) : Prop :=
  ∃ rateLimit burstLimit events t, Run (OfPartial Relay.next)
    (Relay.init rateLimit burstLimit) events t ∧
    ∃ send ∈ t.sends, ∃ routing, send.purpose.routing? = some routing ∧ routing.frame = frame ∧
      send.frame = message

/-- A message is what a number of relays made of a frame, one after the other. -/
inductive Hops (frame : Json) : ℕ → Json → Prop
  | sent : Hops frame 0 frame
  | hop {k : ℕ} {received message : Json} (before : Hops frame k received)
      (forwarded : Forwarded received message) : Hops frame (k + 1) message

theorem CarriesEnvelope.hops (carries : CarriesEnvelope ambient e ttl frame)
    (hops : Hops frame k message) : k ≤ ttl ∧ CarriesEnvelope ambient e (ttl - k) message := by
  induction hops with
  | sent => exact ⟨Nat.zero_le ttl, carries⟩
  | hop _ forwarded ih =>
    obtain ⟨-, carries⟩ := ih
    obtain ⟨_, _, _, _, run, send, sent, routing, routes, rfl, rfl⟩ := forwarded
    obtain ⟨⟨_, _, _, _, _, _, -, -, begins⟩, frame⟩ :=
      Relay.began_of_init run send sent routing routes
    obtain ⟨header, intent, senderId, names, -, forwards⟩ := begins.forwards
    rw [frame]
    obtain ⟨alive, carries⟩ := carries.forwarded names forwards
    exact ⟨by omega, by rwa [Nat.sub_sub] at carries⟩

namespace TPCPNode

variable {M : Type} {n : TPCPNode M} {c : Context M}

theorem authenticate_ne_expired {verify : Verifier} :
    n.authenticate verify e ≠ .error .expired := by
  intro failed
  unfold authenticate at failed
  split_ifs at failed with other
  split at failed
  · cases failed
  · split at failed
    · cases failed
    · split_ifs at failed
      cases failed

/-- A node drops an envelope at its first check exactly if the ttl is used up. -/
theorem processEnvelope_expired_iff :
    (n.processEnvelope c e).2 = .expired ↔ e.header.ttl ≤ 0 := by
  constructor
  · intro dropped
    by_contra alive
    rw [processEnvelope, if_neg alive] at dropped
    dsimp only at dropped
    split at dropped
    · cases dropped
    · split at dropped
      · rename_i outcome failed
        obtain rfl : outcome = .expired := dropped
        exact authenticate_ne_expired failed
      · rw [route_eq] at dropped
        split at dropped
        · split at dropped <;> cases dropped
        · cases dropped
  · intro dead
    rw [processEnvelope, if_pos dead]

end TPCPNode

/-! ### Agreement on the ttl -/

/-- An envelope that is sent carries itself. -/
theorem carriesEnvelope_toJson (ambient : Ambient)
    (finite : allFinite e.payload.modelDump = true) :
    CarriesEnvelope ambient e e.header.ttl e.toJson :=
  ⟨TPCPEnvelope.modelValidate_toJson finite, e.header.toJson, rfl, rfl⟩

/-- A relay forwards every envelope whose ttl is positive, and after some hops the receiving nodes,
of either kind, keep it exactly if it had a hop left. -/
theorem kept_iff_ttl_ne {M : Type} (n : TPCPNode M) (c : Context M)
    (carries : CarriesEnvelope c.ambient e ttl frame) :
    (∀ header, frame.get? "header" = some header →
      ((forwarded? frame header).isSome = true ↔ 1 ≤ ttl)) ∧
    ∀ k message, Hops frame (k + 1) message →
      ((n.processInbound c (some message)).2 ≠ .expired ∧ TypeScript.expired message = false ↔
        ttl ≠ k + 1) := by
  constructor
  · intro header found
    obtain ⟨header', found', has⟩ := carries.header
    obtain rfl := Option.some.inj (found.symm.trans found')
    exact forwarded?_isSome_iff has
  · intro k message hops
    obtain ⟨enough, valid, header, found, has⟩ := carries.hops hops
    have python : (n.processInbound c (some message)).2 = .expired ↔ ttl - (k + 1) ≤ 0 := by
      rw [TPCPNode.processInbound_of_parsed (by rw [TPCPNode.parsed, Option.bind_some, valid]; rfl)]
      exact TPCPNode.processEnvelope_expired_iff
    have typeScript := TypeScript.expired_iff found has
    rw [Ne, python, ← Bool.not_eq_true, typeScript]
    omega

/-- An envelope with one hop left. -/
def dying : TPCPEnvelope where
  header := ⟨⟨30, 0, 0, 0, 0⟩, ⟨2026, 3, 1, 12, 0, 0, 0, DateTime.valid_noon⟩, ⟨1, 0, 0, 0, 0⟩,
    ⟨2, 0, 0, 0, 0⟩, .taskRequest, 1, protocolVersion⟩
  payload := .text ⟨"summarize", "en"⟩
  signature := some (Base64.encode [1])
  ackInfo := none
  chunkInfo := none

/-- Both agents register, and one sends an envelope to the other. -/
def sending (e : TPCPEnvelope) : List RelayEvent :=
  Relay.joining 0 e.header.senderId.toText 7 1 2 ++
    Relay.joining 1 e.header.receiverId.toText 9 3 4 ++
    [.message 0 ⟨500, some e.toJson⟩ (Relay.readAt 5) (Relay.constant 8)]

theorem forwarded_of_sending {e : TPCPEnvelope}
    (sends : (runPartial Relay.next (Relay.init 30 60) (sending e)).any (fun t =>
      t.sends.any fun send => send.purpose.routing?.any fun routing =>
        routing.frame = e.toJson) = true) :
    ∃ message, Forwarded e.toJson message := by
  obtain ⟨t, run, facts⟩ := exists_run_of_any sends
  obtain ⟨send, sent, routes⟩ := List.any_eq_true.mp facts
  obtain ⟨routing, routed, same⟩ := (Option.any_eq_true _ _).mp routes
  exact ⟨send.frame, 30, 60, _, t, run, send, sent, routing, routed, of_decide_eq_true same, rfl⟩

/-- A node that receives envelopes, and what it uses meanwhile. -/
def receiver : TPCPNode Unit := .init ⟨⟨2, 0, 0, 0, 0⟩, "CrewAI", [], "", []⟩ false none ()

def receiving : Context Unit where
  ambient := Ambient.strict UUID.nil ⟨2026, 3, 1, 12, 0, 0, 0, DateTime.valid_noon⟩
  verify _ _ _ := true
  sign _ := []
  backend := ⟨fun m _ => (m, none), fun m _ _ => (m, none), fun _ m _ => (m, none)⟩
  now := 5
  host := none

/-- An envelope with five hops left is kept after one. -/
theorem kept_iff_ttl_ne_five :
    ∃ message, Hops { dying with header := { dying.header with ttl := 5 } }.toJson 1 message ∧
      (receiver.processInbound receiving (some message)).2 ≠ .expired ∧
      TypeScript.expired message = false := by
  obtain ⟨message, forwarded⟩ := forwarded_of_sending
    (e := { dying with header := { dying.header with ttl := 5 } }) (by decide +kernel)
  have hops := Hops.hop .sent forwarded
  have kept := (kept_iff_ttl_ne receiver receiving (carriesEnvelope_toJson _ (by decide))).2 0
    message hops
  exact ⟨message, hops, kept.mpr (by decide)⟩

/-- The relay forwards an envelope with one hop left, with a ttl of zero, and the nodes drop it. -/
theorem dying_dropped :
    CarriesEnvelope receiving.ambient dying 1 dying.toJson ∧
      ∃ message, Forwarded dying.toJson message ∧
        (receiver.processInbound receiving (some message)).2 = .expired ∧
        TypeScript.expired message = true := by
  have carries : CarriesEnvelope receiving.ambient dying 1 dying.toJson :=
    carriesEnvelope_toJson _ (by decide)
  obtain ⟨message, forwarded⟩ := forwarded_of_sending (e := dying) (by decide +kernel)
  obtain ⟨-, valid, header, found, has⟩ := carries.hops (Hops.hop .sent forwarded)
  refine ⟨carries, message, forwarded, ?_, (TypeScript.expired_iff found has).mpr rfl⟩
  rw [TPCPNode.processInbound_of_parsed (by rw [TPCPNode.parsed, Option.bind_some, valid]; rfl)]
  exact TPCPNode.processEnvelope_expired_iff.mpr le_rfl

end AgentTelepathy
