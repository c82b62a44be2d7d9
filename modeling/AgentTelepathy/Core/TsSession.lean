import AgentTelepathy.Core.TsInbound
import AgentTelepathy.Schemas.TsEnvelope

/-!
# From one TypeScript node to another

`sendMessage` signs the payload that the schema has returned and dispatches the text of the
envelope; `_handleInbound` parses such a text and applies the schema of envelopes to it. Ids that
are no UUIDs pass `sendMessage`, and no receiver accepts them.
-/

namespace AgentTelepathy.TypeScript

open Foundation Transition

/-- The header that is sent, as JSON. -/
def headerJson (messageId timestamp senderId receiverId : String) (intent : Intent)
    (version : String) : Json :=
  .obj [("message_id", .str messageId), ("timestamp", .str timestamp),
    ("sender_id", .str senderId), ("receiver_id", .str receiverId),
    ("intent", .str intent.value), ("ttl", .int 30), ("protocol_version", .str version)]

/-- An envelope with a signed payload, as JSON. -/
def signedEnvelope (sign : Bytes → Bytes) (header payload : Json) : Json :=
  .obj [("header", header), ("payload", payload),
    ("signature", .str (signPayload sign (Ecma.Value.parse payload)))]

/-- The envelope that `sendMessage(targetId, intent, payload)` dispatches, unless it throws. -/
def sendMessage (z : Zod) (sign : Bytes → Bytes) (agentId targetId : String) (intent : Intent)
    (payload : Ecma.Value) (messageId timestamp : String) : Option Json :=
  ((payloadSchema z).on payload.json).map fun validatedPayload =>
    signedEnvelope sign (headerJson messageId timestamp agentId targetId intent protocolVersion)
      validatedPayload

/-- A number that is not negative. -/
def natural? : Json → Option ℕ
  | .int n => some n.toNat
  | .float x =>
    match x.number with
    | .rat q => some q.num.toNat
    | _ => none
  | _ => none

/-- `TPCPEnvelopeSchema.parse(data)`, unless it throws, by the fields that the node reads. -/
def TPCPEnvelope.read (z : Zod) (data : Json) : Option TPCPEnvelope := do
  let parsed ← (tpcpEnvelopeSchema z).on data
  let header ← parsed.get? "header"
  let payload ← parsed.get? "payload"
  match header.get? "message_id", header.get? "sender_id", header.get? "intent" with
  | some (.str messageId), some (.str senderId), some (.str intent) =>
    let intent ← Intent.ofValue? intent
    let ttl ← (header.get? "ttl").bind natural?
    let signature := match parsed.get? "signature" with
      | some (.str signature) => some signature
      | _ => none
    some ⟨messageId, senderId, intent, ttl, Ecma.Value.parse payload, signature⟩
  | _, _, _ => none

/-- What a receiver reads from the text of a signed envelope. -/
def TPCPEnvelope.ofSent (sign : Bytes → Bytes) (messageId senderId : String) (intent : Intent)
    (payload : Json) : TPCPEnvelope :=
  ⟨messageId, senderId, intent, 30, Ecma.Value.parse (Ecma.reparsed payload),
    some (signPayload sign (Ecma.Value.parse payload))⟩

/-- `TPCPEnvelopeSchema.parse(JSON.parse(JSON.stringify(envelope)))` -/
def TPCPEnvelope.arrive (z : Zod) (envelope : Json) : Option TPCPEnvelope :=
  TPCPEnvelope.read z (Ecma.reparsed envelope)

/-! ### Reading what was sent -/

variable {z : Zod}

/-- A header that is sent is accepted if its ids are UUIDs, as it is. -/
theorem messageHeaderSchema_headerJson (messageId timestamp senderId receiverId : String)
    (intent : Intent) (version : String) :
    messageHeaderSchema z (some (headerJson messageId timestamp senderId receiverId intent version))
      = if z.isUuid messageId ∧ z.isUuid senderId ∧ z.isUuid receiverId then
          some (some (headerJson messageId timestamp senderId receiverId intent version))
        else none := by
  have known : intent.value ∈ Intent.all.map Intent.value :=
    List.mem_map_of_mem (by cases intent <;> decide)
  have hops : z.int (fun q => 0 ≤ q) (some (.int 30)) = some (some (.int 30)) := by
    rw [Zod.int, z.number_eq]
    exact if_pos (by norm_num [Json.isFinite])
  rw [messageHeaderSchema, z.object_eq, headerJson, Schema.object]
  by_cases first : z.isUuid messageId = true <;> by_cases second : z.isUuid senderId = true <;>
    by_cases third : z.isUuid receiverId = true <;>
      simp [List.lookup_cons, first, second, third, known, hops, Schema.present]

/-- An envelope with a payload that the schema keeps is read if the ids of its header are UUIDs. -/
theorem arrive_signedEnvelope (sign : Bytes → Bytes)
    (messageId timestamp senderId receiverId : String) (intent : Intent) (version : String)
    {payload : Json} (keeps : payloadSchema z (some (Ecma.reparsed payload)) =
      some (some (Ecma.reparsed payload))) :
    TPCPEnvelope.arrive z (signedEnvelope sign
        (headerJson messageId timestamp senderId receiverId intent version) payload) =
      if z.isUuid messageId ∧ z.isUuid senderId ∧ z.isUuid receiverId then
        some (.ofSent sign messageId senderId intent payload)
      else none := by
  have sent : Ecma.reparsed (signedEnvelope sign
      (headerJson messageId timestamp senderId receiverId intent version) payload) =
        .obj [("header", headerJson messageId timestamp senderId receiverId intent version),
          ("payload", Ecma.reparsed payload),
          ("signature", .str (signPayload sign (Ecma.Value.parse payload)))] := by
    simp [signedEnvelope, headerJson, Ecma.reparsed, Ecma.reparsedMembers]
  have text (text : String) : nullishString z (some (.str text)) = some (some (.str text)) := by
    rw [nullishString, z.optional_some, z.nullable_eq, Schema.nullable, if_neg (by simp),
      z.string_str]
  have parsed : (tpcpEnvelopeSchema z).on (.obj
      [("header", headerJson messageId timestamp senderId receiverId intent version),
        ("payload", Ecma.reparsed payload),
        ("signature", .str (signPayload sign (Ecma.Value.parse payload)))]) =
      if z.isUuid messageId ∧ z.isUuid senderId ∧ z.isUuid receiverId then some (.obj
        [("header", headerJson messageId timestamp senderId receiverId intent version),
          ("payload", Ecma.reparsed payload),
          ("signature", .str (signPayload sign (Ecma.Value.parse payload)))])
      else none := by
    rw [Schema.on, tpcpEnvelopeSchema, z.object_eq, Schema.object]
    split_ifs with ids <;>
      simp [List.lookup_cons, messageHeaderSchema_headerJson, ids, keeps, text, Schema.present]
  rw [TPCPEnvelope.arrive, sent, TPCPEnvelope.read, parsed]
  split_ifs
  · simp [Json.get?, List.lookup_cons, headerJson, natural?, TPCPEnvelope.ofSent]
  · rfl

/-- The schema accepts the envelopes of UUIDs only. -/
theorem isUuid_of_read {data : Json} {e : TPCPEnvelope}
    (accepted : TPCPEnvelope.read z data = some e) : z.isUuid e.senderId = true := by
  obtain ⟨parsed, envelope, read⟩ := Option.bind_eq_some_iff.mp accepted
  obtain ⟨header, found, read⟩ := Option.bind_eq_some_iff.mp read
  obtain ⟨payload, -, read⟩ := Option.bind_eq_some_iff.mp read
  have whole := Option.join_eq_some_iff.mp envelope
  rw [tpcpEnvelopeSchema, z.object_eq] at whole
  obtain ⟨members, members', -, isParsed, returned⟩ :=
    Schema.lookup_of_object (by simp) whole List.mem_cons_self
  obtain rfl := Option.some.inj isParsed
  rw [show members'.lookup "header" = some header from found, messageHeaderSchema,
    z.object_eq] at returned
  obtain ⟨fields, fields', -, isHeader, kept⟩ := Schema.lookup_of_object (by simp) returned
    (show ("sender_id", z.uuid) ∈ _ by simp)
  obtain rfl := Option.some.inj isHeader
  split at read
  case h_1 messageId text intent _ known _ =>
    obtain ⟨intent, -, read⟩ := Option.bind_eq_some_iff.mp read
    obtain ⟨ttl, -, read⟩ := Option.bind_eq_some_iff.mp read
    obtain rfl := Option.some.inj read
    rw [show fields'.lookup "sender_id" = some (.str text) from known] at kept
    exact z.isUuid_of_uuid kept
  case h_2 => cases read

/-- What is read verifies under the sender's key. -/
theorem passes_ofSent (ed : Ed25519) (key : ed.PrivateKey)
    (length : ∀ data, (ed.sign key data).length = 64) {p : Platform} (nacl : p.nacl = ed.verify)
    {n : TPCPNode} {messageId agentId address : String} (intent : Intent) (payload : Json)
    (known : n.peerRegistry.get? agentId = some ⟨Base64.encode (ed.publicBytes key), address⟩) :
    n.Passes p (.ofSent (ed.sign key) messageId agentId intent payload) := by
  have signature : signPayload (ed.sign key) (Ecma.Value.parse payload) ≠ "" :=
    Base64.encode_ne_empty (ed.sign_ne_nil key _)
  have verified := verifySignature_signPayload ed key length (Ecma.Value.parse payload)
  rw [verifySignature, ← Ecma.stringify_parse_reparsed] at verified
  refine ⟨Nat.succ_pos 29, .inr ⟨_, _,
    Option.filter_eq_some_iff.mpr ⟨rfl, decide_eq_true signature⟩, known, ?_⟩⟩
  rw [nacl, verifySignature]
  exact verified

/-! ### The session -/

namespace TPCPNode

variable {p : Platform} {n m : TPCPNode} {e : TPCPEnvelope} {action : Action}

/-- A new envelope that passes the checks is recorded and routed. -/
theorem handleInbound_of_passes (fresh : n.seenMessages.get? e.messageId = none)
    (passes : n.Passes p e) (other : e.intent ≠ .handshake) :
    (n.handleInbound p (some e)).1 =
      { n.record e.messageId with routed := n.routed ++ [(e, n.now)] } := by
  have unseen : n.seenMessages.contains e.messageId = false := by rw [Dict.contains, fresh]; rfl
  have refused : (n.record e.messageId).refusal p e = none := refusal_eq_none_iff.mpr passes
  simp only [handleInbound, unseen, Bool.false_eq_true, if_false, refused, routeIntent, other]
  rfl

/-- The envelopes with an id that were routed, and when. -/
def routedAs (n : TPCPNode) (messageId : String) : List (TPCPEnvelope × ℤ) :=
  n.routed.filter fun q => q.1.messageId = messageId

/-- An action changes nothing about the id of an envelope, unless the envelope arrives for the
first time; then it is recorded and routed. -/
theorem step_arrival (passes : n.Passes p e) (noHandshake : e.intent ≠ .handshake)
    (kept : ∀ time, n.seenMessages.get? e.messageId = some time → n.now ≤ time + 300000)
    (own : ∀ h, action = .frame (some h) → h.messageId = e.messageId → h = e)
    (next : step p n action = some m) :
    (m.seenMessages.get? e.messageId = n.seenMessages.get? e.messageId ∧
      m.routedAs e.messageId = n.routedAs e.messageId ∧
        (action = .frame (some e) → n.seenMessages.get? e.messageId ≠ none)) ∨
      action = .frame (some e) ∧ n.seenMessages.get? e.messageId = none ∧
        m.seenMessages.get? e.messageId = some n.now ∧
          m.routedAs e.messageId = n.routedAs e.messageId ++ [(e, n.now)] := by
  cases action with
  | frame frame =>
    obtain rfl := Option.some.inj next
    by_cases first : frame = some e ∧ n.seenMessages.get? e.messageId = none
    · obtain ⟨rfl, unseen⟩ := first
      rw [handleInbound_of_passes unseen passes noHandshake]
      exact .inr ⟨rfl, unseen, Dict.get?_set_self .., by simp [routedAs]⟩
    · refine .inl (and_assoc.mp ⟨?_, fun same => ?_⟩)
      · rcases handleInbound_cases p n frame with same | ⟨h, rfl, absent, changed⟩
        · rw [same]
          exact ⟨rfl, rfl⟩
        · have other : h.messageId ≠ e.messageId := fun same => by
            obtain rfl := own h rfl same
            exact first ⟨rfl, absent⟩
          have seen : (n.record h.messageId).seenMessages.get? e.messageId =
              n.seenMessages.get? e.messageId := Dict.get?_set_of_ne other.symm
          rcases changed with same | ⟨publicKey, -, -, -, same⟩ | ⟨-, -, same⟩ <;> rw [same]
          · exact ⟨seen, rfl⟩
          · exact ⟨seen, rfl⟩
          · exact ⟨seen, by simp [routedAs, other]⟩
      · cases same
        exact fun unseen => first ⟨rfl, unseen⟩
  | registerPeer | removePeer =>
    obtain rfl := Option.some.inj next
    exact .inl ⟨rfl, rfl, fun same => by cases same⟩
  | cleanup =>
    obtain rfl := Option.some.inj next
    refine .inl ⟨Dict.get?_filter_of_keeps fun time held => ?_, rfl, fun same => by cases same⟩
    have young := kept time held
    exact decide_eq_true (by omega)
  | tick now =>
    simp only [step] at next
    split_ifs at next
    obtain rfl := Option.some.inj next
    exact .inl ⟨rfl, rfl, fun same => by cases same⟩

theorem now_handleInbound (p : Platform) (n : TPCPNode) (frame : Option TPCPEnvelope) :
    (n.handleInbound p frame).1.now = n.now := by
  rcases handleInbound_cases p n frame with same | ⟨h, rfl, -, same |
    ⟨publicKey, -, -, -, same⟩ | ⟨-, -, same⟩⟩ <;> rw [same] <;> rfl

theorem now_le_of_step (next : step p n action = some m) : n.now ≤ m.now := by
  cases action with
  | frame frame =>
    obtain rfl := Option.some.inj next
    exact (now_handleInbound p n frame).ge
  | registerPeer | removePeer | cleanup =>
    obtain rfl := Option.some.inj next
    exact le_rfl
  | tick now =>
    simp only [step] at next
    split_ifs at next with later
    obtain rfl := Option.some.inj next
    exact later

/-- What is known about the id of an envelope after some actions. -/
structure Delivered (e : TPCPEnvelope) (actions : List Action) (n m : TPCPNode) : Prop where
  entry : m.peerRegistry.get? e.senderId = n.peerRegistry.get? e.senderId
  began : n.now ≤ m.now
  expected : .frame (some e) ∉ actions →
    m.seenMessages.get? e.messageId = none ∧ m.routedAs e.messageId = []
  once : .frame (some e) ∈ actions → ∃ time, n.now ≤ time ∧
    m.seenMessages.get? e.messageId = some time ∧ m.routedAs e.messageId = [(e, time)]

/-- In a run that leaves the entry of the sender, takes at most 300 s and has no other envelope
with the id, an envelope that passes the checks is routed once it arrives. -/
theorem delivered {actions : List Action} (run : Run (OfPartial (step p)) n actions m)
    (passes : n.Passes p e) (noHandshake : e.intent ≠ .handshake)
    (fresh : n.seenMessages.get? e.messageId = none) (unrouted : n.routedAs e.messageId = [])
    (entry : ∀ action ∈ actions, ¬ action.Writes e.senderId) (soon : m.now ≤ n.now + 300000)
    (own : ∀ h, .frame (some h) ∈ actions → h.messageId = e.messageId → h = e) :
    Delivered e actions n m := by
  induction run with
  | nil => exact ⟨rfl, le_rfl, fun _ => ⟨fresh, unrouted⟩, fun member => absurd member nofun⟩
  | @snoc actions m m' action _ last ih =>
    have later := now_le_of_step last
    have before := ih (fun a member => entry a (List.mem_append_left _ member))
      (later.trans soon) fun h member => own h (List.mem_append_left _ member)
    have here : action ∈ actions ++ [action] :=
      List.mem_append_right _ (List.mem_singleton.mpr rfl)
    have passes' : m.Passes p e := by
      rw [Passes, before.entry]
      exact passes
    have kept : ∀ time, m.seenMessages.get? e.messageId = some time → m.now ≤ time + 300000 := by
      intro time held
      by_cases arrived : .frame (some e) ∈ actions
      · obtain ⟨time', begun, held', -⟩ := before.once arrived
        obtain rfl := Option.some.inj (held.symm.trans held')
        omega
      · rw [(before.expected arrived).1] at held
        cases held
    have changed := step_arrival passes' noHandshake kept
      (fun h same => own h (same ▸ here)) last
    refine ⟨(get?_of_not_writes last (entry action here)).trans before.entry,
      before.began.trans later, fun absent => ?_, fun member => ?_⟩
    · rw [List.mem_append, not_or] at absent
      obtain ⟨unseen, none⟩ := before.expected absent.1
      rcases changed with ⟨seen, routed, -⟩ | ⟨arrives, -⟩
      · exact ⟨seen.trans unseen, routed.trans none⟩
      · exact absurd (List.mem_singleton.mpr arrives.symm) absent.2
    · by_cases arrived : .frame (some e) ∈ actions
      · obtain ⟨time, begun, held, routed⟩ := before.once arrived
        rcases changed with ⟨seen, same, -⟩ | ⟨-, unseen, -⟩
        · exact ⟨time, begun, seen.trans held, same.trans routed⟩
        · rw [held] at unseen
          cases unseen
      · obtain ⟨unseen, none⟩ := before.expected arrived
        have now : action = .frame (some e) :=
          (List.mem_singleton.mp ((List.mem_append.mp member).resolve_left arrived)).symm
        rcases changed with ⟨-, -, seen⟩ | ⟨-, -, seen, routed⟩
        · exact absurd unseen (seen now)
        · exact ⟨m.now, before.began, seen, by rw [routed, none, List.nil_append]⟩

/-- What is routed was routed before, or came in a frame at which it passed the checks. -/
theorem passed_of_run {actions : List Action} (run : Run (OfPartial (step p)) n actions m) :
    ∀ q ∈ m.routed, q ∈ n.routed ∨ ∃ before r after,
      Run (OfPartial (step p)) n before r ∧ actions = before ++ .frame (some q.1) :: after ∧
        r.Passes p q.1 := by
  induction run with
  | nil => exact fun q member => .inl member
  | @snoc actions m m' action run last ih =>
    have earlier (q : TPCPEnvelope × ℤ) (member : q ∈ m.routed) :
        q ∈ n.routed ∨ ∃ before r after, Run (OfPartial (step p)) n before r ∧
          actions ++ [action] = before ++ .frame (some q.1) :: after ∧ r.Passes p q.1 := by
      refine (ih q member).imp_right ?_
      rintro ⟨before, r, after, reached, rfl, passes⟩
      exact ⟨before, r, after ++ [action], reached, by simp, passes⟩
    cases action with
    | frame frame =>
      obtain rfl := Option.some.inj last
      rcases handleInbound_cases p m frame with same | ⟨h, rfl, -, same |
        ⟨publicKey, -, -, -, same⟩ | ⟨-, passes, same⟩⟩ <;> rw [same]
      · exact earlier
      · exact earlier
      · exact earlier
      · intro q member
        rcases List.mem_append.mp member with before | now
        · exact earlier q before
        · obtain rfl := List.mem_singleton.mp now
          exact .inr ⟨actions, m, [], run, rfl, passes⟩
    | registerPeer | removePeer | cleanup =>
      obtain rfl := Option.some.inj last
      exact earlier
    | tick now =>
      simp only [OfPartial, step] at last
      split_ifs at last
      obtain rfl := Option.some.inj last
      exact earlier

/-- What is routed was routed before, or came in a frame. -/
theorem routed_of_run {actions : List Action} (run : Run (OfPartial (step p)) n actions m) :
    ∀ q ∈ m.routed, q ∈ n.routed ∨ .frame (some q.1) ∈ actions := by
  intro q member
  refine (passed_of_run run q member).imp_right ?_
  rintro ⟨before, r, after, -, rfl, -⟩
  exact List.mem_append_right _ List.mem_cons_self

/-- As long as the entry of its sender stays, what is routed would have passed the checks before. -/
theorem passes_of_run {actions : List Action} (run : Run (OfPartial (step p)) n actions m)
    {q : TPCPEnvelope × ℤ} (member : q ∈ m.routed)
    (entry : ∀ action ∈ actions, ¬ action.Writes q.1.senderId) :
    q ∈ n.routed ∨ n.Passes p q.1 := by
  refine (passed_of_run run q member).imp_right ?_
  rintro ⟨before, r, after, reached, rfl, passes⟩
  have stays := get?_of_run reached fun action member =>
    entry action (List.mem_append_left _ member)
  rwa [Passes, stays] at passes

/-- A run of a node that knows a sender by its key, for at most 300 s; a text of the sender
arrives, once or more often, and no other envelope has its message id. -/
structure Receives (p : Platform) (n : TPCPNode) (actions : List Action) (m : TPCPNode)
    (agentId publicKey messageId : String) (arrival : Option TPCPEnvelope) : Prop where
  run : Run (OfPartial (step p)) n actions m
  known : ∃ address, n.peerRegistry.get? agentId = some ⟨publicKey, address⟩
  fresh : n.seenMessages.get? messageId = none
  unrouted : n.routedAs messageId = []
  entry : ∀ action ∈ actions, ¬ action.Writes agentId
  soon : m.now ≤ n.now + 300000
  own : ∀ h, .frame (some h) ∈ actions → h.messageId = messageId → some h = arrival
  arrives : .frame arrival ∈ actions

/-- A node that knows the sender gets one envelope twice. -/
theorem exists_receives_twice (p : Platform) (agentId publicKey messageId : String)
    (noHandshake : e.intent ≠ .handshake) :
    ∃ n m, Receives p n [.frame (some e), .frame (some e)] m agentId publicKey messageId
      (some e) := by
  let n : TPCPNode :=
    { initial 0 with peerRegistry := Dict.empty.set agentId ⟨publicKey, ""⟩ }
  let first := (n.handleInbound p (some e)).1
  have only (action : Action) (member : action ∈ [.frame (some e), .frame (some e)]) :
      action = .frame (some e) := by
    simpa using member
  refine ⟨n, (first.handleInbound p (some e)).1, (Run.single (t := first) rfl).append
    (Run.single rfl), ⟨"", Dict.get?_set_self ..⟩, rfl, rfl, fun action member => ?_, ?_,
    fun h member _ => Action.frame.inj (only _ member), List.mem_cons_self⟩
  · rw [only action member]
    rintro ⟨h, same, handshake, -⟩
    exact noHandshake (Option.some.inj same ▸ handshake)
  · rw [now_handleInbound, now_handleInbound]
    change (0 : ℤ) ≤ 0 + 300000
    decide

end TPCPNode

/-- What `sendMessage` dispatched is routed by a node that knows the sender, exactly once, if the
ids of sender and target are UUIDs: with the payload that the schema returned, as its JSON text
has it, however often the text arrives and whatever else does under other message ids. Otherwise it
is not routed. -/
theorem sent_routed_once (ed : Ed25519) (key : ed.PrivateKey)
    (length : ∀ data, (ed.sign key data).length = 64) {p : Platform} (nacl : p.nacl = ed.verify)
    {agentId targetId messageId timestamp : String} {intent : Intent} {payload : Ecma.Value}
    {sent : Json} (noHandshake : intent ≠ .handshake) (random : z.isUuid messageId = true)
    (dispatched : sendMessage z (ed.sign key) agentId targetId intent payload messageId timestamp =
      some sent) {n m : TPCPNode} {actions : List TPCPNode.Action}
    (receives : n.Receives p actions m agentId (Base64.encode (ed.publicBytes key)) messageId
      (TPCPEnvelope.arrive z sent)) :
    (z.isUuid agentId = true ∧ z.isUuid targetId = true → ∃ validated time,
      (payloadSchema z).on payload.json = some validated ∧ m.routedAs messageId =
        [(.ofSent (ed.sign key) messageId agentId intent validated, time)]) ∧
      (¬ (z.isUuid agentId = true ∧ z.isUuid targetId = true) → m.routedAs messageId = []) := by
  obtain ⟨validated, accepted, rfl⟩ := Option.map_eq_some_iff.mp dispatched
  have again := (resends_payloadSchema z).again _ _ (Option.join_eq_some_iff.mp accepted)
  have arrival := arrive_signedEnvelope (ed.sign key) messageId timestamp agentId targetId intent
    protocolVersion again
  simp only [random, true_and] at arrival
  rw [arrival] at receives
  constructor
  · intro ids
    rw [if_pos ids] at receives
    obtain ⟨run, ⟨address, known⟩, fresh, unrouted, entry, soon, own, arrives⟩ := receives
    have passes : n.Passes p (.ofSent (ed.sign key) messageId agentId intent validated) :=
      passes_ofSent ed key length nacl intent validated known
    have delivered := TPCPNode.delivered run passes noHandshake fresh unrouted entry soon
      fun h member same => Option.some.inj (own h member same)
    obtain ⟨time, -, -, once⟩ := delivered.once arrives
    exact ⟨validated, time, accepted, once⟩
  · intro ids
    rw [if_neg ids] at receives
    rw [TPCPNode.routedAs, List.filter_eq_nil_iff]
    intro q member same
    rcases TPCPNode.routed_of_run receives.run q member with before | came
    · have there : q ∈ n.routedAs messageId := List.mem_filter.mpr ⟨before, same⟩
      rw [receives.unrouted] at there
      cases there
    · cases receives.own q.1 came (of_decide_eq_true same)

/-- A text arrives twice. -/
theorem sent_routed_once_twice :
    let z := Zod.plain Zod.hasUuidForm Zod.hasUuidForm_chars
    let key : sized.PrivateKey := ⟨List.replicate 32 0, rfl⟩
    let p : Platform := ⟨fun _ => none, fun _ => "", sized.verify⟩
    let agentId := "11111111-1111-4111-8111-111111111111"
    let targetId := "22222222-2222-4222-8222-222222222222"
    let messageId := "33333333-3333-4333-8333-333333333333"
    let sent := signedEnvelope (sized.sign key)
      (headerJson messageId "" agentId targetId .critique protocolVersion)
      (discoveryPayload "hello").json
    ∃ n m time validated, Run (OfPartial (TPCPNode.step p)) n
        [.frame (TPCPEnvelope.arrive z sent), .frame (TPCPEnvelope.arrive z sent)] m ∧
      m.routedAs messageId =
        [(.ofSent (sized.sign key) messageId agentId .critique validated, time)] := by
  intro z key p agentId targetId messageId sent
  have dispatched : sendMessage z (sized.sign key) agentId targetId .critique
      (discoveryPayload "hello") messageId "" = some sent := by rfl
  have arrival : TPCPEnvelope.arrive z sent = some (.ofSent (sized.sign key) messageId agentId
      .critique (discoveryPayload "hello").json) :=
    (arrive_signedEnvelope _ _ _ _ _ _ _ (by rfl)).trans (if_pos (by decide))
  obtain ⟨n, m, receives⟩ := TPCPNode.exists_receives_twice p agentId
    (Base64.encode (sized.publicBytes key)) messageId (e := .ofSent (sized.sign key) messageId
      agentId .critique (discoveryPayload "hello").json) (by decide)
  rw [← arrival] at receives
  have other : Intent.critique ≠ .handshake := by decide
  obtain ⟨validated, time, -, once⟩ := (sent_routed_once sized key (length_sign_sized key) rfl
    other (by decide) dispatched receives).1 (by decide)
  exact ⟨n, m, time, validated, receives.run, once⟩

end AgentTelepathy.TypeScript
