import AgentTelepathy.Core.Window

/-!
# What a rejected envelope leaves behind

The identifier of an envelope is recorded before its signature is checked. So an
envelope that the signature check rejects leaves its identifier in the replay
cache, and within the window the node drops every later envelope with this
identifier. Nothing else of the node changes, so the later handler calls are the
ones without the rejected envelope exactly when none of them is for its identifier.
-/

namespace AgentTelepathy

open Foundation Foundation.Transition

/-- The signature check refused the frame. -/
def Outcome.isUnauthenticated : Outcome → Bool
  | .unregistered | .unsigned | .invalidSignature => true
  | _ => false

namespace Session

variable {M : Type} {s t a b : Session M} {event : SessionEvent M} {frame : Frame M}
  {e : TPCPEnvelope} {id : UUID} {time : ℚ}

/-! ### Sessions that differ in what they have seen -/

/-- The session with another replay cache, clock and record of received envelopes. -/
def reseen (s : Session M) (seen : Dict UUID ℚ) (clock : ℚ) (received : List TPCPEnvelope) :
    Session M := { s with node := s.node.withSeen seen, clock := clock, received := received }

theorem send_reseen (s : Session M) (seen : Dict UUID ℚ) (clock : ℚ) (received : List TPCPEnvelope)
    (request : Request) :
    (s.reseen seen clock received).send request =
      (s.send request).reseen seen clock received := by
  have same : (s.reseen seen clock received).node.sendMessage request.ambient
      (fun _ => request.signature) request.target request.intent request.payload
      request.requireAck request.chunkInfo =
    (s.node.sendMessage request.ambient (fun _ => request.signature) request.target request.intent
      request.payload request.requireAck request.chunkInfo).map
        fun result => (result.1.withSeen seen, result.2) := by
    unfold TPCPNode.sendMessage
    cases AgentIdentityManager.signPayload (fun _ => request.signature)
      (TPCPNode.signedPayload request.payload request.chunkInfo) with
    | error error => rfl
    | ok signature =>
      simp only [Except.map]
      split_ifs <;> rfl
  unfold send
  rw [same]
  cases s.node.sendMessage request.ambient (fun _ => request.signature) request.target
    request.intent request.payload request.requireAck request.chunkInfo with
  | error error => rfl
  | ok result => rfl

/-- What is not an inbound frame does not touch what was seen. -/
theorem next_reseen (s : Session M) (seen : Dict UUID ℚ) (clock : ℚ)
    (received : List TPCPEnvelope) (notInbound : ∀ frame, event ≠ .inbound frame) :
    (s.reseen seen clock received).next event =
      (s.next event).map fun t => t.reseen seen clock received := by
  cases event with
  | inbound frame => exact absurd rfl (notInbound frame)
  | send request => exact congrArg some (send_reseen s seen clock received request)
  | timeOut i | cancel i =>
    have calls : (s.reseen seen clock received).calls = s.calls := rfl
    simp only [next, calls]
    cases s.calls[i]? <;> rfl
  | stopListening =>
    have folded (entries : List (UUID × ℕ)) (m : TPCPNode M) :
        entries.foldl (fun n entry => n.complete entry.2 .cancelled) (m.withSeen seen) =
          (entries.foldl (fun n entry => n.complete entry.2 .cancelled) m).withSeen seen := by
      induction entries generalizing m with
      | nil => rfl
      | cons entry entries ih => exact ih (m.complete entry.2 .cancelled)
    -- Stopping completes the pending acks and does not look at the cache.
    have stopped : (s.node.withSeen seen).stopListening = s.node.stopListening.withSeen seen := by
      have pending : (s.node.withSeen seen).pendingAcks = s.node.pendingAcks := rfl
      rw [TPCPNode.stopListening, TPCPNode.stopListening, pending, folded]
      rfl
    simp only [next, Option.map_some]
    have node : (s.reseen seen clock received).node = s.node.withSeen seen := rfl
    rw [node, stopped]
    rfl
  | sign | registerPeer | removePeer | registerHandler | setPolicy => rfl

/-! ### Frames, by what the cache says -/

/-- A live envelope with a fresh identifier is recorded and judged. -/
theorem receive_of_fresh (parsed : TPCPNode.parsed frame.ambient frame.data = some e)
    (live : 0 < e.header.ttl)
    (fresh : (s.node.expireSeen frame.now).seenMessages.get? e.header.messageId = none) :
    s.receive frame =
      { s with
        node := (s.node.judge (s.context frame) e).1.withSeen
          (s.node.remember e frame.now).seenMessages
        clock := frame.now
        received := s.received ++ [e]
        handled := s.handled ++
          (invocation? frame (s.node.judge (s.context frame) e).2).toList } := by
  have parsed' : TPCPNode.parsed (s.context frame).ambient frame.data = some e := parsed
  rw [receive, TPCPNode.processInbound_of_parsed parsed',
    TPCPNode.processEnvelope_eq_judge (c := s.context frame) live fresh, parsed]
  rfl

/-- A live envelope with a known identifier is dropped. -/
theorem receive_of_seen (parsed : TPCPNode.parsed frame.ambient frame.data = some e)
    (live : 0 < e.header.ttl)
    (seen : (s.node.expireSeen frame.now).seenMessages.get? e.header.messageId = some time) :
    s.receive frame = s.reseen (s.node.expireSeen frame.now).seenMessages frame.now
      (s.received ++ [e]) := by
  have parsed' : TPCPNode.parsed (s.context frame).ambient frame.data = some e := parsed
  rw [receive, TPCPNode.processInbound_of_parsed parsed',
    processEnvelope_of_seen (c := s.context frame) live seen, parsed]
  simp [reseen, invocation?, TPCPNode.withSeen, TPCPNode.expireSeen]
  rfl

/-- A frame without a live envelope changes nothing but the clock and the record. -/
theorem receive_of_not_live
    (dead : ∀ e, TPCPNode.parsed frame.ambient frame.data = some e → ¬ 0 < e.header.ttl) :
    s.receive frame = s.reseen s.node.seenMessages frame.now
      (s.received ++ (TPCPNode.parsed frame.ambient frame.data).toList) := by
  obtain ⟨outcome, result, unhandled⟩ :=
    processInbound_of_not_live (n := s.node) (c := s.context frame) dead
  rw [receive, result]
  simp [reseen, TPCPNode.withSeen, invocation?_eq_none unhandled]

/-! ### Two runs, with and without the rejected envelope -/

/-- The frame is younger than the window from some time on. -/
def Within (limit : ℚ) (_ : Session M) (event : SessionEvent M) : Prop :=
  ∀ frame, event = .inbound frame → frame.now < limit

/-- The event is no frame that reaches a handler with the identifier. -/
def Avoids (id : UUID) (s : Session M) (event : SessionEvent M) : Prop :=
  ∀ frame e handler, event = .inbound frame → s.Accepted frame e handler →
    e.header.messageId ≠ id

/-- The session without what was seen. -/
def forget (s : Session M) : Session M := s.reseen Dict.empty 0 []

/-- The first session has recorded the identifier at some time, and the sessions
differ in their caches, as far as this identifier is concerned, and in their clocks
and records of received envelopes at most. -/
structure Shadows (id : UUID) (time : ℚ) (a b : Session M) : Prop where
  same : a.forget = b.forget
  later : b.clock ≤ a.clock
  ordered : ReplayCache.Ordered a.clock a.node.seenMessages
  ordered' : ReplayCache.Ordered b.clock b.node.seenMessages
  recorded : a.node.seenMessages.get? id = some time
  others : ∀ other ≠ id, ∀ past, a.clock < past + 300 →
    (a.node.seenMessages.get? other = some past ↔ b.node.seenMessages.get? other = some past)

theorem Shadows.handled (shadows : Shadows id time a b) : a.handled = b.handled := by
  have same : a.forget.handled = b.forget.handled := congrArg Session.handled shadows.same
  exact same

/-- Identifiers but the recorded one look alike in the expired caches. -/
theorem Shadows.get?_expireSeen (shadows : Shadows id time a b) {now : ℚ} (later : a.clock ≤ now)
    {other : UUID} (ne : other ≠ id) :
    (a.node.expireSeen now).seenMessages.get? other =
      (b.node.expireSeen now).seenMessages.get? other := by
  apply Option.ext
  intro past
  rw [seenMessages_expireSeen, seenMessages_expireSeen,
    ReplayCache.get?_expire_eq_some_iff shadows.ordered,
    ReplayCache.get?_expire_eq_some_iff shadows.ordered']
  constructor
  · rintro ⟨present, young⟩
    exact ⟨(shadows.others other ne past (later.trans_lt young)).mp present, young⟩
  · rintro ⟨present, young⟩
    exact ⟨(shadows.others other ne past (later.trans_lt young)).mpr present, young⟩

/-- Two sessions that differ in what they have seen judge an envelope alike. -/
theorem judge_of_forget (same : a.forget = b.forget) (frame : Frame M) (e : TPCPEnvelope) :
    (a.node.judge (a.context frame) e).1.withSeen Dict.empty =
        (b.node.judge (b.context frame) e).1.withSeen Dict.empty ∧
      (a.node.judge (a.context frame) e).2 = (b.node.judge (b.context frame) e).2 := by
  have log : a.forget.log = b.forget.log := congrArg Session.log same
  have context : a.context frame = b.context frame := by
    change a.log = b.log at log
    rw [Session.context, Session.context, log]
  have node : a.forget.node = b.forget.node := congrArg Session.node same
  change a.node.withSeen Dict.empty = b.node.withSeen Dict.empty at node
  have judged := TPCPNode.judge_withSeen a.node Dict.empty (b.context frame) e
  rw [node, TPCPNode.judge_withSeen b.node Dict.empty (b.context frame) e] at judged
  obtain ⟨nodes, outcomes⟩ := Prod.mk.inj judged
  rw [context]
  exact ⟨nodes.symm, outcomes.symm⟩

/-- A frame that only the second session finds fresh, and that reaches no handler
there, is forgotten with what was seen. -/
theorem forget_receive_of_avoids (avoids : Avoids id s (.inbound frame))
    (parsed : TPCPNode.parsed frame.ambient frame.data = some e)
    (own : e.header.messageId = id) : (s.receive frame).forget = s.forget := by
  have refused : ∀ e handler, ¬ s.Accepted frame e handler := by
    intro e' handler accepted
    obtain rfl := Option.some.inj (parsed.symm.trans accepted.parsed)
    exact avoids frame e handler rfl accepted own
  obtain ⟨m, cached, result⟩ := receive_of_not_accepted refused
  obtain ⟨seen, rfl⟩ := cached.eq
  rw [result]
  rfl

/-- Sessions stay alike, up to what was seen, when their frames were judged alike. -/
theorem forget_judged (same : a.forget = b.forget) {n m : TPCPNode M} {outcome outcome' : Outcome}
    (nodes : n.withSeen Dict.empty = m.withSeen Dict.empty) (outcomes : outcome = outcome')
    {seen seen' : Dict UUID ℚ} {clock : ℚ} {received received' : List TPCPEnvelope} :
    forget { a with
        node := n.withSeen seen
        clock := clock
        received := received
        handled := a.handled ++ (invocation? frame outcome).toList } =
      forget { b with
        node := m.withSeen seen'
        clock := clock
        received := received'
        handled := b.handled ++ (invocation? frame outcome').toList } := by
  obtain ⟨node, key, log, clock, received, handled, calls⟩ := a
  obtain ⟨node', key', log', clock', received', handled', calls'⟩ := b
  simp only [forget, reseen, Session.mk.injEq, true_and] at same ⊢
  obtain ⟨-, keys, logs, handleds, callss⟩ := same
  exact ⟨nodes, keys, logs, by rw [handleds, outcomes], callss⟩

theorem Shadows.receive (shadows : Shadows id time a b) (later : a.clock ≤ frame.now)
    (young : frame.now < time + 300) (avoids : Avoids id b (.inbound frame)) :
    Shadows id time (a.receive frame) (b.receive frame) := by
  have later' : b.clock ≤ frame.now := shadows.later.trans later
  have expired : ReplayCache.Ordered frame.now (a.node.expireSeen frame.now).seenMessages :=
    (shadows.ordered.expire 300 frame.now).mono later
  have expired' : ReplayCache.Ordered frame.now (b.node.expireSeen frame.now).seenMessages :=
    (shadows.ordered'.expire 300 frame.now).mono later'
  have recorded : (a.node.expireSeen frame.now).seenMessages.get? id = some time := by
    rw [seenMessages_expireSeen, ReplayCache.get?_expire_eq_some_iff shadows.ordered]
    exact ⟨shadows.recorded, young⟩
  by_cases alive : ∃ e, TPCPNode.parsed frame.ambient frame.data = some e ∧ 0 < e.header.ttl
  · obtain ⟨e, parsed, live⟩ := alive
    have cache := seenMessages_receive_of_live (s := b) parsed live
    by_cases own : e.header.messageId = id
    · -- The first session drops the frame, and the second does not handle it.
      have kept : (b.receive frame).forget = b.forget :=
        forget_receive_of_avoids avoids parsed own
      rw [receive_of_seen (s := a) parsed live (own ▸ recorded)]
      refine ⟨shadows.same.trans kept.symm, le_rfl, expired, ?_, recorded, ?_⟩
      · change ReplayCache.Ordered frame.now (b.receive frame).node.seenMessages
        rw [cache]
        split_ifs with seen
        · exact expired'
        · exact expired'.record (Option.not_isSome_iff_eq_none.mp seen) le_rfl
      · intro other ne past _
        change (a.node.expireSeen frame.now).seenMessages.get? other = some past ↔ _
        rw [shadows.get?_expireSeen later ne, cache]
        split_ifs with seen
        · exact Iff.rfl
        · rw [seenMessages_remember, ← seenMessages_expireSeen,
            Dict.get?_set_of_ne (own ▸ ne)]
    · have look := shadows.get?_expireSeen later own
      cases known : (b.node.expireSeen frame.now).seenMessages.get? e.header.messageId with
      | some past =>
        -- A duplicate with and without the rejected envelope.
        rw [receive_of_seen parsed live (look.trans known), receive_of_seen parsed live known]
        refine ⟨shadows.same, le_rfl, expired, expired', recorded, ?_⟩
        intro other ne past _
        exact iff_of_eq (congrArg (· = some past) (shadows.get?_expireSeen later ne))
      | none =>
        -- Fresh with and without it, and judged alike.
        obtain ⟨nodes, outcomes⟩ := judge_of_forget shadows.same frame e
        rw [receive_of_fresh parsed live (look.trans known), receive_of_fresh parsed live known]
        refine ⟨?_, le_rfl, expired.record (look.trans known) le_rfl,
          expired'.record known le_rfl, ?_, ?_⟩
        · exact forget_judged shadows.same nodes outcomes
        · change (a.node.remember e frame.now).seenMessages.get? id = some time
          rw [seenMessages_remember, ← seenMessages_expireSeen, Dict.get?_set_of_ne (Ne.symm own)]
          exact recorded
        · intro other ne past _
          change (a.node.remember e frame.now).seenMessages.get? other = some past ↔
            (b.node.remember e frame.now).seenMessages.get? other = some past
          rw [seenMessages_remember, ← seenMessages_expireSeen, seenMessages_remember,
            ← seenMessages_expireSeen, Dict.get?_set, Dict.get?_set,
            shadows.get?_expireSeen later ne]
  · have dead : ∀ e, TPCPNode.parsed frame.ambient frame.data = some e → ¬ 0 < e.header.ttl :=
      fun e parsed live => alive ⟨e, parsed, live⟩
    rw [receive_of_not_live dead, receive_of_not_live dead]
    refine ⟨shadows.same, le_rfl, shadows.ordered.mono later, shadows.ordered'.mono later',
      shadows.recorded, ?_⟩
    intro other ne past young'
    exact shadows.others other ne past (later.trans_lt young')

/-- One event, with and without the rejected envelope. -/
theorem Shadows.next {a' b' : Session M} (shadows : Shadows id time a b)
    (step : a.next event = some a') (young : Within (time + 300) a event)
    (step' : b.next event = some b') (avoids : Avoids id b event) : Shadows id time a' b' := by
  -- Only a received frame reads the cache; what else happens is the same with any cache.
  by_cases inbound : ∃ frame, event = .inbound frame
  · obtain ⟨frame, rfl⟩ := inbound
    obtain ⟨later, step⟩ := Option.ite_none_right_eq_some.mp step
    obtain ⟨-, step'⟩ := Option.ite_none_right_eq_some.mp step'
    cases step
    cases step'
    exact shadows.receive later (young frame rfl) avoids
  · have notInbound : ∀ frame, event ≠ .inbound frame := fun frame same => inbound ⟨frame, same⟩
    obtain ⟨seen, clock, -, -⟩ := unchanged_of_next step notInbound
    obtain ⟨seen', clock', -, -⟩ := unchanged_of_next step' notInbound
    refine ⟨?_, ?_, ?_, ?_, ?_, ?_⟩
    · have forgotten := next_reseen a Dict.empty 0 [] notInbound
      have same : a.reseen Dict.empty 0 [] = b.reseen Dict.empty 0 [] := shadows.same
      rw [same, next_reseen b Dict.empty 0 [] notInbound, step, step'] at forgotten
      exact (Option.some.inj forgotten).symm
    · rw [clock, clock']
      exact shadows.later
    · rw [clock, seen]
      exact shadows.ordered
    · rw [clock', seen']
      exact shadows.ordered'
    · rw [seen]
      exact shadows.recorded
    · rw [clock, seen, seen']
      exact shadows.others

/-! ### Calls for the identifier -/

/-- The handler calls for an identifier. -/
def callsFor (s : Session M) (id : UUID) : List Invocation :=
  s.handled.filter fun i => i.messageId = id

/-- An event adds one handler call for the identifier, unless it avoids it. -/
theorem callsFor_of_next (id : UUID) (step : s.next event = some t) :
    Avoids id s event ∧ t.callsFor id = s.callsFor id ∨
      ¬ Avoids id s event ∧ (t.callsFor id).length = (s.callsFor id).length + 1 := by
  -- Only an accepted frame calls a handler, and it calls one.
  by_cases inbound : ∃ frame, event = .inbound frame
  · obtain ⟨frame, rfl⟩ := inbound
    obtain ⟨-, step⟩ := Option.ite_none_right_eq_some.mp step
    cases step
    by_cases accepted : ∃ e handler, s.Accepted frame e handler
    · obtain ⟨e, handler, accepted⟩ := accepted
      have handled : (s.receive frame).handled = s.handled ++ [⟨handler, e, frame.now⟩] := by
        rw [receive_of_accepted accepted]
      by_cases own : e.header.messageId = id
      · refine .inr ⟨fun avoids => avoids frame e handler rfl accepted own, ?_⟩
        simp [callsFor, handled, Invocation.messageId, own]
      · refine .inl ⟨?_, ?_⟩
        · intro frame' e' handler' same accepted'
          cases same
          obtain rfl := Option.some.inj (accepted.parsed.symm.trans accepted'.parsed)
          exact own
        · simp [callsFor, handled, Invocation.messageId, own]
    · obtain ⟨m, -, same⟩ :=
        receive_of_not_accepted fun e handler h => accepted ⟨e, handler, h⟩
      refine .inl ⟨?_, ?_⟩
      · intro frame' e' handler' same' accepted'
        cases same'
        exact absurd ⟨e', handler', accepted'⟩ accepted
      · rw [same]
        rfl
  · have handled := (unchanged_of_next step fun frame same => inbound ⟨frame, same⟩).handled
    refine .inl ⟨fun frame e handler same => absurd ⟨frame, same⟩ inbound, ?_⟩
    rw [callsFor, callsFor, handled]

/-- The cache has the identifier with its time, and no call for it was made. -/
structure Blocks (id : UUID) (time : ℚ) (calls : List Invocation) (s : Session M) : Prop where
  ordered : ReplayCache.Ordered s.clock s.node.seenMessages
  recorded : s.node.seenMessages.get? id = some time
  calls : s.callsFor id = calls

/-- Within the window a recorded identifier is not handled. -/
theorem Blocks.next {calls : List Invocation} (blocks : Blocks id time calls s)
    (step : s.next event = some t) (young : Within (time + 300) s event) :
    Blocks id time calls t := by
  -- While the record of the id is young, a frame with this id is not fresh.
  by_cases inbound : ∃ frame, event = .inbound frame
  · obtain ⟨frame, rfl⟩ := inbound
    have avoids : Avoids id s (.inbound frame) := by
      intro frame' e handler same accepted own
      cases same
      -- The purge of this frame keeps the record.
      have known : (s.node.expireSeen frame.now).seenMessages.get? id = some time := by
        rw [seenMessages_expireSeen, ReplayCache.get?_expire_eq_some_iff blocks.ordered]
        exact ⟨blocks.recorded, young frame rfl⟩
      have fresh : (s.node.expireSeen frame.now).seenMessages.get? e.header.messageId = none :=
        accepted.admitted.fresh
      rw [own, known] at fresh
      cases fresh
    obtain ⟨-, same⟩ : _ ∧ t.callsFor id = s.callsFor id :=
      (callsFor_of_next id step).resolve_right fun handled => handled.1 avoids
    obtain ⟨later, step⟩ := Option.ite_none_right_eq_some.mp step
    cases step
    obtain ⟨ordered, kept⟩ := ordered_receive blocks.ordered later
    exact ⟨ordered, kept id time blocks.recorded (young frame rfl), same.trans blocks.calls⟩
  · obtain ⟨seen, clock, -, handled⟩ :=
      unchanged_of_next step fun frame same => inbound ⟨frame, same⟩
    refine ⟨?_, ?_, ?_⟩
    · rw [clock, seen]
      exact blocks.ordered
    · rw [seen]
      exact blocks.recorded
    · rw [← blocks.calls, callsFor, callsFor, handled]

/-- A run that makes no more calls for the identifier avoids it. -/
theorem guarded_of_callsFor {events : List (SessionEvent M)}
    (run : Run (OfPartial Session.next) s events t) :
    (s.callsFor id).length ≤ (t.callsFor id).length ∧
      ((t.callsFor id).length ≤ (s.callsFor id).length →
        Run (Guarded (OfPartial Session.next) (Avoids id)) s events t) := by
  induction run with
  | nil => exact ⟨le_rfl, fun _ => .nil⟩
  | snoc before step ih =>
    obtain ⟨grows, guarded⟩ := ih
    rcases callsFor_of_next id step with ⟨avoids, same⟩ | ⟨-, more⟩
    · rw [same]
      exact ⟨grows, fun few => .snoc (guarded few) ⟨step, avoids⟩⟩
    · rw [more]
      exact ⟨by omega, fun few => absurd grows (by omega)⟩

/-! ### Rejected envelopes -/

/-- What a rejected envelope leaves: its identifier in the cache, and nothing else. -/
theorem receive_of_unauthenticated {outcome : Outcome}
    (parsed : TPCPNode.parsed frame.ambient frame.data = some e)
    (result : (s.node.processInbound (s.context frame) frame.data).2 = outcome)
    (rejected : outcome.isUnauthenticated = true) :
    (s.node.expireSeen frame.now).seenMessages.get? e.header.messageId = none ∧
      s.receive frame = s.reseen (s.node.remember e frame.now).seenMessages frame.now
        (s.received ++ [e]) := by
  have parsed' : TPCPNode.parsed (s.context frame).ambient frame.data = some e := parsed
  rw [TPCPNode.processInbound_of_parsed parsed'] at result
  have live : 0 < e.header.ttl := by
    by_contra dead
    have expired : s.node.processEnvelope (s.context frame) e = (s.node, .expired) :=
      if_pos (not_lt.mp dead)
    rw [expired] at result
    subst result
    cases rejected
  have fresh : (s.node.expireSeen frame.now).seenMessages.get? e.header.messageId = none := by
    cases known : (s.node.expireSeen frame.now).seenMessages.get? e.header.messageId with
    | none => rfl
    | some past =>
      rw [processEnvelope_of_seen (c := s.context frame) live known] at result
      subst result
      cases rejected
  rw [TPCPNode.processEnvelope_eq_judge (c := s.context frame) live fresh] at result
  refine ⟨fresh, ?_⟩
  rw [receive_of_fresh parsed live fresh]
  -- Only the signature check has such an outcome, and it returns the node as it is.
  cases check : s.node.authenticate s.log.verify e with
  | error outcome' =>
    have judged : s.node.judge (s.context frame) e = (s.node, outcome') := by
      have check' : s.node.authenticate (s.context frame).verify e = .error outcome' := check
      rw [TPCPNode.judge, check']
    rw [judged] at result ⊢
    have unhandled : ∀ handler raised, outcome' ≠ .handled handler raised := by
      rintro handler raised rfl
      subst result
      cases rejected
    simp [reseen, invocation?_eq_none unhandled]
  | ok =>
    have judged : s.node.judge (s.context frame) e = s.node.route (s.context frame) e := by
      have check' : s.node.authenticate (s.context frame).verify e = .ok () := check
      rw [TPCPNode.judge, check']
    rw [judged, TPCPNode.route_eq] at result
    split_ifs at result
    · split at result <;> (subst result; cases rejected)
    · subst result
      cases rejected

/-- In every reachable state, an envelope that the signature check rejects leaves the
handler calls of what follows within the window as they would be without it, exactly
when what follows has, without it, no frame with its identifier that reaches a handler. -/
theorem rejected_inert_iff {s₀ : Session M} {before events : List (SessionEvent M)}
    {outcome : Outcome} (unseen : s₀.node.seenMessages = Dict.empty)
    (run : Run (OfPartial Session.next) s₀ before s) (later : s.clock ≤ frame.now)
    (parsed : TPCPNode.parsed frame.ambient frame.data = some e)
    (result : (s.node.processInbound (s.context frame) frame.data).2 = outcome)
    (rejected : outcome.isUnauthenticated = true)
    (window : ∀ frame', .inbound frame' ∈ events → frame'.now < frame.now + 300)
    (withIt : Run (OfPartial Session.next) (s.receive frame) events a)
    (alone : Run (OfPartial Session.next) s events b) :
    a.handled = b.handled ↔
      Run (Guarded (OfPartial Session.next) (Avoids e.header.messageId)) s events b := by
  have ordered := (mirrors_of_run run unseen).ordered
  obtain ⟨fresh, left⟩ := receive_of_unauthenticated parsed result rejected
  have expired : ReplayCache.Ordered frame.now (s.node.expireSeen frame.now).seenMessages :=
    (ordered.expire 300 frame.now).mono later
  have ordered' : ReplayCache.Ordered (s.receive frame).clock
      (s.receive frame).node.seenMessages := (ordered_receive ordered later).1
  have recorded : (s.receive frame).node.seenMessages.get? e.header.messageId =
      some frame.now := by
    rw [left]
    exact Dict.get?_set_self _ _ _
  have young : ∀ event ∈ events, ∀ frame', event = .inbound frame' →
      frame'.now < frame.now + 300 := by
    rintro event member frame' rfl
    exact window frame' member
  constructor
  · intro same
    -- The call that the recorded identifier blocks would be missing.
    have blocks : Blocks e.header.messageId frame.now (s.callsFor e.header.messageId) a := by
      refine (withIt.guarded_of_mem young).invariant (fun _ _ _ before step =>
        before.next step.1 step.2) ⟨ordered', recorded, ?_⟩
      rw [left]
      rfl
    have calls : b.callsFor e.header.messageId = s.callsFor e.header.messageId := by
      rw [← blocks.calls, callsFor, callsFor, same]
    exact (guarded_of_callsFor alone).2 (by rw [calls])
  · intro avoids
    have initially : Shadows e.header.messageId frame.now (s.receive frame) s := by
      refine ⟨by rw [left]; rfl, ?_, ordered', ordered, recorded, ?_⟩
      · rw [left]
        exact later
      · intro other ne past young
        rw [left] at young ⊢
        change (s.node.remember e frame.now).seenMessages.get? other = some past ↔ _
        rw [seenMessages_remember, Dict.get?_set_of_ne ne,
          ReplayCache.get?_expire_eq_some_iff ordered]
        exact and_iff_left young
    have shadows : Shadows e.header.messageId frame.now a b :=
      (withIt.guarded_of_mem young).invariant_pair
        (fun _ _ _ _ _ related step step' => related.next step.1 step.2 step'.1 step'.2)
        avoids initially
    exact shadows.handled

/-- A task request that the agent signed. -/
def task (id : Fin (2 ^ 32)) : TPCPEnvelope := message id .taskRequest "summarize" 1

/-- A task request in the agent's name, with the identifier of another one. -/
def forgery : TPCPEnvelope := message 10 .taskRequest "wire the funds" 2

/-- The host once the agent has signed its request. -/
def awaiting : Session Unit :=
  host.sign ⟨List.replicate 32 1, canonical (task 10).payload.modelDump, [1]⟩

theorem awaiting_run : Run (OfPartial Session.next) host
    [.sign ⟨List.replicate 32 1, canonical (task 10).payload.modelDump, [1]⟩] awaiting :=
  .single rfl

theorem task_accepted (id : Fin (2 ^ 32)) :
    awaiting.Accepted (deliver 2 (task id)) (task id) (.custom 0) :=
  accepted_message host_registeredKey? (by decide) (List.mem_singleton.mpr rfl) rfl rfl rfl

theorem forgery_rejected :
    (awaiting.node.processInbound (awaiting.context (deliver 1 forgery))
      (deliver 1 forgery).data).2 = .invalidSignature := by
  have parsed : TPCPNode.parsed (awaiting.context (deliver 1 forgery)).ambient
      (deliver 1 forgery).data = some forgery := parsed_deliver 1 _ _ _ _
  have live : 0 < forgery.header.ttl := Nat.zero_lt_succ 29
  have unverified : TPCPNode.verifies awaiting.log.verify peer.publicKey (Base64.encode [2])
      forgery = false := by
    rw [TPCPNode.verifies, AgentIdentityManager.verifySignature, peer,
      AgentIdentityManager.verifyBytes_encode (by decide)]
    exact decide_eq_false (by simp [awaiting, host, init])
  have signed : forgery.signature? = some (Base64.encode [2]) := signature?_message _ _ _ _
  have registered : awaiting.node.peerRegistry.get? forgery.header.senderId =
      some (peer, "ws://10.0.0.1") := by decide
  rw [TPCPNode.processInbound_of_parsed parsed,
    TPCPNode.processEnvelope_eq_judge (c := awaiting.context (deliver 1 forgery)) live rfl,
    TPCPNode.judge]
  have check : awaiting.node.authenticate (awaiting.context (deliver 1 forgery)).verify forgery =
      .error .invalidSignature := by
    rw [TPCPNode.authenticate, if_pos (by decide), registered]
    simp only [signed]
    exact if_neg (ne_true_of_eq_false unverified)
  rw [check]

/-- The host after the forged request. -/
theorem receive_forgery : awaiting.receive (deliver 1 forgery) =
    awaiting.reseen (awaiting.node.remember forgery 1).seenMessages 1 [forgery] :=
  (receive_of_unauthenticated (parsed_deliver 1 _ _ _ _) forgery_rejected rfl).2

/-- A request with another identifier is handled all the same. -/
theorem rejected_inert_iff_other :
    ∃ a b, Run (OfPartial Session.next) (awaiting.receive (deliver 1 forgery))
        [.inbound (deliver 2 (task 11))] a ∧
      Run (OfPartial Session.next) awaiting [.inbound (deliver 2 (task 11))] b ∧
      a.handled = b.handled := by
  have earlier : (awaiting.receive (deliver 1 forgery)).clock ≤ 2 := by
    rw [receive_forgery]
    exact one_le_two
  have withIt : Run (OfPartial Session.next) (awaiting.receive (deliver 1 forgery))
      [.inbound (deliver 2 (task 11))] _ := .single (next_inbound earlier)
  have alone : Run (OfPartial Session.next) awaiting [.inbound (deliver 2 (task 11))] _ :=
    .single (next_inbound zero_le_two)
  -- Both frames come within the 300 s that a record is kept.
  have young : ∀ frame, SessionEvent.inbound frame ∈ [SessionEvent.inbound (deliver 2 (task 11))] →
      frame.now < (deliver 1 forgery).now + 300 := by
    intro frame member
    cases List.mem_singleton.mp member
    change (2 : ℚ) < 1 + 300
    norm_num
  have same := rejected_inert_iff rfl awaiting_run (zero_le_one : (0 : ℚ) ≤ 1)
    (parsed_deliver 1 _ _ _ _) forgery_rejected rfl young withIt alone
  refine ⟨_, _, withIt, alone, same.mpr (.single ⟨next_inbound zero_le_two, ?_⟩)⟩
  intro frame e handler event accepted
  cases event
  obtain rfl := Option.some.inj ((parsed_deliver 2 _ _ _ _).symm.trans accepted.parsed)
  decide

/-- A forged request makes the host drop the genuine one with its identifier. -/
theorem rejected_not_inert :
    ∃ a b, Run (OfPartial Session.next) host
        [.sign ⟨List.replicate 32 1, canonical (task 10).payload.modelDump, [1]⟩] awaiting ∧
      (awaiting.node.processInbound (awaiting.context (deliver 1 forgery))
        (deliver 1 forgery).data).2 = .invalidSignature ∧
      (deliver 2 (task 10)).now < (deliver 1 forgery).now + 300 ∧
      Run (OfPartial Session.next) (awaiting.receive (deliver 1 forgery))
        [.inbound (deliver 2 (task 10))] a ∧
      Run (OfPartial Session.next) awaiting [.inbound (deliver 2 (task 10))] b ∧
      a.handled = [] ∧ b.handled = [⟨.custom 0, task 10, 2⟩] := by
  have earlier : (awaiting.receive (deliver 1 forgery)).clock ≤ 2 := by
    rw [receive_forgery]
    exact one_le_two
  have live : 0 < (task 10).header.ttl := Nat.zero_lt_succ 29
  refine ⟨_, _, awaiting_run, forgery_rejected, ?_, .single (next_inbound earlier),
    .single (next_inbound zero_le_two), ?_, ?_⟩
  · change (2 : ℚ) < 1 + 300
    norm_num
  -- The forgery was rejected but its id is recorded, so the task with that id is a duplicate.
  · have known : ((awaiting.receive (deliver 1 forgery)).node.expireSeen
        (deliver 2 (task 10)).now).seenMessages.get? (task 10).header.messageId = some 1 := by
      rw [receive_forgery]
      decide +kernel
    have parsed : TPCPNode.parsed (deliver 2 (task 10)).ambient (deliver 2 (task 10)).data =
        some (task 10) := parsed_deliver 2 _ _ _ _
    rw [receive_of_seen parsed live known, receive_forgery]
    rfl
  · rw [receive_of_accepted (task_accepted 10)]
    rfl

end Session

end AgentTelepathy
