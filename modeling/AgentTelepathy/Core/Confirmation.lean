import AgentTelepathy.Core.Pinning

/-!
# Delivery confirmations

A call of `send_message` that waits for an acknowledgement returns once its
future has a result. The future is found by the identifier that the metadata of
an ACK names, which the signature check does not cover, and the sender of the ACK
is not compared with the target of the call. So a call to a target returns only on
the target's word in runs in which no ACK completes such a call before an ACK came
from the target with a signature that covers the identifier.
-/

namespace AgentTelepathy

open Foundation Foundation.Transition

/-- An ACK of the target whose signature under the target's key covers metadata
with the identifier. -/
structure Confirms (log : SignatureLog) (target : UUID) (key : String) (messageId : UUID)
    (ack : TPCPEnvelope) : Prop where
  intent : ack.header.intent = .ack
  sender : ack.header.senderId = target
  binds : ∃ signature members, ack.signature = some signature ∧
    ("ack_info", AckInfo.toJson ⟨messageId⟩) ∈ members ∧
      AgentIdentityManager.verifySignature log.verify key signature (.obj members) = true

theorem Confirms.mono {log later : SignatureLog} {target : UUID} {key : String}
    {messageId : UUID} {ack : TPCPEnvelope}
    (confirms : Confirms log target key messageId ack) (grows : log ⊆ later) :
    Confirms later target key messageId ack := by
  obtain ⟨signature, members, signed, named, verified⟩ := confirms.binds
  exact ⟨confirms.intent, confirms.sender, signature, members, signed, named,
    SignatureLog.verifyBytes_mono grows verified⟩

namespace TPCPNode

variable {M : Type} {n m : TPCPNode M} {fut k : ℕ} {value : Future} {e : TPCPEnvelope}

/-! ### Futures -/

@[simp] theorem length_complete (n : TPCPNode M) (fut : ℕ) (value : Future) :
    (n.complete fut value).futures.length = n.futures.length := by
  rw [complete]
  split_ifs
  · rfl
  · exact List.length_set

/-- Completing a future changes that future only, and only if it was pending. -/
theorem getElem?_complete (n : TPCPNode M) (fut : ℕ) (value : Future) (k : ℕ) :
    (n.complete fut value).futures[k]? = n.futures[k]? ∨
      k = fut ∧ n.futures[fut]? = some .pending ∧
        (n.complete fut value).futures[k]? = some value := by
  rw [complete]
  split_ifs with completed
  · exact .inl rfl
  · by_cases same : k = fut
    · subst same
      cases found : n.futures[k]? with
      | none => simp [found] at completed
      | some future =>
        have bound : k < n.futures.length := (List.getElem?_eq_some_iff.mp found).1
        cases future with
        | pending => exact .inr ⟨rfl, rfl, by rw [List.getElem?_set_self bound]⟩
        | result e => simp [found, Future.done] at completed
        | exception text => simp [found, Future.done] at completed
        | cancelled => simp [found, Future.done] at completed
    · exact .inl (List.getElem?_set_ne (Ne.symm same))

/-- The results among the later futures were there before, and no future was created. -/
structure Wanes (before after : List Future) : Prop where
  length : after.length = before.length
  results : ∀ (k : ℕ) e, after[k]? = some (Future.result e) → before[k]? = some (Future.result e)

theorem Wanes.refl (futures : List Future) : Wanes futures futures := ⟨rfl, fun _ _ found => found⟩

theorem Wanes.trans {before between after : List Future} (first : Wanes before between)
    (second : Wanes between after) : Wanes before after :=
  ⟨second.length.trans first.length, fun k e found => first.results k e (second.results k e found)⟩

theorem wanes_complete (n : TPCPNode M) (fut : ℕ) (notResult : ∀ e, value ≠ Future.result e) :
    Wanes n.futures (n.complete fut value).futures := by
  refine ⟨length_complete n fut value, ?_⟩
  intro k e found
  rcases getElem?_complete n fut value k with same | ⟨-, -, new⟩
  · rw [← same]
    exact found
  · rw [new] at found
    exact absurd (Option.some.inj found) (notResult e)

theorem wanes_stopListening (n : TPCPNode M) : Wanes n.futures n.stopListening.futures := by
  have folded (entries : List (UUID × ℕ)) (m : TPCPNode M) : Wanes m.futures
      (entries.foldl (fun n entry => n.complete entry.2 .cancelled) m).futures := by
    induction entries generalizing m with
    | nil => exact Wanes.refl m.futures
    | cons entry entries ih => exact (wanes_complete m entry.2 (by simp)).trans (ih _)
  exact folded n.pendingAcks.items n

/-- What settling does: nothing, or it completes the future of the acknowledged
message, which is pending no longer. -/
theorem settle_cases (n : TPCPNode M) (e : TPCPEnvelope) (value : UUID → Future) :
    n.settle e value = n ∨ ∃ info fut, e.ackInfo = some info ∧
      n.pendingAcks.get? info.ackedMessageId = some fut ∧
      n.settle e value =
        { n with pendingAcks := n.pendingAcks.erase info.ackedMessageId }.complete fut
          (value info.ackedMessageId) := by
  unfold settle
  split
  · exact .inl rfl
  · rename_i info named
    split
    · exact .inl rfl
    · rename_i fut pending
      exact .inr ⟨info, fut, named, pending, rfl⟩

end TPCPNode

namespace Session

variable {M : Type} {s t : Session M} {target : UUID} {key : String} {event : SessionEvent M}

/-- No ACK completes a call to the target, unless an ACK that confirms the call has
been received, be it this one. -/
def Vouched (target : UUID) (key : String) (s : Session M) : SessionEvent M → Prop
  | .inbound frame => ∀ e info fut (call : Call), s.Accepted frame e .handleAck →
      e.ackInfo = some info → s.node.pendingAcks.get? info.ackedMessageId = some fut →
        s.node.futures[fut]? = some .pending → s.calls[fut]? = some call → call.target = target →
          ∃ ack ∈ s.received ++ [e], Confirms s.log target key call.messageId ack
  | _ => True

/-- Each call has its future, pending messages are those of calls, and calls to the
target that returned were confirmed. -/
structure Confirmed (target : UUID) (key : String) (s : Session M) : Prop where
  counted : s.node.futures.length = s.calls.length
  pending : ∀ id fut, s.node.pendingAcks.get? id = some fut →
    ∃ call, s.calls[fut]? = some call ∧ call.messageId = id
  returned : ∀ (fut : ℕ) (call : Call) e, s.calls[fut]? = some call → call.target = target →
    s.node.futures[fut]? = some (Future.result e) →
      ∃ ack ∈ s.received, Confirms s.log target key call.messageId ack

/-! ### Steps -/

/-- Where futures only wane, what returned was confirmed before. -/
theorem Confirmed.wane (confirmed : Confirmed target key s)
    (wanes : TPCPNode.Wanes s.node.futures t.node.futures)
    (pending : ∀ id fut, t.node.pendingAcks.get? id = some fut →
      s.node.pendingAcks.get? id = some fut)
    (calls : t.calls = s.calls) (received : s.received ⊆ t.received) (grows : s.log ⊆ t.log) :
    Confirmed target key t := by
  refine ⟨?_, ?_, ?_⟩
  · rw [wanes.length, calls, confirmed.counted]
  · intro id fut found
    rw [calls]
    exact confirmed.pending id fut (pending id fut found)
  · intro fut call e called ofTarget result
    rw [calls] at called
    obtain ⟨ack, member, confirms⟩ :=
      confirmed.returned fut call e called ofTarget (wanes.results fut e result)
    exact ⟨ack, received member, confirms.mono grows⟩

/-- An ACK completes the future of a call to the target only if the call is confirmed. -/
theorem Confirmed.ack {frame : Frame M} {e : TPCPEnvelope} (confirmed : Confirmed target key s)
    (accepted : s.Accepted frame e .handleAck) (vouched : Vouched target key s (.inbound frame)) :
    Confirmed target key (s.receive frame) := by
  have ran : ((s.node.remember e frame.now).runHandler (s.context frame) e .handleAck).1 =
      (s.node.remember e frame.now).settle e fun _ => .result e := rfl
  rw [receive_of_accepted accepted, ran]
  rcases TPCPNode.settle_cases (s.node.remember e frame.now) e fun _ => .result e with
    same | ⟨info, fut, named, pending, same⟩
  · rw [same]
    exact confirmed.wane (TPCPNode.Wanes.refl s.node.futures) (fun _ _ found => found) rfl
      (List.subset_append_left _ _) (List.Subset.refl _)
  · rw [same]
    refine ⟨?_, ?_, ?_⟩
    · rw [TPCPNode.length_complete]
      exact confirmed.counted
    · intro id k found
      exact confirmed.pending id k (Dict.get?_of_get?_erase found)
    · intro k call e' called ofTarget result
      rcases TPCPNode.getElem?_complete _ fut (.result e) k with old | ⟨rfl, waiting, -⟩
      · rw [old] at result
        obtain ⟨ack, member, confirms⟩ := confirmed.returned k call e' called ofTarget result
        exact ⟨ack, List.mem_append_left _ member, confirms⟩
      · -- The call that this ACK completes.
        exact vouched e info k call accepted named pending waiting called ofTarget

/-- A NACK completes no call with a result. -/
theorem Confirmed.nack {frame : Frame M} {e : TPCPEnvelope} (confirmed : Confirmed target key s)
    (accepted : s.Accepted frame e .handleNack) : Confirmed target key (s.receive frame) := by
  have ran : ((s.node.remember e frame.now).runHandler (s.context frame) e .handleNack).1 =
      (s.node.remember e frame.now).handleNack e := rfl
  rw [receive_of_accepted accepted, ran, TPCPNode.handleNack]
  rcases TPCPNode.settle_cases (s.node.remember e frame.now) e fun id =>
    .exception ("NACK received for message " ++ id.toText) with
    same | ⟨info, fut, named, pending, same⟩
  · rw [same]
    exact confirmed.wane (TPCPNode.Wanes.refl s.node.futures) (fun _ _ found => found) rfl
      (List.subset_append_left _ _) (List.Subset.refl _)
  · rw [same]
    refine confirmed.wane ?_ ?_ rfl (List.subset_append_left _ _) (List.Subset.refl _)
    · exact TPCPNode.wanes_complete _ fut (by simp)
    · exact fun id k found => Dict.get?_of_get?_erase found

theorem Confirmed.receive {frame : Frame M} (confirmed : Confirmed target key s)
    (vouched : Vouched target key s (.inbound frame)) :
    Confirmed target key (s.receive frame) := by
  by_cases accepted : ∃ e handler, s.Accepted frame e handler
  · obtain ⟨e, handler, accepted⟩ := accepted
    by_cases isAck : handler = .handleAck
    · subst isAck
      exact confirmed.ack accepted vouched
    by_cases isNack : handler = .handleNack
    · subst isNack
      exact confirmed.nack accepted
    -- Every other handler leaves the pending acknowledgements alone.
    obtain ⟨pending, futures⟩ := TPCPNode.pendingAcks_runHandler_of_ne
      (n := s.node.remember e frame.now) (c := s.context frame) (e := e) isAck isNack
    rw [receive_of_accepted accepted]
    refine confirmed.wane ?_ ?_ rfl (List.subset_append_left _ _) (List.Subset.refl _)
    · rw [futures]
      exact TPCPNode.Wanes.refl s.node.futures
    · intro id fut found
      rwa [pending] at found
  · obtain ⟨m, cached, same⟩ :=
      receive_of_not_accepted fun e handler h => accepted ⟨e, handler, h⟩
    obtain ⟨seen, rfl⟩ := cached.eq
    rw [same]
    exact confirmed.wane (TPCPNode.Wanes.refl s.node.futures) (fun _ _ found => found) rfl
      (List.subset_append_left _ _) (List.Subset.refl _)

/-- A new call waits for a new future. -/
theorem Confirmed.send (confirmed : Confirmed target key s) (request : Request) :
    Confirmed target key (s.send request) := by
  unfold Session.send
  split
  · exact confirmed
  · rename_i node e sent
    obtain ⟨rfl, rfl⟩ := sendMessage_ok sent
    -- With `require_ack` the call waits on a new future.
    by_cases waits : request.requireAck = true
    · rw [if_pos waits, if_pos waits]
      refine ⟨?_, ?_, ?_⟩
      · change (s.node.futures ++ [Future.pending]).length =
          (s.calls ++ [(⟨request.target, request.ambient.uuid4⟩ : Call)]).length
        rw [List.length_append, List.length_append, confirmed.counted]
        rfl
      · intro id fut found
        have found' : (s.node.pendingAcks.set request.ambient.uuid4 s.node.futures.length).get? id =
            some fut := found
        rw [Dict.get?_set] at found'
        split_ifs at found' with new
        · obtain rfl := Option.some.inj found'
          refine ⟨⟨request.target, request.ambient.uuid4⟩, ?_, new.symm⟩
          rw [confirmed.counted]
          exact List.getElem?_concat_length
        · obtain ⟨call, called, named⟩ := confirmed.pending id fut found'
          exact ⟨call, List.getElem?_append_left
            (List.getElem?_eq_some_iff.mp called).1 ▸ called, named⟩
      · intro fut call e called ofTarget result
        have called' : (s.calls ++ [⟨request.target, request.ambient.uuid4⟩])[fut]? = some call :=
          called
        have result' : (s.node.futures ++ [Future.pending])[fut]? = some (Future.result e) := result
        by_cases old : fut < s.calls.length
        · rw [List.getElem?_append_left old] at called'
          rw [List.getElem?_append_left (confirmed.counted.symm ▸ old)] at result'
          obtain ⟨ack, member, confirms⟩ := confirmed.returned fut call e called' ofTarget result'
          exact ⟨ack, member, confirms.mono (List.subset_append_left _ _)⟩
        · -- The new future is pending.
          rw [List.getElem?_append_right (confirmed.counted ▸ not_lt.mp old)] at result'
          have last := List.mem_of_getElem? result'
          rw [List.mem_singleton] at last
          cases last
    · rw [if_neg waits, if_neg waits]
      exact confirmed.wane (TPCPNode.Wanes.refl s.node.futures) (fun _ _ found => found) rfl
        (List.Subset.refl _) (List.subset_append_left _ _)

theorem Confirmed.next (confirmed : Confirmed target key s) (step : s.next event = some t)
    (vouched : Vouched target key s event) : Confirmed target key t := by
  -- Only a received frame can resolve a future, and only a send creates one.
  cases event with
  | inbound frame =>
    obtain ⟨-, step⟩ := Option.ite_none_right_eq_some.mp step
    cases step
    exact confirmed.receive vouched
  | send request =>
    cases step
    exact confirmed.send request
  | sign signing =>
    cases step
    exact confirmed.wane (TPCPNode.Wanes.refl s.node.futures) (fun _ _ found => found) rfl
      (List.Subset.refl _) (List.subset_append_left _ _)
  | timeOut i =>
    obtain ⟨call, -, rfl⟩ := Option.map_eq_some_iff.mp step
    refine confirmed.wane ?_ ?_ rfl (List.Subset.refl _) (List.Subset.refl _)
    · exact TPCPNode.wanes_complete s.node i (by simp)
    · exact fun id fut found => Dict.get?_of_get?_erase found
  | cancel i =>
    obtain ⟨call, -, rfl⟩ := Option.map_eq_some_iff.mp step
    exact confirmed.wane (TPCPNode.wanes_complete s.node i (by simp)) (fun _ _ found => found) rfl
      (List.Subset.refl _) (List.Subset.refl _)
  | stopListening =>
    cases step
    refine confirmed.wane (TPCPNode.wanes_stopListening s.node) ?_ rfl (List.Subset.refl _)
      (List.Subset.refl _)
    intro id fut found
    cases found
  | registerPeer | removePeer | registerHandler | setPolicy =>
    cases step
    exact confirmed.wane (TPCPNode.Wanes.refl s.node.futures) (fun _ _ found => found) rfl
      (List.Subset.refl _) (List.Subset.refl _)

/-! ### Runs -/

/-- In every run in which no ACK completes a call to the target before one that
confirms the call was received, every call to the target that returned was confirmed
by the target. -/
theorem returned_confirmed {node : TPCPNode M} {ownKey : Bytes} {events : List (SessionEvent M)}
    (run : Run (Guarded (OfPartial Session.next) (Vouched target key)) (init node ownKey) events t)
    (idle : node.pendingAcks = Dict.empty) (noFutures : node.futures = []) :
    ∀ (fut : ℕ) (call : Call) e, t.calls[fut]? = some call → call.target = target →
      t.node.futures[fut]? = some (Future.result e) →
        ∃ ack ∈ t.received, Confirms t.log target key call.messageId ack := by
  have start : Confirmed target key (init node ownKey) := by
    refine ⟨congrArg List.length noFutures, ?_, ?_⟩
    · intro id fut found
      have none : node.pendingAcks.get? id = some fut := found
      rw [idle] at none
      cases none
    · intro fut call e called
      cases called
  have confirmed : Confirmed target key t :=
    run.invariant (fun _ _ _ before step => before.next step.1 step.2) start
  exact confirmed.returned

/-! ### Confirmations by others -/

/-- The target of a call, and a node that has registered it and another agent. -/
def addressee : AgentIdentity :=
  ⟨⟨5, 0, 0, 0, 0⟩, "CrewAI", [], Base64.encode (List.replicate 32 5), []⟩

def asker : Session Unit :=
  init (((TPCPNode.init ⟨⟨2, 0, 0, 0, 0⟩, "CrewAI", [], Base64.encode (List.replicate 32 3), []⟩
    false none ()).registerPeer peer "ws://10.0.0.1").registerPeer addressee "ws://10.0.0.5")
    (List.replicate 32 3)

/-- A call to the target that waits for an acknowledgement. -/
def question : Request where
  ambient := Ambient.strict ⟨40, 0, 0, 0, 0⟩ ⟨2026, 3, 1, 12, 0, 0, 0, DateTime.valid_noon⟩
  signature := [9]
  target := addressee.agentId
  intent := .taskRequest
  payload := .text ⟨"summarize", "en"⟩
  requireAck := true
  chunkInfo := none

/-- An ACK for the call by some sender. -/
def acknowledgement (sender : UUID) : TPCPEnvelope where
  header := ⟨⟨20, 0, 0, 0, 0⟩, ⟨2026, 3, 1, 12, 0, 0, 0, DateTime.valid_noon⟩, sender, UUID.nil,
    .ack, 30, protocolVersion⟩
  payload := .text ⟨"OK", "en"⟩
  signature := some (Base64.encode [1])
  ackInfo := some ⟨⟨40, 0, 0, 0, 0⟩⟩
  chunkInfo := none

/-- What is signed for an ACK with its metadata. -/
def acknowledged : List (String × Json) :=
  (Payload.text ⟨"OK", "en"⟩).modelDumpItems ++ [("ack_info", AckInfo.toJson ⟨⟨40, 0, 0, 0, 0⟩⟩)]

/-- The holder of a key signs an ACK without and with its metadata, and it arrives. -/
def answered (sender : UUID) (key : Bytes) : List (SessionEvent Unit) :=
  [.send question, .sign ⟨key, canonical (Payload.text ⟨"OK", "en"⟩).modelDump, [1]⟩,
    .sign ⟨key, canonical (.obj acknowledged), [1]⟩, .inbound (deliver 1 (acknowledgement sender))]

/-- The node before the ACK arrives. -/
def asking (key : Bytes) : Session Unit :=
  ((asker.send question).sign ⟨key, canonical (Payload.text ⟨"OK", "en"⟩).modelDump, [1]⟩).sign
    ⟨key, canonical (.obj acknowledged), [1]⟩

theorem acknowledgement_accepted {sender : UUID} {key : Bytes}
    (registered : asker.registeredKey? sender = some (Base64.encode key))
    (length : key.length = 32) :
    (asking key).Accepted (deliver 1 (acknowledgement sender)) (acknowledgement sender)
      .handleAck := by
  have signed : (acknowledgement sender).signature? = some (Base64.encode [1]) :=
    TPCPNode.signature?_eq_some rfl (Base64.encode_ne_empty (List.cons_ne_nil 1 []))
  have logged : (⟨key, canonical (acknowledgement sender).payload.modelDump, [1]⟩ : Signing) ∈
      (asking key).log := by
    rw [asking, log_sign, log_sign]
    exact List.mem_append_left _ (List.mem_append_right _ (List.mem_singleton.mpr rfl))
  have unchanged : (asking key).registeredKey? sender = asker.registeredKey? sender := by
    rw [asking, registeredKey?_sign, registeredKey?_sign, registeredKey?, peerRegistry_send]
    rfl
  exact accepted_of_toJson rfl rfl (Nat.zero_lt_succ 29) rfl
    (authenticate_of_logged (unchanged.trans registered) length signed logged) rfl rfl

theorem answered_run (sender : UUID) (key : Bytes) : Run (OfPartial next) asker
    (answered sender key) ((asking key).receive (deliver 1 (acknowledgement sender))) :=
  .snoc (.snoc (.snoc (.single rfl) rfl) rfl) (next_inbound zero_le_one)

/-- The ACK completes the call. -/
theorem answered_result {sender : UUID} {key : Bytes}
    (accepted : (asking key).Accepted (deliver 1 (acknowledgement sender)) (acknowledgement sender)
      .handleAck) :
    let t := (asking key).receive (deliver 1 (acknowledgement sender))
    t.calls = [⟨addressee.agentId, ⟨40, 0, 0, 0, 0⟩⟩] ∧
      t.node.futures = [Future.result (acknowledgement sender)] ∧
      t.received = [acknowledgement sender] := by
  intro t
  have received : t = _ := receive_of_accepted accepted
  rw [received]
  exact ⟨rfl, rfl, rfl⟩

/-- The target's ACK confirms the call when its signature covers the metadata, too. -/
theorem acknowledgement_confirms :
    Confirms (asking (List.replicate 32 5)).log addressee.agentId addressee.publicKey
      ⟨40, 0, 0, 0, 0⟩ (acknowledgement addressee.agentId) := by
  refine ⟨rfl, rfl, Base64.encode [1], acknowledged, rfl, ?_, ?_⟩
  · exact List.mem_append_right _ (List.mem_singleton.mpr rfl)
  · rw [addressee, AgentIdentityManager.verifySignature,
      AgentIdentityManager.verifyBytes_encode (by decide)]
    apply decide_eq_true
    rw [asking, log_sign]
    exact List.mem_append_right _ (List.mem_singleton.mpr rfl)

theorem addressee_registered :
    asker.registeredKey? addressee.agentId = some (Base64.encode (List.replicate 32 5)) := by
  decide

theorem answered_vouched : Vouched addressee.agentId addressee.publicKey
    (asking (List.replicate 32 5)) (.inbound (deliver 1 (acknowledgement addressee.agentId))) := by
  have accepted := acknowledgement_accepted addressee_registered (by decide)
  intro e info fut call other named pending waiting called ofTarget
  obtain rfl : acknowledgement addressee.agentId = e :=
    Option.some.inj (accepted.parsed.symm.trans other.parsed)
  have calls : (asking (List.replicate 32 5)).calls =
      [⟨addressee.agentId, ⟨40, 0, 0, 0, 0⟩⟩] := rfl
  rw [calls] at called
  obtain rfl := List.mem_singleton.mp (List.mem_of_getElem? called)
  exact ⟨_, List.mem_append_right _ (List.mem_singleton.mpr rfl), acknowledgement_confirms⟩

theorem returned_confirmed_answered :
    ∃ t, Run (OfPartial next) asker (answered addressee.agentId (List.replicate 32 5)) t ∧
      t.calls = [⟨addressee.agentId, ⟨40, 0, 0, 0, 0⟩⟩] ∧
      t.node.futures = [Future.result (acknowledgement addressee.agentId)] ∧
      ∃ ack ∈ t.received,
        Confirms t.log addressee.agentId addressee.publicKey ⟨40, 0, 0, 0, 0⟩ ack := by
  have run : Run (Guarded (OfPartial next) (Vouched addressee.agentId addressee.publicKey)) asker
      (answered addressee.agentId (List.replicate 32 5))
      ((asking (List.replicate 32 5)).receive (deliver 1 (acknowledgement addressee.agentId))) := by
    refine .snoc (.snoc (.snoc (.single ⟨rfl, trivial⟩) ⟨rfl, trivial⟩) ⟨rfl, trivial⟩) ?_
    exact ⟨next_inbound zero_le_one, answered_vouched⟩
  obtain ⟨calls, futures, -⟩ :=
    answered_result (acknowledgement_accepted addressee_registered (by decide))
  have called : ((asking (List.replicate 32 5)).receive
      (deliver 1 (acknowledgement addressee.agentId))).calls[0]? =
        some ⟨addressee.agentId, ⟨40, 0, 0, 0, 0⟩⟩ := by
    rw [calls]
    rfl
  have result : ((asking (List.replicate 32 5)).receive
      (deliver 1 (acknowledgement addressee.agentId))).node.futures[0]? =
        some (Future.result (acknowledgement addressee.agentId)) := by
    rw [futures]
    rfl
  exact ⟨_, run.of_guarded, calls, futures, returned_confirmed run rfl rfl 0 _ _ called rfl result⟩

/-- An ACK of another agent completes the call, and the target sent nothing at all. -/
theorem returned_on_other_ack :
    ∃ t, Run (OfPartial next) asker (answered peer.agentId (List.replicate 32 1)) t ∧
      t.calls = [⟨addressee.agentId, ⟨40, 0, 0, 0, 0⟩⟩] ∧
      t.node.futures = [Future.result (acknowledgement peer.agentId)] ∧
      ∀ e ∈ t.received, e.header.senderId ≠ addressee.agentId := by
  have registered : asker.registeredKey? peer.agentId =
      some (Base64.encode (List.replicate 32 1)) := by
    decide
  obtain ⟨calls, futures, received⟩ :=
    answered_result (acknowledgement_accepted registered (by decide))
  refine ⟨_, answered_run peer.agentId (List.replicate 32 1), calls, futures, ?_⟩
  intro e member
  rw [received, List.mem_singleton] at member
  subst member
  decide

end Session

end AgentTelepathy
