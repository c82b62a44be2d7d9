import AgentTelepathy.Core.Confirmation
import AgentTelepathy.Foundation.Owners

/-!
# Pending acknowledgements

A call of `send_message` that requires an acknowledgement puts its future into
`_pending_acks`, dispatches the message, and waits for the future. An ACK or a NACK takes
the entry out, and so do `stop_listening` and a wait that times out. A call that is
cancelled, or whose dispatch raises, leaves the entry there for good.
-/

namespace AgentTelepathy

open Foundation Foundation.Transition

/-- How a call ends: it returns, raises what a NACK has set, times out, raises what the
dispatch raised, or is cancelled. -/
inductive CallEnding
  | returned (ack : TPCPEnvelope)
  | refused (message : String)
  | timedOut
  | failed
  | cancelled
deriving DecidableEq

/-- Where a call is: in `_dispatch_envelope`, or in `wait_for`. -/
inductive CallStage
  | dispatching
  | waiting
  | ended (ending : CallEnding)
deriving DecidableEq

/-- Whether a call has ended. -/
def CallStage.isEnded : CallStage → Bool
  | .ended _ => true
  | _ => false

/-- A call of `send_message` that requires an acknowledgement. -/
structure AckCall where
  messageId : UUID
  stage : CallStage
deriving DecidableEq

/-- A node with its calls. The `i`-th call waits for the `i`-th future. -/
structure Waiters (M : Type) where
  node : TPCPNode M
  calls : List AckCall

/-- What can happen: a call of `send_message`, its steps and the ways in which it ends, a
frame, and what the application does to the node. -/
inductive WaiterEvent (M : Type)
  | send (request : Request)
  | dispatched (i : ℕ)
  | dispatchRaises (i : ℕ)
  /-- The future of a waiting call is done, and the call goes on. -/
  | wake (i : ℕ)
  | timeOut (i : ℕ)
  | cancel (i : ℕ)
  | inbound (c : Context M) (data : Option Json)
  | stopListening
  | registerPeer (identity : AgentIdentity) (address : String)
  | removePeer (agentId : UUID)
  | registerHandler (intent : Intent) (handler : Handler)
  | setPolicy (policy : Option ACLPolicy)

/-- The call that takes a step. -/
def WaiterEvent.call? {M : Type} : WaiterEvent M → Option ℕ
  | .dispatched i | .dispatchRaises i | .wake i | .timeOut i | .cancel i => some i
  | _ => none

/-- What awaiting a future comes to, once it is done. -/
def Future.ending? : Future → Option CallEnding
  | .pending => none
  | .result ack => some (.returned ack)
  | .exception message => some (.refused message)
  | .cancelled => some .cancelled

namespace TPCPNode

variable {M : Type} {n m : TPCPNode M} {fut k : ℕ} {value : Future}

/-- Completing a future leaves the other pending ones. -/
theorem pending_complete_iff (done : value ≠ .pending) :
    (n.complete fut value).futures[k]? = some .pending ↔
      n.futures[k]? = some .pending ∧ k ≠ fut := by
  constructor
  · intro pending
    rcases getElem?_complete n fut value k with old | ⟨-, -, new⟩
    · refine ⟨old ▸ pending, ?_⟩
      rintro rfl
      -- A pending future is set to the value.
      have waits : n.futures[k]? = some .pending := old ▸ pending
      have bound : k < n.futures.length := (List.getElem?_eq_some_iff.mp waits).1
      have set : (n.complete k value).futures = n.futures.set k value :=
        if_neg (by simp [waits, Future.done])
      rw [set, List.getElem?_set_self bound] at pending
      exact done (Option.some.inj pending)
    · exact absurd (Option.some.inj (new.symm.trans pending)) done
  · rintro ⟨pending, other⟩
    rcases getElem?_complete n fut value k with old | ⟨same, -, -⟩
    · exact old.trans pending
    · exact absurd same other

/-- Stopping cancels the futures that have an entry. -/
theorem pending_stopListening_iff : n.stopListening.futures[k]? = some .pending ↔
    n.futures[k]? = some .pending ∧ ∀ id, n.pendingAcks.get? id ≠ some k := by
  have folded (entries : List (UUID × ℕ)) (m : TPCPNode M) :
      (entries.foldl (fun n entry => n.complete entry.2 .cancelled) m).futures[k]? = some .pending ↔
        m.futures[k]? = some .pending ∧ ∀ entry ∈ entries, k ≠ entry.2 := by
    induction entries generalizing m with
    | nil => simp
    | cons entry entries ih =>
      rw [List.foldl_cons, ih, pending_complete_iff (by simp), List.forall_mem_cons, and_assoc]
  have unnamed : (∀ entry ∈ n.pendingAcks.items, k ≠ entry.2) ↔
      ∀ id, n.pendingAcks.get? id ≠ some k := by
    constructor
    · exact fun all id found => all (id, k) (Dict.get?_eq_some_iff.mp found) rfl
    · rintro all ⟨id, fut⟩ member rfl
      exact all id (Dict.get?_eq_some_iff.mpr member)
  -- `pendingAcks` itself is cleared after the loop.
  rw [← unnamed]
  exact folded n.pendingAcks.items n

/-- What a frame does to the pending acknowledgements: nothing, or it takes one out and
completes its future. -/
inductive Answered (n m : TPCPNode M) : Prop
  | same (pending : m.pendingAcks = n.pendingAcks) (futures : m.futures = n.futures)
  | settled (id : UUID) (fut : ℕ) (value : Future) (done : value ≠ .pending)
      (waiting : n.pendingAcks.get? id = some fut)
      (pending : m.pendingAcks = n.pendingAcks.erase id)
      (futures : m.futures = (n.complete fut value).futures)

theorem Answered.get?_eq_none (answered : Answered n m) {id : UUID}
    (gone : n.pendingAcks.get? id = none) : m.pendingAcks.get? id = none := by
  cases answered with
  | same pending => rw [pending, gone]
  | settled id' fut value done waiting pending =>
    rw [pending, Dict.get?_erase, gone, ite_self]

theorem answered_settle {e : TPCPEnvelope} {value : UUID → Future}
    (done : ∀ id, value id ≠ .pending) : Answered n (n.settle e value) := by
  rcases settle_cases n e value with same | ⟨info, fut, -, waiting, same⟩
  · rw [same]
    exact .same rfl rfl
  · rw [same]
    exact .settled info.ackedMessageId fut (value info.ackedMessageId) (done _) waiting rfl rfl

theorem answered_processInbound (n : TPCPNode M) (c : Context M) (data : Option Json) :
    Answered n (n.processInbound c data).1 := by
  by_cases accepted : ∃ e handler, n.Accepted c data e handler
  · obtain ⟨e, handler, accepted⟩ := accepted
    have same : Answered (n.remember e c.now) ((n.remember e c.now).runHandler c e handler).1 := by
      by_cases isAck : handler = .handleAck
      · subst isAck
        have settled : Answered (n.remember e c.now) ((n.remember e c.now).handleAck e) :=
          answered_settle (by simp)
        exact settled
      by_cases isNack : handler = .handleNack
      · subst isNack
        have settled : Answered (n.remember e c.now) ((n.remember e c.now).handleNack e) :=
          answered_settle (by simp)
        exact settled
      obtain ⟨pending, futures⟩ := pendingAcks_runHandler_of_ne isAck isNack
      exact .same pending futures
    rw [processInbound_of_accepted accepted]
    -- The replay cache is not among what is compared.
    cases same with
    | same pending futures => exact .same pending futures
    | settled id fut value done waiting pending futures =>
      exact .settled id fut value done waiting pending futures
  · obtain ⟨m, outcome, cached, result, -⟩ :=
      processInbound_of_not_accepted fun e handler h => accepted ⟨e, handler, h⟩
    obtain ⟨seen, rfl⟩ := cached.eq
    rw [result]
    exact .same rfl rfl

/-- A node that differs at most in one future, and in whether one entry is there. -/
structure Within (fut : ℕ) (id : UUID) (n m : TPCPNode M) : Prop where
  length : m.futures.length = n.futures.length
  futures : ∀ k, k ≠ fut → m.futures[k]? = n.futures[k]?
  entries : ∀ other, other ≠ id → m.pendingAcks.get? other = n.pendingAcks.get? other
  fewer : ∀ other k, m.pendingAcks.get? other = some k → n.pendingAcks.get? other = some k

theorem Within.refl (fut : ℕ) (id : UUID) (n : TPCPNode M) : Within fut id n n :=
  ⟨rfl, fun _ _ => rfl, fun _ _ => rfl, fun _ _ found => found⟩

theorem within_complete (fut : ℕ) (id : UUID) (n : TPCPNode M) (value : Future) :
    Within fut id n (n.complete fut value) := by
  refine ⟨length_complete n fut value, ?_, fun _ _ => rfl, fun _ _ found => found⟩
  intro k other
  rcases getElem?_complete n fut value k with old | ⟨same, -, -⟩
  · exact old
  · exact absurd same other

theorem within_timeOut (fut : ℕ) (id : UUID) (n : TPCPNode M) :
    Within fut id n (n.timeOut fut id) := by
  have completed := within_complete fut id n .cancelled
  exact ⟨completed.length, completed.futures, fun _ other => Dict.get?_erase_of_ne other,
    fun _ _ found => Dict.get?_of_get?_erase found⟩

end TPCPNode

namespace Waiters

variable {M : Type} {s t : Waiters M} {e : WaiterEvent M} {i : ℕ} {call : AckCall}

/-- A new node without calls. -/
def init (identity : AgentIdentity) (autoAck : Bool) (aclPolicy : Option ACLPolicy) (memory : M) :
    Waiters M := ⟨TPCPNode.init identity autoAck aclPolicy memory, []⟩

/-- A call moves on. -/
def move (s : Waiters M) (i : ℕ) (call : AckCall) (stage : CallStage) (node : TPCPNode M) :
    Waiters M := ⟨node, s.calls.set i { call with stage }⟩

/-- `send_message` up to `_dispatch_envelope`; a call that raises on signing has no effect. -/
def send (s : Waiters M) (request : Request) : Waiters M :=
  match s.node.sendMessage request.ambient (fun _ => request.signature) request.target
      request.intent request.payload request.requireAck request.chunkInfo with
  | .error _ => s
  | .ok (node, e) =>
    ⟨node, if request.requireAck then s.calls ++ [⟨e.header.messageId, .dispatching⟩]
      else s.calls⟩

/-- What an event makes of the node and its calls, if it is possible. -/
def next (s : Waiters M) : WaiterEvent M → Option (Waiters M)
  | .send request => some (s.send request)
  | .dispatched i => do
    let call ← s.calls[i]?
    if call.stage = .dispatching then some (s.move i call .waiting s.node) else none
  | .dispatchRaises i => do
    let call ← s.calls[i]?
    if call.stage = .dispatching then some (s.move i call (.ended .failed) s.node) else none
  | .wake i => do
    let call ← s.calls[i]?
    let ending ← s.node.futures[i]?.bind Future.ending?
    if call.stage = .waiting then some (s.move i call (.ended ending) s.node) else none
  | .timeOut i => do
    let call ← s.calls[i]?
    if call.stage = .waiting then
      some (s.move i call (.ended .timedOut) (s.node.timeOut i call.messageId))
    else none
  | .cancel i => do
    let call ← s.calls[i]?
    match call.stage with
    -- `CancelledError` leaves the dispatch, and nothing has awaited the future.
    | .dispatching => some (s.move i call (.ended .cancelled) s.node)
    -- `wait_for` cancels the future that it awaits.
    | .waiting => some (s.move i call (.ended .cancelled) (s.node.complete i .cancelled))
    | .ended _ => none
  | .inbound c data => some { s with node := (s.node.processInbound c data).1 }
  | .stopListening => some { s with node := s.node.stopListening }
  | .registerPeer identity address =>
    some { s with node := s.node.registerPeer identity address }
  | .removePeer agentId => some { s with node := s.node.removePeer agentId }
  | .registerHandler intent handler =>
    some { s with node := s.node.registerHandler intent handler }
  | .setPolicy policy => some { s with node := { s.node with aclPolicy := policy } }

/-- `uuid4` gives a call an identifier that no call has had. -/
def Fresh (s : Waiters M) : WaiterEvent M → Prop
  | .send request => request.ambient.uuid4 ∉ s.calls.map AckCall.messageId
  | _ => True

/-- A call is cancelled, or its dispatch raises, only when its future is done. -/
def Settled (s : Waiters M) : WaiterEvent M → Prop
  | .dispatchRaises i | .cancel i => s.node.futures[i]? ≠ some .pending
  | _ => True

instance (s : Waiters M) (e : WaiterEvent M) : Decidable (s.Fresh e) :=
  match e with
  | .send request =>
    inferInstanceAs (Decidable (request.ambient.uuid4 ∉ s.calls.map AckCall.messageId))
  | .dispatched _ | .dispatchRaises _ | .wake _ | .timeOut _ | .cancel _ | .inbound _ _
  | .stopListening | .registerPeer _ _ | .removePeer _ | .registerHandler _ _ | .setPolicy _ =>
    .isTrue trivial

instance (s : Waiters M) (e : WaiterEvent M) : Decidable (s.Settled e) :=
  match e with
  | .dispatchRaises i | .cancel i =>
    inferInstanceAs (Decidable (s.node.futures[i]? ≠ some .pending))
  | .send _ | .dispatched _ | .wake _ | .timeOut _ | .inbound _ _ | .stopListening
  | .registerPeer _ _ | .removePeer _ | .registerHandler _ _ | .setPolicy _ => .isTrue trivial

/-- Calls that have ended have no entry, the others have theirs as long as their future is
pending, and what a call does concerns its own entry only. -/
structure Tidy (s : Waiters M) : Prop where
  gone : ∀ call ∈ s.calls, call.stage.isEnded = true →
    s.node.pendingAcks.get? call.messageId = none
  kept : ∀ (i : ℕ) call, s.calls[i]? = some call → call.stage.isEnded = false →
    s.node.futures[i]? = some .pending → s.node.pendingAcks.get? call.messageId = some i
  own : ∀ (e : WaiterEvent M) i call t, e.call? = some i → s.calls[i]? = some call →
    s.next e = some t → ∀ id, id ≠ call.messageId →
      t.node.pendingAcks.get? id = s.node.pendingAcks.get? id

/-! ### Steps -/

/-- Every call has a future and an identifier of its own, entries name calls with their
identifiers, and a call that has not ended has its entry as long as its future is pending. -/
structure Orderly (s : Waiters M) : Prop where
  counted : s.node.futures.length = s.calls.length
  distinct : (s.calls.map AckCall.messageId).Nodup
  named : Owners.Named s.node.pendingAcks (s.calls.map AckCall.messageId)
  open_iff : ∀ (i : ℕ) call, s.calls[i]? = some call → call.stage.isEnded = false →
    (s.node.pendingAcks.get? call.messageId = some i ↔ s.node.futures[i]? = some .pending)

/-- A call that moves keeps its identifier. -/
theorem map_messageId_move (called : s.calls[i]? = some call) (stage : CallStage)
    (node : TPCPNode M) :
    (s.move i call stage node).calls.map AckCall.messageId = s.calls.map AckCall.messageId :=
  Owners.map_key_set called rfl

theorem getElem?_move_of_ne {j : ℕ} (other : j ≠ i) (stage : CallStage) (node : TPCPNode M) :
    (s.move i call stage node).calls[j]? = s.calls[j]? := List.getElem?_set_ne (Ne.symm other)

theorem getElem?_move_self (called : s.calls[i]? = some call) (stage : CallStage)
    (node : TPCPNode M) : (s.move i call stage node).calls[i]? = some { call with stage } :=
  List.getElem?_set_self (List.getElem?_eq_some_iff.mp called).1

namespace Orderly

/-- Calls with one identifier are one call. -/
theorem index_inj (orderly : Orderly s) {j : ℕ} {call' : AckCall}
    (called : s.calls[i]? = some call) (called' : s.calls[j]? = some call')
    (same : call.messageId = call'.messageId) : i = j := by
  have key : (s.calls.map AckCall.messageId)[i]? = some call.messageId :=
    Owners.getElem?_key called
  rw [same] at key
  exact Owners.index_eq orderly.distinct key (Owners.getElem?_key called')

/-- The entry under the identifier of a call is its own. -/
theorem entry_eq (orderly : Orderly s) {n : ℕ} (called : s.calls[i]? = some call)
    (found : s.node.pendingAcks.get? call.messageId = some n) : n = i :=
  Owners.index_eq orderly.distinct (orderly.named call.messageId n found)
    (Owners.getElem?_key called)

/-- A call has no entry exactly if its future is done. -/
theorem gone_iff_done (orderly : Orderly s) (called : s.calls[i]? = some call)
    (alive : call.stage.isEnded = false) :
    s.node.pendingAcks.get? call.messageId = none ↔ s.node.futures[i]? ≠ some .pending := by
  rw [ne_eq, ← orderly.open_iff i call called alive]
  constructor
  · intro none found
    rw [none] at found
    cases found
  · intro notOwn
    rw [Option.eq_none_iff_forall_ne_some]
    intro n found
    exact notOwn (orderly.entry_eq called found ▸ found)

theorem answered {node : TPCPNode M} (orderly : Orderly s)
    (answered : TPCPNode.Answered s.node node) : Orderly ⟨node, s.calls⟩ := by
  cases answered with
  | same pending futures =>
    refine ⟨futures ▸ orderly.counted, orderly.distinct, pending ▸ orderly.named, ?_⟩
    exact futures ▸ pending ▸ orderly.open_iff
  | settled id fut value done waiting pending futures =>
    refine ⟨?_, orderly.distinct, ?_, ?_⟩
    · rw [futures, TPCPNode.length_complete]
      exact orderly.counted
    · rw [pending]
      exact orderly.named.erase id
    · intro i call called alive
      rw [pending, futures, Owners.get?_erase_iff, TPCPNode.pending_complete_iff done,
        ← orderly.open_iff i call called alive]
      -- The entry that is taken out is that of the call whose future is completed.
      refine and_congr_right fun found => not_congr ?_
      constructor
      · intro same
        rw [same] at found
        exact Option.some.inj (found.symm.trans waiting)
      · intro same
        have owner := orderly.named id fut waiting
        rw [← same, Owners.getElem?_key called] at owner
        exact Option.some.inj owner

theorem stopListening (orderly : Orderly s) : Orderly ⟨s.node.stopListening, s.calls⟩ := by
  refine ⟨?_, orderly.distinct, Owners.named_empty _, ?_⟩
  · exact (TPCPNode.wanes_stopListening s.node).length.trans orderly.counted
  · intro i call called alive
    refine iff_of_false nofun fun pending => ?_
    obtain ⟨waits, unnamed⟩ := TPCPNode.pending_stopListening_iff.mp pending
    exact unnamed call.messageId ((orderly.open_iff i call called alive).mpr waits)

/-- A new call. -/
theorem begin {id : UUID} {node : TPCPNode M} (orderly : Orderly s)
    (fresh : id ∉ s.calls.map AckCall.messageId)
    (pending : node.pendingAcks = s.node.pendingAcks.set id s.node.futures.length)
    (futures : node.futures = s.node.futures ++ [.pending]) :
    Orderly ⟨node, s.calls ++ [⟨id, .dispatching⟩]⟩ := by
  have keys : (s.calls ++ [(⟨id, .dispatching⟩ : AckCall)]).map AckCall.messageId =
      s.calls.map AckCall.messageId ++ [id] := List.map_append
  have counted : s.node.futures.length = (s.calls.map AckCall.messageId).length := by
    rw [List.length_map]
    exact orderly.counted
  refine ⟨?_, ?_, ?_, ?_⟩
  · rw [futures, List.length_append, List.length_append, orderly.counted]
    rfl
  · -- The new identifier is none of the old ones.
    rw [keys, List.nodup_append]
    refine ⟨orderly.distinct, List.nodup_singleton id, ?_⟩
    rintro a member b last rfl
    obtain rfl := List.mem_singleton.mp last
    exact fresh member
  · rw [pending, keys, counted]
    exact orderly.named.come id
  · intro i call called alive
    rw [pending, futures]
    by_cases old : i < s.calls.length
    · have called' : s.calls[i]? = some call := (List.getElem?_append_left old).symm.trans called
      have other : call.messageId ≠ id := by
        rintro rfl
        exact fresh (List.mem_map_of_mem (List.mem_of_getElem? called'))
      rw [counted, Owners.get?_come_iff (Owners.getElem?_key called'), and_iff_left other,
        List.getElem?_append_left (orderly.counted.symm ▸ old)]
      exact orderly.open_iff i call called' alive
    · -- The new call waits for the new future.
      have last : i = s.calls.length := by
        have bound := (List.getElem?_eq_some_iff.mp called).1
        rw [List.length_append, List.length_singleton] at bound
        omega
      subst last
      have called' : (s.calls ++ [(⟨id, .dispatching⟩ : AckCall)])[s.calls.length]? = some call :=
        called
      rw [List.getElem?_concat_length] at called'
      obtain rfl := Option.some.inj called'
      rw [← orderly.counted, Dict.get?_set_self, List.getElem?_concat_length]
      exact iff_of_true rfl rfl

end Orderly

/-- What a step of a call does: it changes nothing but the stage, the entry and the future
of the call. Where the call goes on, the node is as before and the step settles, and where
it ends, its entry is gone exactly if the step settles. -/
structure Moved (s : Waiters M) (e : WaiterEvent M) (t : Waiters M) (i : ℕ) (call : AckCall)
    (stage : CallStage) : Prop where
  eq : t = s.move i call stage t.node
  within : TPCPNode.Within i call.messageId s.node t.node
  stays : stage.isEnded = false →
    call.stage.isEnded = false ∧ t.node = s.node ∧ s.Settled e
  leaves : stage.isEnded = true →
    (t.node.pendingAcks.get? call.messageId = none ↔ s.Settled e)

namespace Orderly

theorem moved (orderly : Orderly s) (own : e.call? = some i) (step : s.next e = some t) :
    ∃ call stage, s.calls[i]? = some call ∧ Moved s e t i call stage := by
  cases e with
  | dispatched j =>
    obtain rfl := Option.some.inj own
    obtain ⟨call, called, step⟩ := Option.bind_eq_some_iff.mp step
    obtain ⟨stage, step⟩ := Option.ite_none_right_eq_some.mp step
    cases step
    refine ⟨call, .waiting, called, rfl, .refl _ _ _, fun _ => ?_, nofun⟩
    exact ⟨by rw [stage]; rfl, rfl, trivial⟩
  | dispatchRaises j =>
    obtain rfl := Option.some.inj own
    obtain ⟨call, called, step⟩ := Option.bind_eq_some_iff.mp step
    obtain ⟨stage, step⟩ := Option.ite_none_right_eq_some.mp step
    cases step
    exact ⟨call, .ended .failed, called, rfl, .refl _ _ _, nofun,
      fun _ => orderly.gone_iff_done called (by rw [stage]; rfl)⟩
  | wake j =>
    obtain rfl := Option.some.inj own
    obtain ⟨call, called, step⟩ := Option.bind_eq_some_iff.mp step
    obtain ⟨ending, done, step⟩ := Option.bind_eq_some_iff.mp step
    obtain ⟨stage, step⟩ := Option.ite_none_right_eq_some.mp step
    cases step
    refine ⟨call, .ended ending, called, rfl, .refl _ _ _, nofun, fun _ => ?_⟩
    -- The future of the call is done, so an ACK, a NACK or a stop took the entry out.
    refine iff_of_true ((orderly.gone_iff_done called (by rw [stage]; rfl)).mpr ?_) trivial
    intro pending
    rw [pending] at done
    cases done
  | timeOut j =>
    obtain rfl := Option.some.inj own
    obtain ⟨call, called, step⟩ := Option.bind_eq_some_iff.mp step
    obtain ⟨-, step⟩ := Option.ite_none_right_eq_some.mp step
    cases step
    -- The one exit that pops the entry.
    refine ⟨call, .ended .timedOut, called, rfl, TPCPNode.within_timeOut _ _ _, nofun, fun _ => ?_⟩
    exact iff_of_true (Dict.get?_erase_self _ _) trivial
  | cancel j =>
    obtain rfl := Option.some.inj own
    obtain ⟨call, called, step⟩ := Option.bind_eq_some_iff.mp step
    split at step
    · -- In the dispatch nothing is done about the entry.
      rename_i stage
      cases step
      exact ⟨call, .ended .cancelled, called, rfl, .refl _ _ _, nofun,
        fun _ => orderly.gone_iff_done called (by rw [stage]; rfl)⟩
    · -- In `wait_for` the future is cancelled, which leaves the entry, too.
      rename_i stage
      cases step
      exact ⟨call, .ended .cancelled, called, rfl, TPCPNode.within_complete _ _ _ _, nofun,
        fun _ => orderly.gone_iff_done called (by rw [stage]; rfl)⟩
    · cases step
  | send | inbound | stopListening | registerPeer | removePeer | registerHandler | setPolicy =>
    cases own

/-- A step of a call leaves the other calls as they are. -/
theorem move {stage : CallStage} (orderly : Orderly s) (called : s.calls[i]? = some call)
    (moved : Moved s e t i call stage) : Orderly t := by
  obtain ⟨eq, within, stays, -⟩ := moved
  rw [eq]
  have keys := map_messageId_move called stage t.node
  refine ⟨?_, keys ▸ orderly.distinct, ?_, ?_⟩
  · exact (within.length.trans orderly.counted).trans List.length_set.symm
  · intro id n found
    rw [keys]
    exact orderly.named id n (within.fewer id n found)
  · intro j call' called' alive
    by_cases same : j = i
    · subst same
      rw [getElem?_move_self called] at called'
      obtain rfl := Option.some.inj called'
      obtain ⟨alive', unchanged, -⟩ := stays alive
      rw [move, unchanged]
      exact orderly.open_iff j call called alive'
    · -- Another call has another identifier, so its entry is as before.
      rw [getElem?_move_of_ne same] at called'
      have other : call'.messageId ≠ call.messageId :=
        fun both => same (orderly.index_inj called' called both)
      change t.node.pendingAcks.get? call'.messageId = some j ↔ t.node.futures[j]? = some .pending
      rw [within.entries _ other, within.futures j same]
      exact orderly.open_iff j call' called' alive

end Orderly

/-- Calls that have ended have no entry. -/
def Gone (s : Waiters M) : Prop :=
  ∀ call ∈ s.calls, call.stage.isEnded = true → s.node.pendingAcks.get? call.messageId = none

/-- What a call of `send_message` comes to: nothing, or a new call with a new entry. -/
theorem send_cases (s : Waiters M) (request : Request) :
    (s.send request).calls = s.calls ∧
        TPCPNode.Answered s.node (s.send request).node ∨
      (s.send request).calls = s.calls ++ [⟨request.ambient.uuid4, .dispatching⟩] ∧
        (s.send request).node.pendingAcks =
          s.node.pendingAcks.set request.ambient.uuid4 s.node.futures.length ∧
        (s.send request).node.futures = s.node.futures ++ [.pending] := by
  unfold send
  split
  · exact .inl ⟨rfl, .same rfl rfl⟩
  · rename_i node e sent
    obtain ⟨rfl, rfl⟩ := Session.sendMessage_ok sent
    by_cases waits : request.requireAck = true
    · rw [if_pos waits, if_pos waits]
      exact .inr ⟨rfl, rfl, rfl⟩
    · rw [if_neg waits, if_neg waits]
      exact .inl ⟨rfl, .same rfl rfl⟩

/-- What happens apart from the steps of calls: a new call comes, everything stops, or an
entry is taken out at most. -/
inductive Outside (s : Waiters M) (e : WaiterEvent M) (t : Waiters M) : Prop
  | begun (request : Request) (event : e = .send request)
      (calls : t.calls = s.calls ++ [⟨request.ambient.uuid4, .dispatching⟩])
      (pending : t.node.pendingAcks =
        s.node.pendingAcks.set request.ambient.uuid4 s.node.futures.length)
      (futures : t.node.futures = s.node.futures ++ [.pending])
  | answered (calls : t.calls = s.calls) (answered : TPCPNode.Answered s.node t.node)
  | stopped (calls : t.calls = s.calls) (stopped : t.node = s.node.stopListening)

theorem outside_of_next (own : e.call? = none) (step : s.next e = some t) : Outside s e t := by
  cases e with
  | send request =>
    cases step
    rcases s.send_cases request with ⟨calls, answered⟩ | ⟨calls, pending, futures⟩
    · exact .answered calls answered
    · exact .begun request rfl calls pending futures
  | inbound c data =>
    cases step
    exact .answered rfl (TPCPNode.answered_processInbound s.node c data)
  | stopListening =>
    cases step
    exact .stopped rfl rfl
  | registerPeer | removePeer | registerHandler | setPolicy =>
    cases step
    exact .answered rfl (.same rfl rfl)
  | dispatched | dispatchRaises | wake | timeOut | cancel => cases own

/-- Every step but those that end a call settles. -/
theorem settled_of_outside (own : e.call? = none) : s.Settled e := by
  cases e with
  | dispatched | dispatchRaises | wake | timeOut | cancel => cases own
  | _ => trivial

theorem Orderly.next (orderly : Orderly s) (fresh : s.Fresh e) (step : s.next e = some t) :
    Orderly t := by
  cases own : e.call? with
  | some i =>
    obtain ⟨call, stage, called, moved⟩ := orderly.moved own step
    exact orderly.move called moved
  | none =>
    obtain ⟨node, calls⟩ := t
    cases outside_of_next own step with
    | begun request event same pending futures =>
      subst event same
      exact orderly.begin fresh pending futures
    | answered same answered =>
      subst same
      exact orderly.answered answered
    | stopped same stopped =>
      subst same stopped
      exact orderly.stopListening

/-- A step of a call leaves its entry behind unless the step settles it. -/
theorem Moved.gone_iff {stage : CallStage} (moved : Moved s e t i call stage)
    (orderly : Orderly s) (called : s.calls[i]? = some call) (gone : Gone s) :
    Gone t ↔ s.Settled e := by
  obtain ⟨eq, within, stays, leaves⟩ := moved
  have itself : t.calls[i]? = some { call with stage } :=
    eq ▸ getElem?_move_self called stage t.node
  -- The other calls keep their stages and entries.
  have others (own : stage.isEnded = true → t.node.pendingAcks.get? call.messageId = none) :
      Gone t := by
    intro call' member ended
    obtain ⟨j, found⟩ := List.getElem?_of_mem member
    by_cases same : j = i
    · subst same
      obtain rfl := Option.some.inj (itself.symm.trans found)
      exact own ended
    · have found' : s.calls[j]? = some call' := by
        rw [eq, getElem?_move_of_ne same] at found
        exact found
      have other : call'.messageId ≠ call.messageId :=
        fun both => same (orderly.index_inj found' called both)
      rw [within.entries _ other]
      exact gone call' (List.mem_of_getElem? found') ended
  cases ended : stage.isEnded with
  | false =>
    refine iff_of_true (others fun ended' => ?_) (stays ended).2.2
    rw [ended] at ended'
    cases ended'
  | true =>
    rw [← leaves ended]
    constructor
    · exact fun gone' => gone' { call with stage } (List.mem_of_getElem? itself) ended
    · exact fun own => others fun _ => own

theorem Gone.outside (gone : Gone s) (fresh : s.Fresh e) (outside : Outside s e t) : Gone t := by
  intro call member ended
  cases outside with
  | begun request event calls pending futures =>
    subst event
    rw [calls, List.mem_append, List.mem_singleton] at member
    rcases member with old | rfl
    · -- The new entry is under an identifier of its own.
      have other : call.messageId ≠ request.ambient.uuid4 := by
        intro same
        exact fresh (same ▸ List.mem_map_of_mem old)
      rw [pending, Dict.get?_set_of_ne other]
      exact gone call old ended
    · cases ended
  | answered calls answered =>
    rw [calls] at member
    exact answered.get?_eq_none (gone call member ended)
  | stopped calls stopped =>
    -- Nothing is left in `pendingAcks`.
    rw [stopped]
    rfl

theorem Orderly.gone_iff (orderly : Orderly s) (fresh : s.Fresh e) (step : s.next e = some t)
    (gone : Gone s) : Gone t ↔ s.Settled e := by
  cases own : e.call? with
  | some i =>
    obtain ⟨call, stage, called, moved⟩ := orderly.moved own step
    exact moved.gone_iff orderly called gone
  | none =>
    exact iff_of_true (gone.outside fresh (outside_of_next own step)) (settled_of_outside own)

/-- In an orderly state nothing else is to be checked. -/
theorem Orderly.tidy_iff (orderly : Orderly s) : Tidy s ↔ Gone s := by
  refine ⟨Tidy.gone, fun gone => ⟨gone, ?_, ?_⟩⟩
  · exact fun i call called alive => (orderly.open_iff i call called alive).mpr
  · intro e i call t own called step id other
    obtain ⟨call', stage, called', moved⟩ := orderly.moved own step
    obtain rfl := Option.some.inj (called.symm.trans called')
    exact moved.within.entries id other

/-! ### Runs -/

theorem orderly_init (identity : AgentIdentity) (autoAck : Bool) (aclPolicy : Option ACLPolicy)
    (memory : M) : Orderly (init identity autoAck aclPolicy memory) := by
  have entries : (init identity autoAck aclPolicy memory).node.pendingAcks = Dict.empty := rfl
  refine ⟨rfl, List.nodup_nil, ?_, ?_⟩
  · rw [entries]
    exact Owners.named_empty _
  · intro i call called
    cases called

/-- In a run with new identifiers calls leave no entry behind, and touch no other, exactly
if calls are cancelled, and dispatches raise, only when an ACK, a NACK or a stop has
completed the future. -/
theorem tidy_iff_settled {identity : AgentIdentity} {autoAck : Bool}
    {aclPolicy : Option ACLPolicy} {memory : M} {events : List (WaiterEvent M)}
    (run : Run (Guarded (OfPartial Waiters.next) Fresh) (init identity autoAck aclPolicy memory)
      events t) :
    Throughout (Guarded (OfPartial Waiters.next) Fresh) Tidy
        (init identity autoAck aclPolicy memory) events ↔
      Run (Guarded (Guarded (OfPartial Waiters.next) Fresh) Settled)
        (init identity autoAck aclPolicy memory) events t := by
  have start := orderly_init identity autoAck aclPolicy memory
  have gone : Gone (init identity autoAck aclPolicy memory) := by
    intro call member
    cases member
  refine run.throughout_iff ((functional_ofPartial Waiters.next).guarded Fresh)
    (fun _ _ _ before step => before.next step.2 step.1) ?_ start (start.tidy_iff.mpr gone)
  intro s e t orderly tidy step
  rw [(orderly.next step.2 step.1).tidy_iff]
  exact orderly.gone_iff step.2 step.1 tidy.gone

/-- A node, and another call of it. -/
def caller : Waiters Unit :=
  init ⟨⟨2, 0, 0, 0, 0⟩, "CrewAI", [], Base64.encode (List.replicate 32 3), []⟩ false none ()

def secondQuestion : Request :=
  { Session.question with
    ambient := Ambient.strict ⟨41, 0, 0, 0, 0⟩ ⟨2026, 3, 1, 12, 0, 1, 0, by decide⟩ }

/-- A call times out, and another one is cancelled after the node has stopped. -/
theorem tidy_iff_settled_stopped : ∃ t,
    Run (Guarded (OfPartial Waiters.next) Fresh) caller
      [.send Session.question, .dispatched 0, .send secondQuestion, .timeOut 0, .dispatched 1,
        .stopListening, .cancel 1] t ∧
      t.calls.map AckCall.stage = [.ended .timedOut, .ended .cancelled] ∧
      Throughout (Guarded (OfPartial Waiters.next) Fresh) Tidy caller
        [.send Session.question, .dispatched 0, .send secondQuestion, .timeOut 0, .dispatched 1,
          .stopListening, .cancel 1] := by
  obtain ⟨t, run, stages⟩ : ∃ t,
      Run (Guarded (OfPartial Waiters.next) fun s e => s.Fresh e ∧ s.Settled e) caller
        [.send Session.question, .dispatched 0, .send secondQuestion, .timeOut 0, .dispatched 1,
          .stopListening, .cancel 1] t ∧
        decide (t.calls.map AckCall.stage = [.ended .timedOut, .ended .cancelled]) = true :=
    exists_guarded_of_any (by decide)
  have settled : Run (Guarded (Guarded (OfPartial Waiters.next) Fresh) Settled) caller _ t :=
    run.mono fun _ _ _ step => ⟨⟨step.1, step.2.1⟩, step.2.2⟩
  exact ⟨t, settled.of_guarded, of_decide_eq_true stages,
    (tidy_iff_settled settled.of_guarded).mpr settled⟩

/-- A run to a state with an entry of a call that has ended. -/
theorem exists_not_tidy {events : List (WaiterEvent Unit)}
    (left : ((runPartial (checked Waiters.next Fresh) caller events).any fun t =>
      t.calls.any fun call => call.stage.isEnded &&
        (t.node.pendingAcks.get? call.messageId).isSome) = true) :
    ∃ t, Run (Guarded (OfPartial Waiters.next) Fresh) caller events t ∧ ¬ Tidy t := by
  obtain ⟨t, run, found⟩ := exists_guarded_of_any left
  refine ⟨t, run, fun tidy => ?_⟩
  obtain ⟨call, called, both⟩ := List.any_eq_true.mp found
  rw [Bool.and_eq_true] at both
  rw [tidy.gone call called both.1] at both
  cases both.2

/-- A call that is cancelled, before or after its message was dispatched, and one whose
dispatch raises leave their entries behind. -/
theorem not_tidy_cancelled :
    (∃ t, Run (Guarded (OfPartial Waiters.next) Fresh) caller
      [.send Session.question, .cancel 0] t ∧ ¬ Tidy t) ∧
    (∃ t, Run (Guarded (OfPartial Waiters.next) Fresh) caller
      [.send Session.question, .dispatched 0, .cancel 0] t ∧ ¬ Tidy t) ∧
    ∃ t, Run (Guarded (OfPartial Waiters.next) Fresh) caller
      [.send Session.question, .dispatchRaises 0] t ∧ ¬ Tidy t :=
  ⟨exists_not_tidy (by decide), exists_not_tidy (by decide), exists_not_tidy (by decide)⟩

end Waiters

end AgentTelepathy
