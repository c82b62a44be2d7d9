import AgentTelepathy.Core.Session
import AgentTelepathy.Foundation.ReplayCache

/-!
# Replay protection

The replay cache of a node holds the identifiers of the frames that passed the
hop count within the last 300 seconds, so within this window no identifier
reaches a handler twice, whatever else happens to the node.
-/

namespace AgentTelepathy

open Foundation Foundation.Transition

/-- The identifier of the envelope of a handler call. -/
def Invocation.messageId (i : Invocation) : UUID := i.envelope.header.messageId

namespace Session

variable {M : Type} {s t : Session M} {event : SessionEvent M}

/-- The replay cache is ordered and knows the recent handler calls, and calls for
one identifier are at least 300 seconds apart. -/
structure Windowed (s : Session M) : Prop where
  ordered : ReplayCache.Ordered s.clock s.node.seenMessages
  past : ∀ i ∈ s.handled, i.time ≤ s.clock
  recent : ∀ i ∈ s.handled, s.clock < i.time + 300 →
    s.node.seenMessages.get? i.messageId = some i.time
  apart : s.handled.Pairwise fun i j => i.messageId = j.messageId → i.time + 300 ≤ j.time

theorem windowed_start (unseen : s.node.seenMessages = Dict.empty) (unhandled : s.handled = []) :
    Windowed s where
  ordered := by
    rw [unseen]
    exact ReplayCache.Ordered.empty _
  past := by simp [unhandled]
  recent := by simp [unhandled]
  apart := by simp [unhandled]

/-! ### Steps -/

/-- The cache of a node after a frame is the expired one, or holds one more
identifier, or it is as before. -/
theorem seenMessages_expireSeen (n : TPCPNode M) (now : ℚ) :
    (n.expireSeen now).seenMessages = ReplayCache.expire 300 now n.seenMessages := rfl

theorem seenMessages_remember (n : TPCPNode M) (e : TPCPEnvelope) (now : ℚ) :
    (n.remember e now).seenMessages =
      (ReplayCache.expire 300 now n.seenMessages).set e.header.messageId now := rfl

/-- What the checks do to an ordered cache: it stays ordered, and what was recorded
within the window stays recorded. -/
theorem ordered_of_cached {n m : TPCPNode M} {clock now : ℚ}
    (ordered : ReplayCache.Ordered clock n.seenMessages) (later : clock ≤ now)
    (cached : TPCPNode.Cached n now m) :
    ReplayCache.Ordered now m.seenMessages ∧
      ∀ id time, n.seenMessages.get? id = some time → now < time + 300 →
        m.seenMessages.get? id = some time := by
  have kept {id : UUID} {time : ℚ} (entry : n.seenMessages.get? id = some time)
      (young : now < time + 300) : (n.expireSeen now).seenMessages.get? id = some time := by
    rw [seenMessages_expireSeen]
    exact (ReplayCache.get?_expire_eq_some_iff ordered).mpr ⟨entry, young⟩
  cases cached with
  | same => exact ⟨ordered.mono later, fun id time entry young => entry⟩
  | expired => exact ⟨(ordered.expire 300 now).mono later, fun id time => kept⟩
  | remembered e fresh =>
    refine ⟨(ordered.expire 300 now).record fresh later, ?_⟩
    intro id time entry young
    have other : id ≠ e.header.messageId := by
      rintro rfl
      rw [kept entry young] at fresh
      cases fresh
    rw [seenMessages_remember, Dict.get?_set_of_ne other]
    exact kept entry young

/-- What a frame does to an ordered cache. -/
theorem ordered_receive {frame : Frame M}
    (ordered : ReplayCache.Ordered s.clock s.node.seenMessages) (later : s.clock ≤ frame.now) :
    ReplayCache.Ordered frame.now (s.receive frame).node.seenMessages ∧
      ∀ id time, s.node.seenMessages.get? id = some time → frame.now < time + 300 →
        (s.receive frame).node.seenMessages.get? id = some time := by
  by_cases accepted : ∃ e handler, s.Accepted frame e handler
  · obtain ⟨e, handler, accepted⟩ := accepted
    obtain ⟨registry, pending, futures, memory, ran⟩ := TPCPNode.runHandler_eq
      (s.node.remember e frame.now) (s.context frame) e handler
    have cached : TPCPNode.Cached s.node frame.now (s.node.remember e frame.now) :=
      .remembered e accepted.admitted.fresh
    have after := ordered_of_cached ordered later cached
    rw [receive_of_accepted accepted, ran]
    exact after
  · obtain ⟨m, cached, same⟩ :=
      receive_of_not_accepted fun e handler h => accepted ⟨e, handler, h⟩
    rw [same]
    exact ordered_of_cached ordered later cached

theorem Windowed.receive {frame : Frame M} (windowed : Windowed s) (later : s.clock ≤ frame.now) :
    Windowed (s.receive frame) := by
  obtain ⟨ordered, kept⟩ := ordered_receive windowed.ordered later
  by_cases accepted : ∃ e handler, s.Accepted frame e handler
  · obtain ⟨e, handler, accepted⟩ := accepted
    have fresh := accepted.admitted.fresh
    obtain ⟨registry, pending, futures, memory, ran⟩ := TPCPNode.runHandler_eq
      (s.node.remember e frame.now) (s.context frame) e handler
    rw [receive_of_accepted accepted, ran] at ordered kept ⊢
    refine ⟨ordered, ?_, ?_, ?_⟩
    · intro i member
      rcases List.mem_append.mp member with old | new
      · exact (windowed.past i old).trans later
      · obtain rfl := List.mem_singleton.mp new
        exact le_rfl
    · intro i member young
      rcases List.mem_append.mp member with old | new
      · exact kept _ _ (windowed.recent i old (later.trans_lt young)) young
      · obtain rfl := List.mem_singleton.mp new
        exact Dict.get?_set_self _ _ _
    · rw [List.pairwise_append]
      refine ⟨windowed.apart, List.pairwise_singleton _ _, ?_⟩
      intro i old j new same
      obtain rfl := List.mem_singleton.mp new
      -- A call within the window would be in the cache, and the frame is not.
      by_contra close
      have entry := windowed.recent i old (later.trans_lt (not_le.mp close))
      have known := (ReplayCache.get?_expire_eq_some_iff windowed.ordered).mpr
        ⟨entry, not_le.mp close⟩
      rw [same] at known
      exact absurd (known.symm.trans fresh) (by simp)
  · obtain ⟨m, cached, same⟩ :=
      receive_of_not_accepted fun e handler h => accepted ⟨e, handler, h⟩
    rw [same] at ordered kept ⊢
    refine ⟨ordered, ?_, ?_, windowed.apart⟩
    · intro i member
      exact (windowed.past i member).trans later
    · intro i member young
      exact kept _ _ (windowed.recent i member (later.trans_lt young)) young

theorem Windowed.next (windowed : Windowed s) (step : s.next event = some t) : Windowed t := by
  by_cases inbound : ∃ frame, event = .inbound frame
  · obtain ⟨frame, rfl⟩ := inbound
    obtain ⟨later, step⟩ := Option.ite_none_right_eq_some.mp step
    cases step
    exact windowed.receive later
  · obtain ⟨seenMessages, clock, -, handled⟩ :=
      unchanged_of_next step fun frame same => inbound ⟨frame, same⟩
    refine ⟨?_, ?_, ?_, ?_⟩
    · rw [seenMessages, clock]
      exact windowed.ordered
    · rw [handled, clock]
      exact windowed.past
    · rw [handled, clock, seenMessages]
      exact windowed.recent
    · rw [handled]
      exact windowed.apart

/-- Along every run the replay cache stays ordered and knows the recent calls. -/
theorem windowed_of_run {events : List (SessionEvent M)}
    (run : Run (OfPartial Session.next) s events t) (windowed : Windowed s) : Windowed t :=
  run.invariant (fun _ _ _ before step => before.next step) windowed

end Session

end AgentTelepathy
