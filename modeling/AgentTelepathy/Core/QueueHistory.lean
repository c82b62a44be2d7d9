import AgentTelepathy.Core.Queue
import AgentTelepathy.Foundation.Deque

/-!
# Histories of the dead-letter queue

Any calls of `MessageQueue`, for any targets, in any order. The queue of each target is a bounded
deque of its own: what it holds and what its calls return depend on the calls for that target
alone. A queue that is kept is never empty and never exceeds its size.
-/

namespace AgentTelepathy

open Foundation

variable {P E : Type*}

/-- A call of an operation of the queue. -/
inductive QueueCall (P E : Type*)
  | enqueue (target : P) (envelope : E)
  | enqueueFront (target : P) (envelope : E)
  | dequeueOne (target : P)
  | drain (target : P)
  | hasMessages (target : P)

/-- The target of a call. -/
def QueueCall.target : QueueCall P E → P
  | .enqueue target _ | .enqueueFront target _ => target
  | .dequeueOne target | .drain target | .hasMessages target => target

/-- What a call does to the deque of its target. -/
def QueueCall.op : QueueCall P E → Deque.Op E
  | .enqueue _ envelope => .pushBack envelope
  | .enqueueFront _ envelope => .pushFront envelope
  | .dequeueOne _ => .popFront
  | .drain _ => .drain
  | .hasMessages _ => .look

namespace MessageQueue

variable [DecidableEq P] {q : MessageQueue P E} {call : QueueCall P E}
  {calls : List (QueueCall P E)} {target other : P}

/-- The queue after a call, and what the call returns or raises. -/
def perform (q : MessageQueue P E) :
    QueueCall P E → MessageQueue P E × Except IndexError (Deque.Reply E)
  | .enqueue target envelope =>
    ((q.enqueue target envelope).1, (q.enqueue target envelope).2.map fun _ => .pushed)
  | .enqueueFront target envelope =>
    ((q.enqueueFront target envelope).1, (q.enqueueFront target envelope).2.map fun _ => .pushed)
  | .dequeueOne target => ((q.dequeueOne target).1, .ok (.popped (q.dequeueOne target).2))
  | .drain target => ((q.drain target).1, .ok (.drained (q.drain target).2))
  | .hasMessages target => (q, .ok (.seen (q.hasMessages target)))

/-- The queue after some calls. -/
def performAll (q : MessageQueue P E) (calls : List (QueueCall P E)) : MessageQueue P E :=
  calls.foldl (fun q call => (q.perform call).1) q

/-- What the calls return or raise, one by one. -/
def replies (q : MessageQueue P E) :
    List (QueueCall P E) → List (Except IndexError (Deque.Reply E))
  | [] => []
  | call :: calls => (q.perform call).2 :: replies (q.perform call).1 calls

/-- What the calls for a target return or raise. -/
def results (target : P) (q : MessageQueue P E) :
    List (QueueCall P E) → List (Except IndexError (Deque.Reply E))
  | [] => []
  | call :: calls =>
    (if call.target = target then [(q.perform call).2] else []) ++
      results target (q.perform call).1 calls

/-- The operations on the deque of a target. -/
def opsFor (target : P) (calls : List (QueueCall P E)) : List (Deque.Op E) :=
  (calls.filter fun call => call.target = target).map QueueCall.op

/-! ### One call -/

theorem maxSize_perform (q : MessageQueue P E) (call : QueueCall P E) :
    (q.perform call).1.maxSize = q.maxSize := by
  cases call with
  | enqueue target envelope => exact maxSize_enqueue q target envelope
  | enqueueFront target envelope => exact maxSize_enqueueFront q target envelope
  | dequeueOne target => exact maxSize_dequeueOne q target
  | drain | hasMessages => rfl

/-- A call leaves the queues of other targets as they are. -/
theorem get?_perform_of_ne (ne : other ≠ call.target) :
    (q.perform call).1.dlq.get? other = q.dlq.get? other := by
  cases call with
  | enqueue target envelope =>
    unfold perform enqueue
    dsimp only
    split_ifs
    · split <;> exact Dict.get?_set_of_ne ne
    · exact Dict.get?_set_of_ne ne
  | enqueueFront target envelope =>
    unfold perform enqueueFront
    dsimp only
    split_ifs
    · split <;> exact Dict.get?_set_of_ne ne
    · exact Dict.get?_set_of_ne ne
  | dequeueOne target =>
    unfold perform dequeueOne
    dsimp only
    split
    · rfl
    · exact Dict.get?_erase_of_ne ne
    · exact Dict.get?_set_of_ne ne
  | drain target => exact Dict.get?_erase_of_ne ne
  | hasMessages target => rfl

theorem enqueue_ok (room : 0 < q.maxSize) (target : P) (envelope : E) :
    (q.enqueue target envelope).2 = .ok () := by
  unfold enqueue
  dsimp only
  split_ifs with full
  · split
    · rename_i none
      rw [none, List.length_nil] at full
      omega
    · rfl
  · rfl

theorem enqueueFront_ok (room : 0 < q.maxSize) (target : P) (envelope : E) :
    (q.enqueueFront target envelope).2 = .ok () := by
  unfold enqueueFront
  dsimp only
  split_ifs with full
  · split
    · rename_i none
      rw [none, List.length_nil] at full
      omega
    · rfl
  · rfl

/-- With room for a message, a push onto a bounded store is a push onto a bounded deque. -/
theorem pushBack_eq_next {capacity : ℕ} (room : 0 < capacity) (l : List E) (a : E) :
    Outbox.pushBack capacity l a = Deque.next capacity l (.pushBack a) := by
  rw [Outbox.pushBack, Deque.next]
  split_ifs with below
  · rfl
  · have some' : l ≠ [] := fun none => by simp [none, room] at below
    exact List.tail_append_of_ne_nil some'

theorem pushFront_eq_next {capacity : ℕ} (room : 0 < capacity) (l : List E) (a : E) :
    Outbox.pushFront capacity l a = Deque.next capacity l (.pushFront a) := by
  rw [Outbox.pushFront, Deque.next]
  split_ifs with below
  · rfl
  · have some' : l ≠ [] := fun none => by simp [none, room] at below
    exact List.dropLast_cons_of_ne_nil some'

/-- A queue that has room for a message does what a bounded deque does, and never raises. -/
theorem perform_self (room : 0 < q.maxSize) (call : QueueCall P E) :
    (q.perform call).1.contents call.target =
        Deque.next q.maxSize (q.contents call.target) call.op ∧
      (q.perform call).2 = .ok (Deque.reply (q.contents call.target) call.op) := by
  cases call with
  | enqueue target envelope =>
    constructor
    · rw [perform, QueueCall.target, contents_enqueue, if_pos rfl, pushBack_eq_next room]
      rfl
    · rw [perform, enqueue_ok room]
      rfl
  | enqueueFront target envelope =>
    constructor
    · rw [perform, QueueCall.target, contents_enqueueFront, if_pos rfl, pushFront_eq_next room]
      rfl
    · rw [perform, enqueueFront_ok room]
      rfl
  | dequeueOne target =>
    constructor
    · rw [perform, QueueCall.target, contents_dequeueOne, if_pos rfl]
      rfl
    · rw [perform, dequeueOne_eq_head?]
      rfl
  | drain target =>
    refine ⟨?_, rfl⟩
    rw [perform, drain, QueueCall.target, contents_erase, if_pos rfl]
    rfl
  | hasMessages target => exact ⟨rfl, rfl⟩

/-- A call leaves what other targets' queues hold. -/
theorem contents_perform_of_ne (ne : other ≠ call.target) :
    (q.perform call).1.contents other = q.contents other := by
  rw [contents, contents, get?_perform_of_ne ne]

/-- Every queue that is kept holds something, and no more than its size. -/
def Bounded (q : MessageQueue P E) : Prop :=
  ∀ target deque, q.dlq.get? target = some deque → 1 ≤ deque.length ∧ deque.length ≤ q.maxSize

/-- A call forgets a queue that it empties. -/
theorem get?_perform_ne_nil (bounded : q.Bounded) (room : 0 < q.maxSize) {deque : List E}
    (kept : (q.perform call).1.dlq.get? call.target = some deque) : deque ≠ [] := by
  have held : (q.perform call).1.contents call.target = deque := by
    rw [contents, kept, Option.getD_some]
  have next := (perform_self room call).1.symm.trans held
  have unchanged : q.dlq.get? call.target = some deque → deque ≠ [] := fun stored =>
    List.length_pos_iff.mp (bounded _ _ stored).1
  cases call with
  | enqueue target envelope =>
    rw [← next]
    exact List.append_ne_nil_of_right_ne_nil _ (List.cons_ne_nil _ _)
  | enqueueFront target envelope =>
    rw [← next]
    exact List.cons_ne_nil _ _
  | dequeueOne target =>
    unfold perform dequeueOne at kept
    dsimp only at kept
    split at kept
    -- The recipient had no deque, an empty one, or one of which more is left.
    · exact unchanged kept
    · rw [QueueCall.target, Dict.get?_erase_self] at kept
      cases kept
    · rename_i oldest newer more _
      rw [QueueCall.target, assign, Dict.get?_set_self] at kept
      intro none
      exact more ((Option.some.inj kept).trans none)
  | drain target =>
    rw [perform, drain, QueueCall.target, Dict.get?_erase_self] at kept
    cases kept
  | hasMessages target => exact unchanged kept

theorem Bounded.perform (bounded : q.Bounded) (room : 0 < q.maxSize) (call : QueueCall P E) :
    (q.perform call).1.Bounded := by
  intro target deque kept
  rw [maxSize_perform]
  by_cases own : target = call.target
  · subst own
    have filled := List.length_pos_iff.mpr (get?_perform_ne_nil bounded room kept)
    refine ⟨filled, ?_⟩
    have before : (q.contents call.target).length ≤ q.maxSize := by
      rw [contents]
      cases stored : q.dlq.get? call.target with
      | none => exact Nat.zero_le _
      | some l => exact (bounded _ l stored).2
    have held : (q.perform call).1.contents call.target = deque := by
      rw [contents, kept, Option.getD_some]
    rw [← held, (perform_self room call).1]
    exact Deque.length_next_le room before call.op
  · rw [get?_perform_of_ne own] at kept
    exact bounded target deque kept

/-! ### Histories -/

theorem maxSize_performAll (q : MessageQueue P E) (calls : List (QueueCall P E)) :
    (q.performAll calls).maxSize = q.maxSize := by
  induction calls generalizing q with
  | nil => rfl
  | cons call calls ih => exact (ih _).trans (maxSize_perform q call)

theorem Bounded.performAll (bounded : q.Bounded) (room : 0 < q.maxSize)
    (calls : List (QueueCall P E)) : (q.performAll calls).Bounded := by
  induction calls generalizing q with
  | nil => exact bounded
  | cons call calls ih => exact ih (bounded.perform room call) (maxSize_perform q call ▸ room)

theorem opsFor_cons (target : P) (call : QueueCall P E) (calls : List (QueueCall P E)) :
    opsFor target (call :: calls) =
      (if call.target = target then [call.op] else []) ++ opsFor target calls := by
  rw [opsFor, opsFor]
  by_cases own : call.target = target <;> simp [own]

/-- The queue of a target is a bounded deque of its own. -/
theorem contents_performAll (room : 0 < q.maxSize) (calls : List (QueueCall P E)) (target : P) :
    (q.performAll calls).contents target =
      Deque.after q.maxSize (q.contents target) (opsFor target calls) := by
  induction calls generalizing q with
  | nil => rfl
  | cons call calls ih =>
    have later := ih (q := (q.perform call).1) (maxSize_perform q call ▸ room)
    rw [maxSize_perform] at later
    rw [opsFor_cons]
    refine later.trans ?_
    by_cases own : call.target = target
    · subst own
      rw [if_pos rfl, (perform_self room call).1]
      rfl
    · rw [if_neg own, contents_perform_of_ne (Ne.symm own), List.nil_append]

/-- The calls for a target return what a bounded deque of its own returns. -/
theorem results_eq (room : 0 < q.maxSize) (calls : List (QueueCall P E)) (target : P) :
    results target q calls =
      (Deque.replies q.maxSize (q.contents target) (opsFor target calls)).map .ok := by
  induction calls generalizing q with
  | nil => rfl
  | cons call calls ih =>
    have later := ih (q := (q.perform call).1) (maxSize_perform q call ▸ room)
    rw [maxSize_perform] at later
    rw [opsFor_cons, results, later]
    by_cases own : call.target = target
    · subst own
      rw [if_pos rfl, if_pos rfl, (perform_self room call).1, (perform_self room call).2]
      rfl
    · rw [if_neg own, if_neg own, contents_perform_of_ne (Ne.symm own), List.nil_append,
        List.nil_append]

/-- The messages that the calls for a target take out. -/
def takenOut (target : P) (q : MessageQueue P E) (calls : List (QueueCall P E)) : List E :=
  (results target q calls).flatMap fun result => (result.toOption.map Deque.Reply.taken).getD []

/-- The messages enqueued for a target. -/
def enqueued (target : P) (calls : List (QueueCall P E)) : List E :=
  (opsFor target calls).flatMap Deque.Op.appends

/-- In any history of a queue with room for a message: a queue that is kept holds at least one and
at most `maxSize` messages, a call has no part in the queues of other targets, and each target has
a bounded deque of its own. A target without `enqueue_front` has what was enqueued for it taken out
in order, except for what was evicted from the front of a full deque and what is still there. -/
theorem history (maxSize : ℕ) (room : 1 ≤ maxSize) (calls : List (QueueCall P E)) :
    (∀ target deque, ((init maxSize : MessageQueue P E).performAll calls).dlq.get? target =
      some deque → 1 ≤ deque.length ∧ deque.length ≤ maxSize) ∧
    (∀ call other, other ≠ call.target →
      (((init maxSize).performAll calls).perform call).1.dlq.get? other =
        ((init maxSize).performAll calls).dlq.get? other) ∧
    (∀ target,
      ((init maxSize).performAll calls).contents target =
          Deque.after maxSize [] (opsFor target calls) ∧
        results target (init maxSize) calls =
          (Deque.replies maxSize [] (opsFor target calls)).map .ok) ∧
    ∀ target, (∀ envelope, .enqueueFront target envelope ∉ calls) →
      enqueued target calls =
          (Deque.departures maxSize [] (opsFor target calls)).map Deque.Departure.element ++
            ((init maxSize).performAll calls).contents target ∧
        takenOut target (init maxSize) calls =
          (Deque.departures maxSize [] (opsFor target calls)).filterMap Deque.Departure.taken? ∧
        (takenOut target (init maxSize) calls).Sublist (enqueued target calls) := by
  have start : (init maxSize : MessageQueue P E).Bounded := fun target deque stored => by
    cases stored
  have deques (target : P) := contents_performAll (q := (init maxSize : MessageQueue P E)) room
    calls target
  have returned (target : P) :=
    results_eq (q := (init maxSize : MessageQueue P E)) room calls target
  have bounded := start.performAll room calls
  rw [Bounded, maxSize_performAll] at bounded
  refine ⟨bounded, fun call other ne => get?_perform_of_ne ne,
    fun target => ⟨deques target, returned target⟩, ?_⟩
  intro target noFront
  -- The calls for this target add at the back only.
  have backOnly : ∀ a, Deque.Op.pushFront a ∉ opsFor target calls := by
    intro a member
    obtain ⟨call, kept, op⟩ := List.mem_map.mp member
    obtain ⟨called, own⟩ := List.mem_filter.mp kept
    cases call with
    | enqueueFront other envelope =>
      obtain rfl : other = target := of_decide_eq_true own
      exact noFront envelope called
    | enqueue | dequeueOne | drain | hasMessages => cases op
  have taken : takenOut target (init maxSize) calls =
      (Deque.replies maxSize [] (opsFor target calls)).flatMap Deque.Reply.taken := by
    rw [takenOut, returned target, List.flatMap_map]
    rfl
  refine ⟨?_, ?_, ?_⟩
  · rw [deques target]
    exact Deque.append_flatMap_appends maxSize [] backOnly
  · rw [taken, Deque.filterMap_departures]
  · rw [taken]
    exact Deque.taken_sublist backOnly

/-- A queue for two messages that three are enqueued for. -/
def overflowing : List (QueueCall String ℕ) :=
  [.enqueue "bob" 1, .enqueue "bob" 2, .enqueueFront "eve" 7, .enqueue "bob" 3, .dequeueOne "bob",
    .hasMessages "eve", .drain "bob"]

theorem history_overflowing :
    takenOut "bob" (init 2) overflowing = [2, 3] ∧
      (takenOut "bob" (init 2) overflowing).Sublist (enqueued "bob" overflowing) := by
  refine ⟨by decide, ?_⟩
  have noFront : ∀ envelope, .enqueueFront "bob" envelope ∉ overflowing := by simp [overflowing]
  exact ((history 2 (by decide) overflowing).2.2.2 "bob" noFront).2.2

end MessageQueue

end AgentTelepathy
