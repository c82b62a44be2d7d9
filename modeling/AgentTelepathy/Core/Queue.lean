import AgentTelepathy.Foundation.Dict
import AgentTelepathy.Foundation.Outbox

/-!
# The dead-letter queue

`MessageQueue` keeps one deque of envelopes per peer, of bounded size. Its lock
is never held across an await, so each operation is one step. What an operation
does to the deque of its target is an operation of a bounded store; the deques
of other peers stay as they are.
-/

namespace AgentTelepathy

open Foundation

/-- Taking an element from an empty deque. -/
inductive IndexError
  | popFromEmptyDeque
deriving DecidableEq

/-- Envelopes that could not be delivered, by peer. -/
structure MessageQueue (P E : Type*) where
  maxSize : ℕ
  dlq : Dict P (List E)

namespace MessageQueue

variable {P E : Type*} [DecidableEq P]

/-- A queue without messages. -/
def init (maxSize : ℕ) : MessageQueue P E := ⟨maxSize, Dict.empty⟩

/-- The deque of a peer; a peer without entry has none. -/
def contents (q : MessageQueue P E) (target : P) : List E := (q.dlq.get? target).getD []

/-- Store the deque of a peer. -/
def assign (q : MessageQueue P E) (target : P) (deque : List E) : MessageQueue P E :=
  { q with dlq := q.dlq.set target deque }

/-- `enqueue`: append, dropping the oldest message of a full deque. -/
def enqueue (q : MessageQueue P E) (target : P) (envelope : E) :
    MessageQueue P E × Except IndexError Unit :=
  let deque := q.contents target
  if deque.length ≥ q.maxSize then
    match deque with
    | [] => (q.assign target [], .error .popFromEmptyDeque)
    | _ :: newer => (q.assign target (newer ++ [envelope]), .ok ())
  else (q.assign target (deque ++ [envelope]), .ok ())

/-- `enqueue_front`: put back in front, dropping the newest message of a full deque. -/
def enqueueFront (q : MessageQueue P E) (target : P) (envelope : E) :
    MessageQueue P E × Except IndexError Unit :=
  let deque := q.contents target
  if deque.length ≥ q.maxSize then
    match deque with
    | [] => (q.assign target [], .error .popFromEmptyDeque)
    | oldest :: newer => (q.assign target (envelope :: (oldest :: newer).dropLast), .ok ())
  else (q.assign target (envelope :: deque), .ok ())

/-- `dequeue_one`: take the oldest message and forget a deque that becomes empty. -/
def dequeueOne (q : MessageQueue P E) (target : P) : MessageQueue P E × Option E :=
  match q.contents target with
  | [] => (q, none)
  | oldest :: [] => ({ q with dlq := q.dlq.erase target }, some oldest)
  | oldest :: newer => (q.assign target newer, some oldest)

/-- `drain`: take all messages of a peer. -/
def drain (q : MessageQueue P E) (target : P) : MessageQueue P E × List E :=
  ({ q with dlq := q.dlq.erase target }, q.contents target)

/-- `has_messages`. -/
def hasMessages (q : MessageQueue P E) (target : P) : Bool := (q.contents target).length > 0

@[simp] theorem contents_init (maxSize : ℕ) (target : P) :
    (init maxSize : MessageQueue P E).contents target = [] := rfl

@[simp] theorem contents_assign (q : MessageQueue P E) (target other : P) (deque : List E) :
    (q.assign target deque).contents other =
      if other = target then deque else q.contents other := by
  rw [contents, assign, Dict.get?_set]
  split_ifs <;> rfl

@[simp] theorem contents_erase (q : MessageQueue P E) (target other : P) :
    ({ q with dlq := q.dlq.erase target } : MessageQueue P E).contents other =
      if other = target then [] else q.contents other := by
  rw [contents, Dict.get?_erase]
  split_ifs <;> rfl

@[simp] theorem maxSize_enqueue (q : MessageQueue P E) (target : P) (envelope : E) :
    (q.enqueue target envelope).1.maxSize = q.maxSize := by
  by_cases full : (q.contents target).length ≥ q.maxSize
  · cases deque : q.contents target <;> simp_all [enqueue, assign]
  · simp [enqueue, full, assign]

@[simp] theorem maxSize_enqueueFront (q : MessageQueue P E) (target : P) (envelope : E) :
    (q.enqueueFront target envelope).1.maxSize = q.maxSize := by
  by_cases full : (q.contents target).length ≥ q.maxSize
  · cases deque : q.contents target <;> simp_all [enqueueFront, assign]
  · simp [enqueueFront, full, assign]

@[simp] theorem maxSize_dequeueOne (q : MessageQueue P E) (target : P) :
    (q.dequeueOne target).1.maxSize = q.maxSize := by
  unfold dequeueOne
  split <;> rfl

/-- Enqueueing pushes onto the back of the target's bounded deque. -/
theorem contents_enqueue (q : MessageQueue P E) (target other : P) (envelope : E) :
    (q.enqueue target envelope).1.contents other =
      if other = target then Outbox.pushBack q.maxSize (q.contents target) envelope
      else q.contents other := by
  by_cases full : (q.contents target).length ≥ q.maxSize
  · cases deque : q.contents target with
    | nil => simp_all [enqueue, Outbox.pushBack]
    | cons oldest newer =>
      have noRoom : ¬ newer.length + 1 < q.maxSize := by simpa [deque] using full
      simp [enqueue, deque, Outbox.pushBack, noRoom, not_lt.mp noRoom]
  · simp [enqueue, full, Outbox.pushBack, not_le.mp full]

/-- Enqueueing raises only if the queue has no room at all. -/
theorem contents_of_error {q q' : MessageQueue P E} {target : P} {envelope : E} {error : IndexError}
    (raised : q.enqueue target envelope = (q', .error error)) : q'.contents target = [] := by
  unfold enqueue at raised
  dsimp only at raised
  split_ifs at raised
  · split at raised
    · cases raised
      rw [contents_assign, if_pos rfl]
    · cases raised
  · cases raised

/-- Putting back pushes onto the front of the target's bounded deque. -/
theorem contents_enqueueFront (q : MessageQueue P E) (target other : P) (envelope : E) :
    (q.enqueueFront target envelope).1.contents other =
      if other = target then Outbox.pushFront q.maxSize (q.contents target) envelope
      else q.contents other := by
  by_cases full : (q.contents target).length ≥ q.maxSize
  · cases deque : q.contents target with
    | nil => simp_all [enqueueFront, Outbox.pushFront]
    | cons oldest newer =>
      have noRoom : ¬ newer.length + 1 < q.maxSize := by simpa [deque] using full
      simp [enqueueFront, deque, Outbox.pushFront, noRoom, not_lt.mp noRoom]
  · simp [enqueueFront, full, Outbox.pushFront, not_le.mp full]

/-- Dequeueing takes the front of the target's deque. -/
theorem contents_dequeueOne (q : MessageQueue P E) (target other : P) :
    (q.dequeueOne target).1.contents other =
      if other = target then (q.contents target).tail else q.contents other := by
  unfold dequeueOne
  split
  · rename_i none
    split_ifs with same
    · rw [same, none]
      rfl
    · rfl
  · rename_i one
    simp [one]
  · rename_i more
    simp [more]

theorem dequeueOne_eq_head? (q : MessageQueue P E) (target : P) :
    (q.dequeueOne target).2 = (q.contents target).head? := by
  unfold dequeueOne
  split <;> rename_i deque <;> rw [deque] <;> rfl

theorem dequeueOne_of_empty {q : MessageQueue P E} {target : P} (empty : q.contents target = []) :
    q.dequeueOne target = (q, none) := by
  rw [dequeueOne, empty]

end MessageQueue

end AgentTelepathy
