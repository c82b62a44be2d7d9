import AgentTelepathy.Core.QueueHistory

/-!
# The dead-letter queue of the TypeScript node

The `MessageQueue` of `node.ts` is the one of the Python node without `drain`. An array that is
full loses its oldest message to `enqueue` and its newest to `enqueueFront`; `shift` and `pop` do
nothing on an empty array, so a queue without any room holds one message, where a deque raises.
-/

namespace AgentTelepathy.TypeScript

open Foundation

/-- The `MessageQueue` of `node.ts`. -/
structure MessageQueue (P E : Type*) where
  maxSize : ℕ
  dlq : Dict P (List E)

namespace MessageQueue

variable {P E : Type*} [DecidableEq P]

/-- A queue without messages. -/
def init (maxSize : ℕ) : MessageQueue P E := ⟨maxSize, Dict.empty⟩

/-- The messages of a peer; a peer without entry has none. -/
def contents (q : MessageQueue P E) (targetId : P) : List E := (q.dlq.get? targetId).getD []

/-- The array of a peer after it was changed in place. -/
def assign (q : MessageQueue P E) (targetId : P) (array : List E) : MessageQueue P E :=
  { q with dlq := q.dlq.set targetId array }

/-- `enqueue` -/
def enqueue (q : MessageQueue P E) (targetId : P) (message : E) : MessageQueue P E :=
  let array := q.contents targetId
  q.assign targetId
    ((if array.length ≥ q.maxSize then array.tail else array) ++ [message])

/-- `enqueueFront` -/
def enqueueFront (q : MessageQueue P E) (targetId : P) (message : E) : MessageQueue P E :=
  let array := q.contents targetId
  q.assign targetId
    (message :: if array.length ≥ q.maxSize then array.dropLast else array)

/-- `dequeueOne`: `shift`, and delete an array that becomes empty. -/
def dequeueOne (q : MessageQueue P E) (targetId : P) : MessageQueue P E × Option E :=
  match q.contents targetId with
  | [] => (q, none)
  | oldest :: newer =>
    if newer.length = 0 then ({ q with dlq := q.dlq.erase targetId }, some oldest)
    else (q.assign targetId newer, some oldest)

/-- `hasMessages` -/
def hasMessages (q : MessageQueue P E) (targetId : P) : Bool :=
  match q.dlq.get? targetId with
  | none => false
  | some array => array.length > 0

/-! ### The queue of the Python node

Operation by operation the queue does what the Python queue does that has room for a message. -/

/-- The queue of the Python node with the same messages. -/
def python (q : MessageQueue P E) : AgentTelepathy.MessageQueue P E := ⟨max q.maxSize 1, q.dlq⟩

@[simp] theorem contents_python (q : MessageQueue P E) (targetId : P) :
    q.python.contents targetId = q.contents targetId := rfl

/-- An array is full for both, or empty in a queue that has no room at all. -/
theorem full_cases (q : MessageQueue P E) (targetId : P) :
    ((q.contents targetId).length ≥ q.maxSize ∧
        (q.python.contents targetId).length ≥ q.python.maxSize ∧ q.contents targetId ≠ []) ∨
      ((q.contents targetId).length ≥ q.maxSize ∧
        ¬ (q.python.contents targetId).length ≥ q.python.maxSize ∧ q.contents targetId = []) ∨
      (¬ (q.contents targetId).length ≥ q.maxSize ∧
        ¬ (q.python.contents targetId).length ≥ q.python.maxSize) := by
  rw [contents_python, python]
  cases array : q.contents targetId with
  | nil =>
    simp only [List.length_nil, ge_iff_le, ne_eq, not_true_eq_false, and_false, and_true, false_or]
    omega
  | cons oldest newer =>
    simp only [List.length_cons, ge_iff_le, max_le_iff, ne_eq, reduceCtorEq, not_false_eq_true,
      and_false, false_or, and_true]
    omega

theorem enqueue_python (q : MessageQueue P E) (targetId : P) (message : E) :
    q.python.enqueue targetId message = ((q.enqueue targetId message).python, .ok ()) := by
  rw [AgentTelepathy.MessageQueue.enqueue, enqueue]
  rcases full_cases q targetId with ⟨full, deque, held⟩ | ⟨full, deque, none⟩ | ⟨some, deque⟩
  · rw [if_pos full, if_pos deque, contents_python]
    cases array : q.contents targetId with
    | nil => exact absurd array held
    | cons oldest newer => rfl
  · rw [if_pos full, if_neg deque, contents_python, none]
    rfl
  · rw [if_neg some, if_neg deque]
    rfl

theorem enqueueFront_python (q : MessageQueue P E) (targetId : P) (message : E) :
    q.python.enqueueFront targetId message =
      ((q.enqueueFront targetId message).python, .ok ()) := by
  rw [AgentTelepathy.MessageQueue.enqueueFront, enqueueFront]
  rcases full_cases q targetId with ⟨full, deque, held⟩ | ⟨full, deque, none⟩ | ⟨some, deque⟩
  · rw [if_pos full, if_pos deque, contents_python]
    cases array : q.contents targetId with
    | nil => exact absurd array held
    | cons oldest newer => rfl
  · rw [if_pos full, if_neg deque, contents_python, none]
    rfl
  · rw [if_neg some, if_neg deque]
    rfl

theorem dequeueOne_python (q : MessageQueue P E) (targetId : P) :
    q.python.dequeueOne targetId =
      ((q.dequeueOne targetId).1.python, (q.dequeueOne targetId).2) := by
  rw [AgentTelepathy.MessageQueue.dequeueOne, dequeueOne, contents_python]
  rcases q.contents targetId with _ | ⟨oldest, _ | ⟨next, newer⟩⟩ <;> rfl

theorem hasMessages_python (q : MessageQueue P E) (targetId : P) :
    q.python.hasMessages targetId = q.hasMessages targetId := by
  rw [AgentTelepathy.MessageQueue.hasMessages, hasMessages, contents_python, contents]
  cases q.dlq.get? targetId <;> rfl

/-- Enqueueing pushes onto the back of the target's bounded deque. -/
theorem contents_enqueue (q : MessageQueue P E) (targetId other : P) (message : E) :
    (q.enqueue targetId message).contents other =
      if other = targetId then Outbox.pushBack (max q.maxSize 1) (q.contents targetId) message
      else q.contents other := by
  have pushed := q.python.contents_enqueue targetId other message
  rwa [enqueue_python] at pushed

/-- Putting back pushes onto its front. -/
theorem contents_enqueueFront (q : MessageQueue P E) (targetId other : P) (message : E) :
    (q.enqueueFront targetId message).contents other =
      if other = targetId then Outbox.pushFront (max q.maxSize 1) (q.contents targetId) message
      else q.contents other := by
  have pushed := q.python.contents_enqueueFront targetId other message
  rwa [enqueueFront_python] at pushed

theorem contents_dequeueOne (q : MessageQueue P E) (targetId other : P) :
    (q.dequeueOne targetId).1.contents other =
      if other = targetId then (q.contents targetId).tail else q.contents other := by
  have taken := q.python.contents_dequeueOne targetId other
  rwa [dequeueOne_python] at taken

theorem dequeueOne_eq_head? (q : MessageQueue P E) (targetId : P) :
    (q.dequeueOne targetId).2 = (q.contents targetId).head? := by
  have taken := q.python.dequeueOne_eq_head? targetId
  rwa [dequeueOne_python] at taken

/-- A message that was taken out was the oldest, and only that array is changed. -/
theorem contents_of_dequeueOne {q q' : MessageQueue P E} {targetId : P} {message : E}
    (taken : q.dequeueOne targetId = (q', some message)) :
    q.contents targetId = message :: q'.contents targetId ∧
      ∀ other, other ≠ targetId → q'.contents other = q.contents other := by
  have rest (other : P) := contents_dequeueOne q targetId other
  have first := dequeueOne_eq_head? q targetId
  rw [taken] at rest first
  refine ⟨?_, fun other ne => by rw [rest other, if_neg ne]⟩
  have tail := rest targetId
  rw [if_pos rfl] at tail
  obtain ⟨later, array⟩ := List.head?_eq_some_iff.mp first.symm
  rw [array, List.tail_cons] at tail
  rw [array, tail]

theorem hasMessages_eq_true_iff (q : MessageQueue P E) (targetId : P) :
    q.hasMessages targetId = true ↔ q.contents targetId ≠ [] := by
  rw [hasMessages, contents]
  cases q.dlq.get? targetId with
  | none => simp
  | some array => simp [List.length_pos_iff]

@[simp] theorem maxSize_enqueue (q : MessageQueue P E) (targetId : P) (message : E) :
    (q.enqueue targetId message).maxSize = q.maxSize := rfl

@[simp] theorem maxSize_enqueueFront (q : MessageQueue P E) (targetId : P) (message : E) :
    (q.enqueueFront targetId message).maxSize = q.maxSize := rfl

@[simp] theorem maxSize_dequeueOne (q : MessageQueue P E) (targetId : P) :
    (q.dequeueOne targetId).1.maxSize = q.maxSize := by
  rw [dequeueOne]
  split
  · rfl
  · split_ifs <;> rfl

theorem maxSize_of_dequeueOne {q q' : MessageQueue P E} {targetId : P} {message : Option E}
    (taken : q.dequeueOne targetId = (q', message)) : q'.maxSize = q.maxSize := by
  rw [← q.maxSize_dequeueOne targetId, taken]

/-! ### Histories -/

/-- A call of an operation of the queue. -/
inductive Call (P E : Type*)
  | enqueue (targetId : P) (message : E)
  | enqueueFront (targetId : P) (message : E)
  | dequeueOne (targetId : P)
  | hasMessages (targetId : P)

/-- The call of the Python queue. -/
def Call.python : Call P E → QueueCall P E
  | .enqueue targetId message => .enqueue targetId message
  | .enqueueFront targetId message => .enqueueFront targetId message
  | .dequeueOne targetId => .dequeueOne targetId
  | .hasMessages targetId => .hasMessages targetId

/-- The queue after a call, and what the call returns. -/
def perform (q : MessageQueue P E) : Call P E → MessageQueue P E × Deque.Reply E
  | .enqueue targetId message => (q.enqueue targetId message, .pushed)
  | .enqueueFront targetId message => (q.enqueueFront targetId message, .pushed)
  | .dequeueOne targetId => ((q.dequeueOne targetId).1, .popped (q.dequeueOne targetId).2)
  | .hasMessages targetId => (q, .seen (q.hasMessages targetId))

/-- The queue after some calls. -/
def performAll (q : MessageQueue P E) (calls : List (Call P E)) : MessageQueue P E :=
  calls.foldl (fun q call => (q.perform call).1) q

/-- What the calls return, one by one. -/
def replies (q : MessageQueue P E) : List (Call P E) → List (Deque.Reply E)
  | [] => []
  | call :: calls => (q.perform call).2 :: replies (q.perform call).1 calls

/-- One call is the call of the Python queue, which does not raise. -/
theorem perform_python (q : MessageQueue P E) (call : Call P E) :
    q.python.perform call.python = ((q.perform call).1.python, .ok (q.perform call).2) := by
  cases call with
  | enqueue targetId message =>
    rw [Call.python, AgentTelepathy.MessageQueue.perform, enqueue_python]
    rfl
  | enqueueFront targetId message =>
    rw [Call.python, AgentTelepathy.MessageQueue.perform, enqueueFront_python]
    rfl
  | dequeueOne targetId =>
    rw [Call.python, AgentTelepathy.MessageQueue.perform, dequeueOne_python]
    rfl
  | hasMessages targetId =>
    rw [Call.python, AgentTelepathy.MessageQueue.perform, hasMessages_python]
    rfl

theorem performAll_python (q : MessageQueue P E) (calls : List (Call P E)) :
    q.python.performAll (calls.map Call.python) = (q.performAll calls).python := by
  induction calls generalizing q with
  | nil => rfl
  | cons call calls ih =>
    refine Eq.trans ?_ (ih (q.perform call).1)
    rw [AgentTelepathy.MessageQueue.performAll, List.map_cons, List.foldl_cons, perform_python]
    rfl

theorem replies_python (q : MessageQueue P E) (calls : List (Call P E)) :
    q.python.replies (calls.map Call.python) = (q.replies calls).map .ok := by
  induction calls generalizing q with
  | nil => rfl
  | cons call calls ih =>
    rw [List.map_cons, AgentTelepathy.MessageQueue.replies, perform_python, ih]
    rfl

/-- Over any history of calls the queues of the two nodes hold the same messages for the same
peers, in the same order of the peers, and return the same, call by call. For a queue without room
the Python queue is one with room for a message. -/
theorem agrees_with_python (maxSize : ℕ) (calls : List (Call P E)) :
    ((init maxSize : MessageQueue P E).performAll calls).dlq =
        ((AgentTelepathy.MessageQueue.init (max maxSize 1)).performAll
          (calls.map Call.python)).dlq ∧
      (AgentTelepathy.MessageQueue.init (max maxSize 1)).replies (calls.map Call.python) =
        ((init maxSize).replies calls).map .ok :=
  ⟨(congrArg AgentTelepathy.MessageQueue.dlq (performAll_python (init maxSize) calls)).symm,
    replies_python (init maxSize) calls⟩

/-- Without any room the Python queue raises where this one keeps a message. -/
example : (AgentTelepathy.MessageQueue.init 0).replies [QueueCall.enqueue "bob" 1] =
      [.error .popFromEmptyDeque] ∧
    ((init 0 : MessageQueue String ℕ).performAll [.enqueue "bob" 1]).contents "bob" = [1] :=
  ⟨rfl, rfl⟩

end MessageQueue

end AgentTelepathy.TypeScript
