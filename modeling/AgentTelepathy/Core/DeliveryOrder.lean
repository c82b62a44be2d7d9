import AgentTelepathy.Core.Delivery

/-!
# The order of delivery

Envelopes dispatched to a peer one after the other need not reach it in that
order: a later dispatch may find or make a connection while an earlier envelope
waits in the queue, and two drains of one peer may each hold an envelope when
the older send raises. Where neither happens, the peer's outbox is handled
oldest first, and what is transmitted is in the order of dispatch.
-/

namespace AgentTelepathy

open Foundation Foundation.Transition

namespace Delivery

variable {P E : Type*} [DecidableEq P]

/-- Dispatches to the peer are issued one after the other. -/
def Sequential (p : P) (n : Delivery P E) : DeliveryEvent P E → Prop
  | .dispatch target _ _ => target = p → (n.heldByDispatches p).card = 0
  | _ => True

/-- Resuming a task of the peer does not overtake: a direct send succeeds only
while no envelope of the peer is queued or held by a drain, and a drain dequeues
only while no drain of the peer holds an envelope. -/
def DoesNotOvertake (p : P) (n : Delivery P E) (ok : Bool) : Task P E → Prop
  | .sending target _ _ =>
    target = p → ok = true → n.messageQueue.contents p = [] ∧ (n.heldByDrains p).card = 0
  | .dequeuing drain _ => drain.target = p → (n.heldByDrains p).card = 0
  | _ => True

/-- No event lets an envelope of the peer overtake an earlier one. -/
def Uncontended (p : P) (n : Delivery P E) : DeliveryEvent P E → Prop
  | .resume i ok => ∀ task ∈ n.tasks[i]?, n.DoesNotOvertake p ok task
  | _ => True

instance (p : P) (n : Delivery P E) (event : DeliveryEvent P E) :
    Decidable (Sequential p n event) :=
  match event with
  | .dispatch _ _ _ => inferInstanceAs (Decidable (_ → _))
  | .resume _ _ | .register _ _ | .remove _ | .setRunning _ | .clearConnections => .isTrue trivial

instance (p : P) (n : Delivery P E) (ok : Bool) (task : Task P E) :
    Decidable (n.DoesNotOvertake p ok task) :=
  match task with
  | .sending _ _ _ => inferInstanceAs (Decidable (_ → _ → _ ∧ _))
  | .dequeuing _ _ => inferInstanceAs (Decidable (_ → _))
  | .orphaning _ _ | .connecting _ _ _ | .queueing _ _ | .starting _ | .polling _
  | .reconnecting _ | .checking _ _ | .draining _ _ _ | .requeueing _ _ | .sleeping _
  | .done => .isTrue trivial

instance (p : P) (n : Delivery P E) (event : DeliveryEvent P E) :
    Decidable (Uncontended p n event) :=
  match event with
  | .resume _ _ => inferInstanceAs (Decidable (∀ _ ∈ _, _))
  | .dispatch _ _ _ | .register _ _ | .remove _ | .setRunning _ | .clearConnections =>
    .isTrue trivial

/-- Where dispatches are sequential and nothing overtakes, the peer's outbox is
handled oldest first. -/
theorem orderly_of_uncontended {p : P} {n : Delivery P E} {event : DeliveryEvent P E}
    {move : Outbox.Move E} (sequential : Sequential p n event) (uncontended : Uncontended p n event)
    (moves : n.move event = some (p, move)) : Outbox.Orderly (n.outbox p) move := by
  cases event with
  | dispatch target envelope isOpen =>
    obtain ⟨rfl, rfl⟩ := Prod.mk.inj (Option.some.inj moves)
    exact Multiset.card_eq_zero.mp (sequential rfl)
  | resume i ok =>
    obtain ⟨task, running, moved⟩ := Option.bind_eq_some_iff.mp moves
    -- A direct send and a dequeue are the two moves that could overtake another message.
    have still := uncontended task running
    cases task with
    | sending target ws envelope =>
      cases ok with
      | false => simp [taskMove] at moved
      | true =>
        obtain ⟨rfl, rfl⟩ := Prod.mk.inj (Option.some.inj moved)
        obtain ⟨empty, idle⟩ := still rfl rfl
        exact ⟨empty, Multiset.card_eq_zero.mp idle⟩
    | dequeuing drain ws =>
      obtain ⟨msg, -, eq⟩ := Option.map_eq_some_iff.mp moved
      obtain ⟨rfl, rfl⟩ := Prod.mk.inj eq
      exact Multiset.card_eq_zero.mp (still rfl)
    | orphaning target envelope | queueing target envelope =>
      obtain ⟨rfl, rfl⟩ := Prod.mk.inj (Option.some.inj moved)
      trivial
    | requeueing drain msg =>
      obtain ⟨rfl, rfl⟩ := Prod.mk.inj (Option.some.inj moved)
      trivial
    | draining drain ws msg =>
      cases ok with
      | false => simp [taskMove] at moved
      | true =>
        obtain ⟨rfl, rfl⟩ := Prod.mk.inj (Option.some.inj moved)
        trivial
    | connecting target endpoint envelope => simp [taskMove] at moved
    | starting target => simp [taskMove] at moved
    | polling drain => simp [taskMove] at moved
    | reconnecting drain => simp [taskMove] at moved
    | checking drain ws => simp [taskMove] at moved
    | sleeping drain => simp [taskMove] at moved
    | done => simp [taskMove] at moved
  | register target endpoint => simp [Delivery.move] at moves
  | remove target => simp [Delivery.move] at moves
  | setRunning running => simp [Delivery.move] at moves
  | clearConnections => simp [Delivery.move] at moves

/-- In every run of sequential dispatches to a peer in which nothing overtakes,
the envelopes transmitted to the peer are in the order of their dispatch. -/
theorem sent_in_order {maxSize : ℕ} {p : P} {events : List (DeliveryEvent P E)}
    {n : Delivery P E}
    (run : Run (Guarded (OfPartial next) fun n event => Sequential p n event ∧
      Uncontended p n event) (init maxSize) events n) :
    (n.sentTo p).Sublist (n.dispatchedTo p) := by
  obtain ⟨-, moves, matched⟩ := run_refines p Outbox.Orderly
    (fun _ _ _ _ guard moves => orderly_of_uncontended guard.1 guard.2 moves) run
  have start : Outbox.InOrder ((init maxSize : Delivery P E).outbox p) :=
    ⟨none, none, rfl, rfl, List.Sublist.refl _⟩
  exact start.run matched

/-- A connect fails, the envelope is queued and its drain delivers it; then the
next envelope is sent on the pooled connection. -/
def recovered : List (DeliveryEvent Bool ℕ) :=
  [.register true "ws://peer", .setRunning true, .dispatch true 1 false, .resume 0 false,
    .resume 0 true, .resume 1 true, .resume 1 true, .resume 1 true, .resume 1 true,
    .resume 1 true, .resume 1 true, .dispatch true 2 true, .resume 2 true]

theorem sent_in_order_recovered :
    let n := (runPartial (checked next fun n event =>
      Sequential true n event ∧ Uncontended true n event) (init 500) recovered).get (by decide)
    n.sentTo true = [1, 2] ∧ (n.sentTo true).Sublist (n.dispatchedTo true) :=
  ⟨by decide, sent_in_order (run_get_checked (by decide))⟩

/-- The first connect fails; the next dispatch connects at once and is
transmitted before the drain delivers the queued envelope. -/
def overtakenByDispatch : List (DeliveryEvent Bool ℕ) :=
  [.register true "ws://peer", .setRunning true, .dispatch true 1 false, .resume 0 false,
    .resume 0 true, .dispatch true 2 false, .resume 2 true, .resume 2 true, .resume 1 true,
    .resume 1 true, .resume 1 true, .resume 1 true, .resume 1 true, .resume 1 true]

/-- Two connects fail and spawn two drains; the second one sends its envelope
while the send of the first one's is still to raise. -/
def overtakenByDrain : List (DeliveryEvent Bool ℕ) :=
  [.register true "ws://peer", .setRunning true, .dispatch true 1 false, .resume 0 false,
    .resume 0 true, .dispatch true 2 false, .resume 2 false, .resume 2 true, .resume 1 true,
    .resume 1 true, .resume 1 true, .resume 1 true, .resume 1 true, .resume 3 true,
    .resume 3 true, .resume 3 true, .resume 3 true, .resume 3 true, .resume 3 true,
    .resume 1 false, .resume 1 true, .resume 1 true, .resume 1 true, .resume 1 true,
    .resume 1 true, .resume 1 true, .resume 1 true]

/-- Sequential dispatches are transmitted out of order, through either cause. -/
theorem sent_out_of_order :
    (∃ n, Run (Guarded (OfPartial next) (Sequential true)) (init 500) overtakenByDispatch n ∧
      n.dispatchedTo true = [1, 2] ∧ n.sentTo true = [2, 1] ∧
      ¬ (n.sentTo true).Sublist (n.dispatchedTo true)) ∧
    ∃ n, Run (Guarded (OfPartial next) (Sequential true)) (init 500) overtakenByDrain n ∧
      n.dispatchedTo true = [1, 2] ∧ n.sentTo true = [2, 1] ∧
      ¬ (n.sentTo true).Sublist (n.dispatchedTo true) := by
  have byDispatch : (runPartial (checked next (Sequential true)) (init 500)
      overtakenByDispatch).isSome := by decide
  have byDrain : (runPartial (checked next (Sequential true)) (init 500)
      overtakenByDrain).isSome := by decide
  exact ⟨⟨_, run_get_checked byDispatch, by decide +revert⟩,
    ⟨_, run_get_checked byDrain, by decide +revert⟩⟩

end Delivery

end AgentTelepathy
