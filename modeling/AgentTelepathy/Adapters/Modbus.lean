import AgentTelepathy.Foundation.Scalar
import AgentTelepathy.Foundation.Transition

/-!
# Writing to a Modbus device

`execute_write` first retries the commands whose write has failed before, in their
order, and then makes its own write. A write fails if it raises; the response of the
device is not looked at. A command whose write failed waits in a bounded queue.

Calls are taken one after the other here. A command is known by the number of the call
that brought it.
-/

namespace AgentTelepathy

open Foundation Foundation.Transition

namespace Modbus

/-- A write as the client is asked for it. -/
inductive DeviceWrite
  | coil (address : ℤ) (value : Bool)
  | register (address value : ℤ)
deriving DecidableEq

/-- What is written to: a coil or a holding register, and its address. -/
def DeviceWrite.target : DeviceWrite → Bool × ℤ
  | .coil address _ => (true, address)
  | .register address _ => (false, address)

/-- The write that `_do_write` asks for; nothing where it raises before. -/
def doWrite (fields : Json) : Option DeviceWrite := do
  let cmdType ← fields.getD "type" (.str "holding")
  let address ← (← fields.get? "address").toInt?
  let value ← fields.get? "value"
  if cmdType = .str "coil" then return .coil address value.truthy
  else return .register address (← value.toInt?)

/-- A command with the number of the call that brought it. -/
structure WriteCmd where
  issue : ℕ
  fields : Json
deriving DecidableEq

/-- `(type, address)`; nothing for a command that no device is asked for. -/
def WriteCmd.target? (c : WriteCmd) : Option (Bool × ℤ) := (doWrite c.fields).map DeviceWrite.target

/-- How a write ends: with a response, which may be an error response, or an exception. -/
inductive Answer
  | success
  | error
  | raised
deriving DecidableEq

/-- How the write of a command ends, given what the device answers to each command. -/
def outcome (answer : ℕ → Answer) (c : WriteCmd) : Answer :=
  if (doWrite c.fields).isSome then answer c.issue else .raised

/-- `_max_retry_queue`. -/
def maxRetryQueue : ℕ := 100

/-- Put a command on the retry queue, or drop it. -/
def enqueue (queue : List WriteCmd) (c : WriteCmd) : List WriteCmd :=
  if queue.length < maxRetryQueue then queue ++ [c] else queue

/-- The loop of `drain_retry_queue`, with `remaining` and `retried`. -/
def drainLoop (answer : ℕ → Answer) : List WriteCmd → List WriteCmd → ℕ → List WriteCmd × ℕ
  | [], remaining, retried => (remaining, retried)
  | c :: rest, remaining, retried =>
    match outcome answer c with
    | .raised => drainLoop answer rest (remaining ++ [c]) retried
    | .success | .error => drainLoop answer rest remaining (retried + 1)

/-- `drain_retry_queue()`: the queue after it, and what it returns. -/
def drainRetryQueue (answer : ℕ → Answer) (queue : List WriteCmd) : List WriteCmd × ℕ :=
  if queue.isEmpty then (queue, 0) else drainLoop answer queue [] 0

/-- `execute_write(write_cmd)`: the queue after it, and what it returns. -/
def executeWrite (connected : Bool) (answer : ℕ → Answer) (queue : List WriteCmd) (c : WriteCmd) :
    List WriteCmd × Bool :=
  if connected then
    let (queue, _) := drainRetryQueue answer queue
    match outcome answer c with
    | .raised => (enqueue queue c, false)
    | .success | .error => (queue, true)
  else (enqueue queue c, false)

/-- A drain keeps the commands whose write raised and counts the others. -/
theorem drainRetryQueue_eq (answer : ℕ → Answer) (queue : List WriteCmd) :
    drainRetryQueue answer queue = (queue.filter fun c => outcome answer c = .raised,
      queue.countP fun c => outcome answer c ≠ .raised) := by
  have loop : ∀ (queue remaining : List WriteCmd) (retried : ℕ),
      drainLoop answer queue remaining retried =
        (remaining ++ queue.filter fun c => outcome answer c = .raised,
          retried + queue.countP fun c => outcome answer c ≠ .raised) := by
    intro queue
    induction queue with
    | nil => simp [drainLoop]
    | cons c queue ih =>
      intro remaining retried
      cases ends : outcome answer c <;> simp [drainLoop, ends, ih] <;> omega
  cases queue with
  | nil => rfl
  | cons c queue => simp [drainRetryQueue, loop]

/-! ### Histories of calls -/

/-- The retry queue, the number of calls so far, and the commands that the device has
applied, in order. -/
structure Plant where
  retryQueue : List WriteCmd
  issued : ℕ
  applied : List WriteCmd

/-- A call, with what the device answers to each command while it runs. -/
inductive Event
  | execute (connected : Bool) (fields : Json) (answer : ℕ → Answer)
  | drain (answer : ℕ → Answer)

/-- What the device answers during a call. -/
def Event.answer : Event → ℕ → Answer
  | .execute _ _ answer | .drain answer => answer

namespace Plant

/-- An adapter at its start. -/
def init : Plant := ⟨[], 0, []⟩

/-- The commands a call deals with, oldest first: those that wait, and its own. -/
def offered (s : Plant) : Event → List WriteCmd
  | .execute _ fields _ => s.retryQueue ++ [⟨s.issued, fields⟩]
  | .drain _ => s.retryQueue

/-- The commands a call writes, in order. -/
def attempts (s : Plant) : Event → List WriteCmd
  | .execute false _ _ => []
  | .execute true fields answer => s.offered (.execute true fields answer)
  | .drain answer => s.offered (.drain answer)

/-- The retry queue after a call. -/
def retried (s : Plant) : Event → List WriteCmd
  | .execute connected fields answer =>
    (executeWrite connected answer s.retryQueue ⟨s.issued, fields⟩).1
  | .drain answer => (drainRetryQueue answer s.retryQueue).1

/-- One call. -/
def next (s : Plant) (e : Event) : Option Plant :=
  some
    { retryQueue := s.retried e
      issued := match e with
        | .execute _ _ _ => s.issued + 1
        | .drain _ => s.issued
      applied := s.applied ++ (s.attempts e).filter fun c => outcome e.answer c = .success }

variable {s t : Plant} {e : Event} {events : List Event}

theorem enqueue_sublist (queue : List WriteCmd) (c : WriteCmd) :
    (enqueue queue c).Sublist (queue ++ [c]) := by
  unfold enqueue
  split_ifs
  · exact List.Sublist.refl _
  · exact List.sublist_append_left _ _

theorem executeWrite_connected (answer : ℕ → Answer) (queue : List WriteCmd) (c : WriteCmd) :
    (executeWrite true answer queue c).1 =
      if outcome answer c = .raised then
        enqueue (queue.filter fun c => outcome answer c = .raised) c
      else queue.filter fun c => outcome answer c = .raised := by
  rw [executeWrite, if_pos rfl, drainRetryQueue_eq]
  cases outcome answer c <;> simp

/-- A call keeps commands in their order. -/
theorem retried_sublist (s : Plant) (e : Event) : (s.retried e).Sublist (s.offered e) := by
  cases e with
  | drain answer =>
    rw [retried, drainRetryQueue_eq]
    exact List.filter_sublist
  | execute connected fields answer =>
    cases connected with
    | false => exact enqueue_sublist _ _
    | true =>
      have kept : (s.retryQueue.filter fun c => outcome answer c = .raised).Sublist
          s.retryQueue := List.filter_sublist
      rw [retried, executeWrite_connected, offered]
      split_ifs
      · exact (enqueue_sublist _ _).trans (kept.append (List.Sublist.refl _))
      · exact kept.trans (List.sublist_append_left _ _)

/-- A call writes nothing, or all that it deals with. -/
theorem attempts_eq (s : Plant) (e : Event) : s.attempts e = [] ∨ s.attempts e = s.offered e := by
  rcases e with ⟨_ | _, fields, answer⟩ | answer
  · exact .inl rfl
  · exact .inr rfl
  · exact .inr rfl

theorem mem_offered_of_mem_attempts {c : WriteCmd} (member : c ∈ s.attempts e) :
    c ∈ s.offered e := by
  rcases s.attempts_eq e with nothing | all
  · rw [nothing] at member
    cases member
  · rwa [all] at member

/-- A command that waits after a call has raised, or the call wrote nothing. -/
theorem raised_of_mem_retried {c : WriteCmd} (waits : c ∈ s.retried e) :
    s.attempts e = [] ∨ c ∈ s.attempts e ∧ outcome e.answer c = .raised := by
  have here := (s.retried_sublist e).subset waits
  rcases s.attempts_eq e with nothing | all
  · exact .inl nothing
  · refine .inr ⟨all ▸ here, ?_⟩
    cases e with
    | drain answer =>
      rw [retried, drainRetryQueue_eq] at waits
      exact of_decide_eq_true (List.mem_filter.mp waits).2
    | execute connected fields answer =>
      cases connected with
      | false =>
        exact absurd all.symm (List.append_ne_nil_of_right_ne_nil _ (List.cons_ne_nil _ _))
      | true =>
        rw [retried, executeWrite_connected] at waits
        split_ifs at waits with own
        · rcases List.mem_append.mp ((enqueue_sublist _ _).subset waits) with before | same
          · exact of_decide_eq_true (List.mem_filter.mp before).2
          · rw [List.mem_singleton.mp same]
            exact own
        · exact of_decide_eq_true (List.mem_filter.mp waits).2

/-! ### The order of writes -/

/-- No command for a target is applied after a later one. -/
def InOrder (applied : List WriteCmd) : Prop :=
  applied.Pairwise fun a b => a.target? = b.target? → a.issue < b.issue

/-- Once the write of a command has raised, no later command for its target is applied
in that call. -/
def Orderly (s : Plant) (e : Event) : Prop :=
  ∀ c ∈ s.attempts e, ∀ d ∈ s.attempts e, c.issue < d.issue → c.target? = d.target? →
    outcome e.answer c = .raised → outcome e.answer d ≠ .success

instance (s : Plant) (e : Event) : Decidable (s.Orderly e) := by unfold Orderly; infer_instance

/-- Commands wait in the order of their calls, and none waits behind one that has been
applied to its target. -/
structure Timely (s : Plant) : Prop where
  waiting : s.retryQueue.Pairwise fun c d => c.issue < d.issue
  waiting_lt : ∀ c ∈ s.retryQueue, c.issue < s.issued
  applied_lt : ∀ a ∈ s.applied, a.issue < s.issued
  fresh : ∀ a ∈ s.applied, ∀ c ∈ s.retryQueue, a.target? = c.target? → a.issue < c.issue
  inOrder : InOrder s.applied

theorem timely_init : Timely init := ⟨.nil, nofun, nofun, nofun, .nil⟩

/-- What a call deals with is in the order of the calls. -/
theorem Timely.offered (timely : s.Timely) (e : Event) :
    (s.offered e).Pairwise fun c d => c.issue < d.issue := by
  cases e with
  | drain answer => exact timely.waiting
  | execute connected fields answer =>
    refine List.pairwise_append.mpr ⟨timely.waiting, List.pairwise_singleton _ _, ?_⟩
    intro c member d own
    rw [List.mem_singleton.mp own]
    exact timely.waiting_lt c member

/-- Commands of one number are one command. -/
theorem Timely.eq_of_issue (timely : s.Timely) {c d : WriteCmd} (first : c ∈ s.offered e)
    (second : d ∈ s.offered e) (same : c.issue = d.issue) : c = d := by
  have distinct : ((s.offered e).map WriteCmd.issue).Nodup :=
    List.pairwise_map.mpr ((timely.offered e).imp fun {_ _} less => less.ne)
  exact List.inj_on_of_nodup_map distinct first second same

/-- A command that a call deals with is not older than one applied to its target. -/
theorem Timely.offered_fresh (timely : s.Timely) {a c : WriteCmd} (applied : a ∈ s.applied)
    (member : c ∈ s.offered e) (same : a.target? = c.target?) : a.issue < c.issue := by
  cases e with
  | drain answer => exact timely.fresh a applied c member same
  | execute connected fields answer =>
    rcases List.mem_append.mp member with waits | own
    · exact timely.fresh a applied c waits same
    · rw [List.mem_singleton.mp own]
      exact timely.applied_lt a applied

theorem Timely.offered_lt (timely : s.Timely) (step : s.next e = some t) {c : WriteCmd}
    (member : c ∈ s.offered e) : c.issue < t.issued := by
  cases step
  cases e with
  | drain answer => exact timely.waiting_lt c member
  | execute connected fields answer =>
    rcases List.mem_append.mp member with waits | own
    · exact (timely.waiting_lt c waits).trans (Nat.lt_succ_self _)
    · rw [List.mem_singleton.mp own]
      exact Nat.lt_succ_self _

/-- An orderly call keeps the order. -/
theorem Timely.next (timely : s.Timely) (orderly : s.Orderly e) (step : s.next e = some t) :
    t.Timely := by
  have bound {c : WriteCmd} (member : c ∈ s.offered e) : c.issue < t.issued :=
    timely.offered_lt step member
  have later : s.issued ≤ t.issued := by
    cases step
    cases e <;> simp
  cases step
  have attempted {c : WriteCmd} (member : c ∈ (s.attempts e).filter fun c =>
      outcome e.answer c = .success) : c ∈ s.attempts e ∧ outcome e.answer c = .success :=
    ⟨(List.mem_filter.mp member).1, of_decide_eq_true (List.mem_filter.mp member).2⟩
  refine ⟨(timely.offered e).sublist (s.retried_sublist e), ?_, ?_, ?_, ?_⟩
  · intro c waits
    exact bound ((s.retried_sublist e).subset waits)
  · intro a applied
    rcases List.mem_append.mp applied with before | now
    · exact (timely.applied_lt a before).trans_le later
    · exact bound (mem_offered_of_mem_attempts (attempted now).1)
  · intro a applied c waits same
    rcases List.mem_append.mp applied with before | now
    · exact timely.offered_fresh before ((s.retried_sublist e).subset waits) same
    · -- Both were tried in this call: one was applied, and the other one raised.
      obtain ⟨tried, success⟩ := attempted now
      rcases raised_of_mem_retried waits with nothing | ⟨tried', raised⟩
      · rw [nothing] at tried
        cases tried
      · by_contra notBefore
        rcases Nat.lt_or_eq_of_le (Nat.le_of_not_lt notBefore) with overtaken | equal
        · exact orderly c tried' a tried overtaken same.symm raised success
        · obtain rfl := timely.eq_of_issue (mem_offered_of_mem_attempts tried')
            (mem_offered_of_mem_attempts tried) equal
          rw [raised] at success
          cases success
  · refine List.pairwise_append.mpr ⟨timely.inOrder, ?_, ?_⟩
    · have attempts : (s.attempts e).Pairwise fun c d => c.issue < d.issue := by
        rcases s.attempts_eq e with nothing | all
        · rw [nothing]
          exact .nil
        · rw [all]
          exact timely.offered e
      refine (attempts.sublist List.filter_sublist).imp ?_
      intro a b before _
      exact before
    · intro a before b now same
      exact timely.offered_fresh before (mem_offered_of_mem_attempts (attempted now).1) same

/-- In every run of orderly calls, no command is applied after a later one for its
target. -/
theorem inOrder_of_orderly (run : Run (Guarded (OfPartial next) Orderly) init events s) :
    InOrder s.applied := by
  have timely : s.Timely :=
    run.invariant (fun _ _ _ before step => before.next step.2 step.1) timely_init
  exact timely.inOrder

/-- A register write of a value to an address. -/
def registerWrite (address value : ℤ) : Json :=
  .obj [("address", .int address), ("value", .int value)]

/-- A command is queued while the connection is down, its first retry raises, and
every other write succeeds. -/
def flaky (later : ℤ) : List Event :=
  [.execute false (registerWrite 1 10) fun _ => .raised,
    .execute true (registerWrite later 20) fun n => if n = 0 then .raised else .success,
    .execute true (registerWrite 3 30) fun _ => .success]

theorem inOrder_of_orderly_flaky :
    ∃ s, Run (Guarded (OfPartial next) Orderly) init (flaky 2) s ∧
      s.applied.map WriteCmd.issue = [1, 0, 2] ∧ InOrder s.applied := by
  have follows : (runPartial (checked next Orderly) init (flaky 2)).any
      (fun s => s.applied.map WriteCmd.issue = [1, 0, 2]) = true := by decide +kernel
  obtain ⟨s, run, applied⟩ := exists_guarded_of_any follows
  exact ⟨s, run, of_decide_eq_true applied, inOrder_of_orderly run⟩

/-- The first command is applied after the second one, which is for its register. -/
theorem overtaken_flaky : ¬ ∀ events s, Run (OfPartial next) init events s → InOrder s.applied := by
  intro inOrder
  have follows : (runPartial next init (flaky 1)).any
      (fun s => ¬ s.applied.Pairwise fun a b => a.target? = b.target? → a.issue < b.issue) =
        true := by decide +kernel
  obtain ⟨s, run, stale⟩ := exists_run_of_any follows
  exact of_decide_eq_true stale (inOrder _ s run)

/-- A command that raised before another one of its call was applied still waits. -/
theorem waits_of_raised {c d : WriteCmd} (timely : s.Timely) (step : s.next e = some t)
    (tried : c ∈ s.attempts e) (tried' : d ∈ s.attempts e) (older : c.issue < d.issue)
    (raised : outcome e.answer c = .raised) : c ∈ t.retryQueue := by
  cases step
  cases e with
  | drain answer =>
    rw [retried, drainRetryQueue_eq]
    exact List.mem_filter.mpr ⟨tried, decide_eq_true raised⟩
  | execute connected fields answer =>
    cases connected with
    | false => cases tried
    | true =>
      have waiting : c ∈ s.retryQueue := by
        refine (List.mem_append.mp tried).resolve_right fun own => ?_
        -- Nothing is younger than the command of the call itself.
        rw [List.mem_singleton.mp own] at older
        rcases List.mem_append.mp tried' with before | same
        · exact absurd (timely.waiting_lt d before) (Nat.lt_asymm older)
        · rw [List.mem_singleton.mp same] at older
          exact Nat.lt_irrefl _ older
      have kept : c ∈ s.retryQueue.filter fun c => outcome answer c = .raised :=
        List.mem_filter.mpr ⟨waiting, decide_eq_true raised⟩
      rw [retried, executeWrite_connected]
      unfold enqueue
      split_ifs
      · exact List.mem_append_left _ kept
      · exact kept
      · exact kept

/-- After a call that is not orderly, one call suffices to apply a command after a later
one for its target. -/
theorem exists_overtaking (timely : s.Timely) (step : s.next e = some t)
    (disorderly : ¬ s.Orderly e) : ∃ e' u, t.next e' = some u ∧ ¬ InOrder u.applied := by
  simp only [Orderly, not_forall, not_not] at disorderly
  obtain ⟨c, tried, d, tried', older, same, raised, success⟩ := disorderly
  have waits := waits_of_raised timely step tried tried' older raised
  have applied : d ∈ t.applied := by
    cases step
    exact List.mem_append_right _ (List.mem_filter.mpr ⟨tried', decide_eq_true success⟩)
  refine ⟨.drain fun _ => .success, _, rfl, fun inOrder => ?_⟩
  have asked : (doWrite c.fields).isSome := by
    have target : c.target?.isSome := by
      rw [same]
      by_contra malformed
      rw [WriteCmd.target?, Option.isSome_map] at malformed
      rw [outcome, if_neg malformed] at success
      cases success
    rwa [WriteCmd.target?, Option.isSome_map] at target
  have now : c ∈ t.retryQueue.filter fun c => outcome (fun _ => .success) c = .success :=
    List.mem_filter.mpr ⟨waits, by simp [outcome, asked]⟩
  have overtaken := (List.pairwise_append.mp inOrder).2.2 d applied c now same.symm
  exact Nat.lt_asymm older overtaken

/-! ### What is reported -/

/-- A drain removes only commands that the device has applied, and counts only these. -/
def DrainHonest (answer : ℕ → Answer) (queue : List WriteCmd) : Prop :=
  (∀ c ∈ queue, c ∉ (drainRetryQueue answer queue).1 → outcome answer c = .success) ∧
    (drainRetryQueue answer queue).2 ≤ queue.countP fun c => outcome answer c = .success

/-- A call reports success only for a write that the device has applied. -/
def Honest (s : Plant) : Event → Prop
  | .execute connected fields answer =>
    ((executeWrite connected answer s.retryQueue ⟨s.issued, fields⟩).2 = true →
      outcome answer ⟨s.issued, fields⟩ = .success) ∧
    (connected = true → DrainHonest answer s.retryQueue)
  | .drain answer => DrainHonest answer s.retryQueue

/-- No write of a call is answered with an error response. -/
def NoErrors (s : Plant) (e : Event) : Prop := ∀ c ∈ s.attempts e, outcome e.answer c ≠ .error

instance (s : Plant) (e : Event) : Decidable (s.NoErrors e) := by unfold NoErrors; infer_instance

theorem drainHonest_iff (answer : ℕ → Answer) (queue : List WriteCmd) :
    DrainHonest answer queue ↔ ∀ c ∈ queue, outcome answer c ≠ .error := by
  rw [DrainHonest, drainRetryQueue_eq]
  constructor
  · rintro ⟨removed, -⟩ c member error
    have success := removed c member (by simp [error])
    rw [error] at success
    cases success
  · intro noErrors
    have success : ∀ c ∈ queue, outcome answer c ≠ .raised ↔ outcome answer c = .success := by
      intro c member
      have notError := noErrors c member
      cases ends : outcome answer c <;> simp_all
    refine ⟨?_, (List.countP_congr fun c member => ?_).le⟩
    · intro c member gone
      refine (success c member).mp fun raised => gone ?_
      exact List.mem_filter.mpr ⟨member, decide_eq_true raised⟩
    · simpa using success c member

/-- A call is honest exactly when none of its writes is answered with an error. -/
theorem honest_iff (s : Plant) (e : Event) : s.Honest e ↔ s.NoErrors e := by
  cases e with
  | drain answer => exact drainHonest_iff answer s.retryQueue
  | execute connected fields answer =>
    cases connected with
    | false => exact iff_of_true ⟨by simp [executeWrite], nofun⟩ nofun
    | true =>
      have own : ((executeWrite true answer s.retryQueue ⟨s.issued, fields⟩).2 = true →
          outcome answer ⟨s.issued, fields⟩ = .success) ↔
          outcome answer ⟨s.issued, fields⟩ ≠ .error := by
        cases ends : outcome answer ⟨s.issued, fields⟩ <;> simp [executeWrite, ends]
      rw [Honest, own, NoErrors, attempts, offered, List.forall_mem_append]
      simp [drainHonest_iff, Event.answer, and_comm]

/-- In every run, all calls report success only for applied writes exactly when no write
of the run is answered with an error response. -/
theorem honest_run_iff (events : List Event) (s : Plant) :
    Run (Guarded (OfPartial next) Honest) init events s ↔
      Run (Guarded (OfPartial next) NoErrors) init events s :=
  ⟨Run.mono fun _ _ _ step => ⟨step.1, (honest_iff _ _).mp step.2⟩,
    Run.mono fun _ _ _ step => ⟨step.1, (honest_iff _ _).mpr step.2⟩⟩

/-- A device that answers a write with an error response. -/
theorem not_honest_error :
    ¬ ∀ events s, Run (OfPartial next) init events s →
      Run (Guarded (OfPartial next) Honest) init events s := by
  intro honest
  have run : Run (OfPartial next) init ([] ++ [.execute true (registerWrite 1 10) fun _ => .error])
      _ := Run.single rfl
  obtain ⟨t, -, -, called⟩ := (honest _ _ run).last
  have noErrors := (honest_iff _ _).mp called
  have tried : ⟨t.issued, registerWrite 1 10⟩ ∈
      t.attempts (.execute true (registerWrite 1 10) fun _ => .error) :=
    List.mem_append_right _ (List.mem_singleton.mpr rfl)
  have asked : (doWrite (registerWrite 1 10)).isSome = true := by decide +kernel
  refine noErrors _ tried ?_
  rw [outcome, if_pos asked]
  rfl

end Plant

end Modbus

end AgentTelepathy
