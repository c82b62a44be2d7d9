import AgentTelepathy.Adapters.Modbus
import AgentTelepathy.Foundation.Pool

/-!
# Concurrent Modbus writes

Calls of `execute_write` and `drain_retry_queue` interleave where they await a device
write. A drain goes through the queue as it was when the drain began, and at its end it
replaces the queue by the commands that it could not write. What others appended in
between is lost then, and what others have written in between is written again.

As long as nothing is appended and no drain begins while another one is in progress,
every command that was put on the queue waits, is being retried or has been written,
and none has been written twice.
-/

namespace AgentTelepathy

open Foundation Foundation.Transition

namespace Modbus

/-- The client: there is none, or it is disconnected, or connected. -/
inductive Link
  | closed
  | down
  | up
deriving DecidableEq

/-- A call at the await of a device write: of a queued command, with those that come
later, `remaining`, `retried` and the command of the call itself; or of that command. -/
inductive Task
  | draining (current : WriteCmd) (later remaining : List WriteCmd) (retried : ℕ)
      (own : Option WriteCmd)
  | writing (own : WriteCmd)
  | returned (result : Bool ⊕ ℕ)
deriving DecidableEq

/-- An adapter and its calls, the number of `execute_write` calls so far, and the numbers
of the commands that were put on the queue and of those that were written. -/
structure Station where
  link : Link
  retryQueue : List WriteCmd
  tasks : List Task
  issued : ℕ
  queued : List ℕ
  written : List ℕ
deriving DecidableEq

/-- What can happen between two awaits. -/
inductive Turn
  | link (link : Link)
  | execute (fields : Json)
  | drain
  | answer (i : ℕ) (success : Bool)
deriving DecidableEq

namespace Station

/-- An adapter at its start. -/
def init : Station := ⟨.closed, [], [], 0, [], []⟩

/-- Whether `_do_write` gets to await the device. -/
def reaches (link : Link) (c : WriteCmd) : Bool := link ≠ .closed && (doWrite c.fields).isSome

/-- Put a command on the retry queue, or drop it. -/
def putBack (s : Station) (c : WriteCmd) : Station :=
  if s.retryQueue.length < maxRetryQueue then
    { s with retryQueue := s.retryQueue ++ [c], queued := s.queued ++ [c.issue] }
  else s

/-- The loop of a drain up to the next await, or to its end. -/
def drainFrom (link : Link) : List WriteCmd → List WriteCmd →
    List WriteCmd × Option (WriteCmd × List WriteCmd)
  | [], remaining => (remaining, none)
  | c :: rest, remaining =>
    if reaches link c then (remaining, some (c, rest)) else drainFrom link rest (remaining ++ [c])

/-- The end of `execute_write` after its drain, up to the next await. -/
def startWrite (s : Station) (own : WriteCmd) : Station × Task :=
  if reaches s.link own then (s, .writing own) else (s.putBack own, .returned (.inl false))

/-- A drain from some command on, up to the next await. -/
def continueDrain (s : Station) (pending remaining : List WriteCmd) (retried : ℕ)
    (own : Option WriteCmd) : Station × Task :=
  match drainFrom s.link pending remaining, own with
  | (remaining, some (c, later)), own => (s, .draining c later remaining retried own)
  -- The queue is replaced by what this drain could not write.
  | (remaining, none), none => ({ s with retryQueue := remaining }, .returned (.inr retried))
  | (remaining, none), some own => { s with retryQueue := remaining }.startWrite own

/-- A drain from its start, up to the next await. -/
def startDrain (s : Station) (own : Option WriteCmd) : Station × Task :=
  match s.retryQueue, own with
  | [], none => (s, .returned (.inr 0))
  | [], some own => s.startWrite own
  | queue, own => s.continueDrain queue [] 0 own

/-- A call goes on after the device has answered, or its write has raised. -/
def resume (s : Station) (success : Bool) : Task → Option (Station × Task)
  | .draining current later remaining retried own =>
    if success then
      some ({ s with written := s.written ++ [current.issue] }.continueDrain later remaining
        (retried + 1) own)
    else some (s.continueDrain later (remaining ++ [current]) retried own)
  | .writing own =>
    if success then
      some ({ s with written := s.written ++ [own.issue] }, .returned (.inl true))
    else some (s.putBack own, .returned (.inl false))
  | .returned _ => none

/-- Add a call. -/
def spawn (result : Station × Task) : Station :=
  { result.1 with tasks := result.1.tasks ++ [result.2] }

/-- One turn, if it is possible. -/
def next (s : Station) : Turn → Option Station
  | .link link => some { s with link }
  | .execute fields =>
    let own : WriteCmd := ⟨s.issued, fields⟩
    let s := { s with issued := s.issued + 1 }
    if s.link = .up then some (spawn (s.startDrain (some own)))
    else some (spawn (s.putBack own, .returned (.inl false)))
  | .drain => some (spawn (s.startDrain none))
  | .answer i success => do
    let (s, task) ← s.resume success (← s.tasks[i]?)
    return { s with tasks := s.tasks.set i task }

end Station

/-- The queued commands that a call is still to deal with, or could not write. -/
def Task.held : Task → List WriteCmd
  | .draining current later remaining _ _ => remaining ++ current :: later
  | _ => []

/-- The command of the call itself. -/
def Task.own : Task → List WriteCmd
  | .draining _ _ _ _ (some own) | .writing own => [own]
  | _ => []

/-- Whether a call is in its drain. -/
def Task.drains : Task → Bool
  | .draining _ _ _ _ _ => true
  | _ => false

namespace Station

/-- Whether a drain is in progress. -/
def busy (s : Station) : Bool := s.tasks.any Task.drains

/-- Nothing is appended to the queue, and no drain begins, during a drain. -/
def Exclusive (s : Station) : Turn → Prop
  | .link _ => True
  | .execute _ | .drain => s.busy = false
  | .answer i success => s.busy = true → success = false →
      ∀ task, s.tasks[i]? = some task → task.drains = true

instance (s : Station) (turn : Turn) : Decidable (s.Exclusive turn) := by
  cases turn <;> unfold Exclusive <;> infer_instance

/-- A command is on the queue, or is being retried. -/
def Waits (s : Station) (n : ℕ) : Prop :=
  n ∈ s.retryQueue.map WriteCmd.issue ∨
    ∃ task ∈ s.tasks, n ∈ task.held.map WriteCmd.issue

/-- A command that was put on the queue waits, or was written; and none was written
twice. -/
def Keeps (s : Station) : Prop :=
  (∀ n ∈ s.queued, n ∈ s.written ∨ s.Waits n) ∧ ∀ n, s.written.count n ≤ 1

/-! ### Counting commands -/

/-- How often a command is among some. -/
def tally (cs : List WriteCmd) (n : ℕ) : ℕ := (cs.map WriteCmd.issue).count n

@[simp] theorem tally_nil (n : ℕ) : tally [] n = 0 := rfl

@[simp] theorem tally_append (cs ds : List WriteCmd) (n : ℕ) :
    tally (cs ++ ds) n = tally cs n + tally ds n := by
  simp [tally]

@[simp] theorem tally_cons (c : WriteCmd) (cs : List WriteCmd) (n : ℕ) :
    tally (c :: cs) n = tally cs n + if c.issue = n then 1 else 0 := by
  simp [tally, List.count_cons]

theorem tally_pos {cs : List WriteCmd} {n : ℕ} :
    0 < tally cs n ↔ n ∈ cs.map WriteCmd.issue := List.count_pos_iff

/-- How many drains are in progress. -/
def drains (s : Station) : ℕ := Pool.total (fun task => task.drains.toNat) s.tasks

/-- How often a queued command is still to be dealt with. During a drain it is the drain
that holds the queued commands. -/
def waiting (s : Station) (n : ℕ) : ℕ :=
  (if s.drains = 0 then tally s.retryQueue n else 0) +
    Pool.total (fun task => tally task.held n) s.tasks

/-- How often a command is the one of a call in progress. -/
def owned (s : Station) (n : ℕ) : ℕ := Pool.total (fun task => tally task.own n) s.tasks

theorem held_of_not_drains {task : Task} (idle : task.drains = false) : task.held = [] := by
  cases task with
  | draining => cases idle
  | _ => rfl

/-- What only drains hold is nothing when there is none. -/
theorem total_held_of_idle {tasks : List Task}
    (idle : Pool.total (fun task => task.drains.toNat) tasks = 0) (n : ℕ) :
    Pool.total (fun task => tally task.held n) tasks = 0 := by
  refine Pool.total_eq_zero_iff.mpr fun task member => ?_
  have none := Pool.total_eq_zero_iff.mp idle task member
  rw [held_of_not_drains (by simpa using none), tally_nil]

theorem drains_eq_zero_iff (s : Station) : s.drains = 0 ↔ s.busy = false := by
  simp [drains, Pool.total_eq_zero_iff, busy]

/-! ### One call from await to await -/

/-- The queued commands as a call leaves them: it holds them if it is in its drain. -/
def left (result : Station × Task) : List WriteCmd :=
  if result.2.drains then result.2.held else result.1.retryQueue

/-- A call that deals with the commands `A`, and has a command of its own or none, keeps
`A`; its own command is still its own, or has been put back, or was dropped. -/
structure Settles (A own : List WriteCmd) (s : Station) (result : Station × Task) : Prop where
  tasks_eq : result.1.tasks = s.tasks
  issued_eq : result.1.issued = s.issued
  written_eq : result.1.written = s.written
  lower : ∀ n, tally A n ≤ tally (left result) n
  upper : ∀ n, tally (left result) n + tally result.2.own n ≤ tally A n + tally own n
  queued : ∀ n ∈ result.1.queued, n ∈ s.queued ∨ 0 < tally (left result) n

theorem settles_putBack (s : Station) (own : WriteCmd) (result : Bool ⊕ ℕ) :
    Settles s.retryQueue [own] s (s.putBack own, .returned result) := by
  unfold putBack
  split_ifs with room
  · refine ⟨rfl, rfl, rfl, ?_, ?_, ?_⟩
    · intro n
      simp [left, Task.drains]
    · intro n
      simp [left, Task.drains, Task.own]
    · intro n member
      rcases List.mem_append.mp member with before | same
      · exact .inl before
      · obtain rfl := List.mem_singleton.mp same
        refine .inr ?_
        simp [left, Task.drains]
  · refine ⟨rfl, rfl, rfl, ?_, ?_, fun n => .inl⟩
    · intro n
      simp [left, Task.drains]
    · intro n
      simp [left, Task.drains, Task.own]

theorem settles_startWrite (s : Station) (own : WriteCmd) :
    Settles s.retryQueue [own] s (s.startWrite own) := by
  unfold startWrite
  split_ifs
  · exact ⟨rfl, rfl, rfl, fun n => le_rfl, fun n => le_rfl, fun n => .inl⟩
  · exact settles_putBack s own _

/-- The loop leaves all commands where they are: before the one it awaits, or after it. -/
theorem drainFrom_eq (link : Link) (pending remaining : List WriteCmd) :
    (∃ before c later, drainFrom link pending remaining = (before, some (c, later)) ∧
      before ++ c :: later = remaining ++ pending) ∨
      drainFrom link pending remaining = (remaining ++ pending, none) := by
  induction pending generalizing remaining with
  | nil => exact .inr (by simp [drainFrom])
  | cons c rest ih =>
    rw [drainFrom]
    split_ifs
    · exact .inl ⟨remaining, c, rest, rfl, rfl⟩
    · simpa using ih (remaining ++ [c])

theorem settles_continueDrain (s : Station) (pending remaining : List WriteCmd) (retried : ℕ)
    (own : Option WriteCmd) :
    Settles (remaining ++ pending) own.toList s
      (s.continueDrain pending remaining retried own) := by
  rcases drainFrom_eq s.link pending remaining with ⟨before, c, later, loop, all⟩ | loop
  · have result : s.continueDrain pending remaining retried own =
        (s, .draining c later before retried own) := by
      simp only [continueDrain, loop]
    rw [result, ← all]
    refine ⟨rfl, rfl, rfl, fun n => le_rfl, fun n => ?_, fun n => .inl⟩
    cases own <;> exact le_rfl
  · cases own with
    | none =>
      have result : s.continueDrain pending remaining retried none =
          ({ s with retryQueue := remaining ++ pending }, .returned (.inr retried)) := by
        simp only [continueDrain, loop]
      rw [result]
      exact ⟨rfl, rfl, rfl, fun n => le_rfl, fun n => le_rfl, fun n => .inl⟩
    | some own =>
      have result : s.continueDrain pending remaining retried (some own) =
          { s with retryQueue := remaining ++ pending }.startWrite own := by
        simp only [continueDrain, loop]
      rw [result]
      have settles := settles_startWrite { s with retryQueue := remaining ++ pending } own
      exact ⟨settles.tasks_eq, settles.issued_eq, settles.written_eq, settles.lower, settles.upper,
        settles.queued⟩

theorem settles_startDrain (s : Station) (own : Option WriteCmd) :
    Settles s.retryQueue own.toList s (s.startDrain own) := by
  unfold startDrain
  split
  · next none => exact ⟨rfl, rfl, rfl, fun n => le_rfl, fun n => le_rfl, fun n => .inl⟩
  · next own none => exact settles_startWrite s own
  · exact settles_continueDrain s s.retryQueue [] 0 _

/-! ### What every run keeps -/

/-- One drain at most is in progress. Every command is in one place: waiting, a call's
own, or written; those to come are nowhere. What was put on the queue waits or was
written. -/
structure Sound (s : Station) : Prop where
  single : s.drains ≤ 1
  once : ∀ n, s.waiting n + s.owned n + s.written.count n ≤ 1
  new : ∀ n, s.issued ≤ n → s.waiting n + s.owned n + s.written.count n = 0
  kept : ∀ n ∈ s.queued, 0 < s.waiting n + s.written.count n

theorem waiting_of_idle {s : Station} (idle : s.drains = 0) (n : ℕ) :
    s.waiting n = tally s.retryQueue n := by
  rw [waiting, if_pos idle, total_held_of_idle idle, Nat.add_zero]

theorem waiting_init (n : ℕ) : init.waiting n = 0 := rfl

theorem sound_init : Sound init :=
  ⟨by decide, fun n => Nat.zero_le 1, fun n _ => waiting_init n, nofun⟩

variable {s t : Station} {turn : Turn} {turns : List Turn}

/-- After a call has moved, with no other drain in progress, it is sound that every
command it deals with, its own, and those of other calls are in one place each. -/
theorem Settles.sound {A own : List WriteCmd} {result : Station × Task} {tasks : List Task}
    (settles : Settles A own s result) (rest : ℕ → ℕ)
    (drains : Pool.total (fun task => task.drains.toNat) tasks = result.2.drains.toNat)
    (held : ∀ n, Pool.total (fun task => tally task.held n) tasks = tally result.2.held n)
    (owned : ∀ n, Pool.total (fun task => tally task.own n) tasks = rest n + tally result.2.own n)
    (once : ∀ n, tally A n + tally own n + rest n + s.written.count n ≤ 1)
    (new : ∀ n, s.issued ≤ n → tally A n + tally own n + rest n + s.written.count n = 0)
    (kept : ∀ n ∈ s.queued, 0 < tally A n + s.written.count n) :
    Sound { result.1 with tasks } := by
  have waits (n : ℕ) : waiting { result.1 with tasks } n = tally (left result) n := by
    rw [waiting, Station.drains, drains, held, left]
    cases moved : result.2.drains with
    | true => simp
    | false => simp [held_of_not_drains moved]
  have own_eq (n : ℕ) : Station.owned { result.1 with tasks } n = rest n + tally result.2.own n :=
    owned n
  refine ⟨?_, ?_, ?_, ?_⟩
  · rw [Station.drains, drains]
    exact Bool.toNat_le _
  · intro n
    have upper := settles.upper n
    have all := once n
    rw [waits, own_eq, settles.written_eq]
    omega
  · intro n above
    have upper := settles.upper n
    have none := new n (settles.issued_eq ▸ above)
    rw [waits, own_eq, settles.written_eq]
    omega
  · intro n member
    rw [waits, settles.written_eq]
    rcases settles.queued n member with before | put
    · have lower := settles.lower n
      have there := kept n before
      omega
    · omega

/-- A call that begins while no drain is in progress. -/
theorem Sound.spawn {own : List WriteCmd} {result : Station × Task} (sound : s.Sound)
    {issued : ℕ} (later : s.issued ≤ issued) (quiet : s.busy = false)
    (fresh : ∀ n, tally own n ≤ if s.issued ≤ n ∧ n < issued then 1 else 0)
    (settles : Settles s.retryQueue own { s with issued } result) : (spawn result).Sound := by
  have idle := (drains_eq_zero_iff s).mpr quiet
  have waits := waiting_of_idle idle
  have none : Pool.total (fun task => task.drains.toNat) s.tasks = 0 := idle
  refine settles.sound s.owned ?_ ?_ ?_ ?_ ?_ ?_
  · rw [settles.tasks_eq, Pool.total_append, none]
    simp
  · intro n
    rw [settles.tasks_eq, Pool.total_append, total_held_of_idle idle]
    simp
  · intro n
    rw [settles.tasks_eq, Pool.total_append]
    simp [owned]
  · intro n
    have all := sound.once n
    have none := sound.new n
    have own := fresh n
    rw [waits] at all none
    show tally s.retryQueue n + tally _ n + s.owned n + s.written.count n ≤ 1
    split_ifs at own with here
    · have before := none here.1
      omega
    · omega
  · intro n above
    have none := sound.new n (later.trans above)
    have own := fresh n
    rw [waits] at none
    show tally s.retryQueue n + tally _ n + s.owned n + s.written.count n = 0
    split_ifs at own with here
    · exact absurd here.2 (Nat.not_lt.mpr above)
    · omega
  · intro n member
    have there := sound.kept n member
    rwa [waits] at there

section Moving

variable {i : ℕ} {old : Task}

/-- The calls other than one. -/
def others (s : Station) (i : ℕ) : List Task := s.tasks.set i (.returned (.inr 0))

/-- A count over all calls is that of one and that of the others. -/
theorem total_others (here : s.tasks[i]? = some old) {f : Task → ℕ}
    (nothing : f (.returned (.inr 0)) = 0) :
    Pool.total f s.tasks = Pool.total f (s.others i) + f old := by
  have replaced := Pool.total_set (f := f) here (.returned (.inr 0))
  rw [others]
  omega

theorem total_moved (here : s.tasks[i]? = some old) {f : Task → ℕ}
    (nothing : f (.returned (.inr 0)) = 0) (new : Task) :
    Pool.total f (s.tasks.set i new) = Pool.total f (s.others i) + f new := by
  have replaced := Pool.total_set (f := f) here new
  have split := total_others here nothing
  omega

/-- A call has moved, and no other call is in its drain. -/
theorem Settles.moved {A own : List WriteCmd} {result : Station × Task}
    (settles : Settles A own s result) (here : s.tasks[i]? = some old)
    (idle : Pool.total (fun task => task.drains.toNat) (s.others i) = 0)
    (once : ∀ n, tally A n + tally own n +
      Pool.total (fun task => tally task.own n) (s.others i) + s.written.count n ≤ 1)
    (new : ∀ n, s.issued ≤ n → tally A n + tally own n +
      Pool.total (fun task => tally task.own n) (s.others i) + s.written.count n = 0)
    (kept : ∀ n ∈ s.queued, 0 < tally A n + s.written.count n) :
    Sound { result.1 with tasks := result.1.tasks.set i result.2 } := by
  refine settles.sound (fun n => Pool.total (fun task => tally task.own n) (s.others i))
    ?_ ?_ ?_ once new kept
  · rw [settles.tasks_eq, total_moved here rfl, idle, Nat.zero_add]
  · intro n
    rw [settles.tasks_eq, total_moved here rfl, total_held_of_idle idle, Nat.zero_add]
  · intro n
    rw [settles.tasks_eq, total_moved here rfl]

/-- The only drain in progress, after the device has answered it. -/
theorem Sound.drained {current : WriteCmd} {later remaining pending : List WriteCmd}
    {retried : ℕ} {own : Option WriteCmd} {written : List ℕ} {result : Station × Task}
    (sound : s.Sound) (here : s.tasks[i]? = some (.draining current later remaining retried own))
    (settles : Settles pending own.toList { s with written } result)
    (moved : ∀ n, tally pending n + written.count n =
      tally (remaining ++ current :: later) n + s.written.count n) :
    Sound { result.1 with tasks := result.1.tasks.set i result.2 } := by
  have idle : Pool.total (fun task => task.drains.toNat) (s.others i) = 0 := by
    have all := total_others here (f := fun task => task.drains.toNat) rfl
    have single := sound.single
    rw [Station.drains, all] at single
    exact Nat.le_zero.mp (Nat.le_of_add_le_add_right single)
  have held (n : ℕ) : s.waiting n = tally (remaining ++ current :: later) n := by
    have all := total_others here (f := fun task => task.drains.toNat) rfl
    have others := total_others here (f := fun task => tally task.held n) rfl
    have busy : s.drains ≠ 0 := by
      rw [Station.drains, all]
      exact Nat.succ_ne_zero _
    rw [waiting, if_neg busy, others, total_held_of_idle idle]
    simp [Task.held]
  have owned (n : ℕ) : s.owned n =
      Pool.total (fun task => tally task.own n) (s.others i) + tally own.toList n := by
    rw [Station.owned, total_others here (f := fun task => tally task.own n) rfl]
    cases own <;> rfl
  refine settles.moved here idle ?_ ?_ ?_
  · intro n
    have all := sound.once n
    have same := moved n
    rw [held, owned] at all
    show tally pending n + _ + Pool.total _ (s.others i) + written.count n ≤ 1
    omega
  · intro n above
    have none := sound.new n above
    have same := moved n
    rw [held, owned] at none
    show tally pending n + _ + Pool.total _ (s.others i) + written.count n = 0
    omega
  · intro n member
    have there := sound.kept n member
    have same := moved n
    rw [held] at there
    show 0 < tally pending n + written.count n
    omega

/-- A call whose own write has succeeded. -/
theorem Sound.wrote {own : WriteCmd} (sound : s.Sound) (here : s.tasks[i]? = some (.writing own)) :
    Sound { s with
      written := s.written ++ [own.issue]
      tasks := s.tasks.set i (.returned (.inl true)) } := by
  have drains : Station.drains { s with
      written := s.written ++ [own.issue]
      tasks := s.tasks.set i (.returned (.inl true)) } = s.drains := by
    rw [Station.drains, Station.drains, total_moved here rfl, total_others here rfl]
    rfl
  have waits (n : ℕ) : waiting { s with
      written := s.written ++ [own.issue]
      tasks := s.tasks.set i (.returned (.inl true)) } n = s.waiting n := by
    rw [waiting, waiting, drains, total_moved here rfl, total_others here rfl]
    rfl
  -- The command moves from the call to those written.
  have owned (n : ℕ) : s.owned n = Station.owned { s with
      written := s.written ++ [own.issue]
      tasks := s.tasks.set i (.returned (.inl true)) } n + if own.issue = n then 1 else 0 := by
    rw [Station.owned, Station.owned, total_moved here rfl, total_others here rfl]
    simp [Task.own]
  have written (n : ℕ) : (s.written ++ [own.issue]).count n =
      s.written.count n + if own.issue = n then 1 else 0 := by
    rw [List.count_append, List.count_singleton]
    simp
  refine ⟨drains ▸ sound.single, ?_, ?_, ?_⟩
  · intro n
    have all := sound.once n
    rw [owned] at all
    rw [waits, written]
    omega
  · intro n above
    have none := sound.new n above
    rw [owned] at none
    rw [waits, written]
    omega
  · intro n member
    have there := sound.kept n member
    rw [waits, written]
    omega

/-- A call whose own write has raised while no drain is in progress. -/
theorem Sound.failed {own : WriteCmd} (sound : s.Sound) (here : s.tasks[i]? = some (.writing own))
    (quiet : s.busy = false) :
    Sound { s.putBack own with tasks := (s.putBack own).tasks.set i (.returned (.inl false)) } := by
  have idle := (drains_eq_zero_iff s).mpr quiet
  have waits := waiting_of_idle idle
  have others : Pool.total (fun task => task.drains.toNat) (s.others i) = 0 := by
    rw [Station.drains, total_others here rfl] at idle
    exact Nat.eq_zero_of_add_eq_zero_right idle
  have owned (n : ℕ) : s.owned n =
      Pool.total (fun task => tally task.own n) (s.others i) + tally [own] n := by
    rw [Station.owned, total_others here rfl]
    rfl
  refine (settles_putBack s own (.inl false)).moved here others ?_ ?_ ?_
  · intro n
    have all := sound.once n
    rw [waits, owned] at all
    omega
  · intro n above
    have none := sound.new n above
    rw [waits, owned] at none
    omega
  · intro n member
    have there := sound.kept n member
    rwa [waits] at there

end Moving

/-- A number that a call takes is new. -/
theorem tally_issued (issued : ℕ) (fields : Json) (n : ℕ) :
    tally [⟨issued, fields⟩] n ≤ if issued ≤ n ∧ n < issued + 1 then 1 else 0 := by
  simp only [tally_cons, tally_nil, Nat.zero_add]
  split_ifs <;> omega

/-- One turn. -/
theorem Sound.next (sound : s.Sound) (exclusive : s.Exclusive turn) (step : s.next turn = some t) :
    t.Sound := by
  cases turn with
  | link link =>
    cases step
    exact ⟨sound.single, sound.once, sound.new, sound.kept⟩
  | execute fields =>
    simp only [Station.next] at step
    split_ifs at step
    · obtain rfl := Option.some.inj step
      exact sound.spawn (Nat.le_succ _) exclusive (tally_issued s.issued fields)
        (settles_startDrain { s with issued := s.issued + 1 } (some ⟨s.issued, fields⟩))
    · obtain rfl := Option.some.inj step
      exact sound.spawn (Nat.le_succ _) exclusive (tally_issued s.issued fields)
        (settles_putBack { s with issued := s.issued + 1 } ⟨s.issued, fields⟩ _)
  | drain =>
    obtain rfl := Option.some.inj step
    exact sound.spawn le_rfl exclusive (fun n => Nat.zero_le _) (settles_startDrain s none)
  | answer i success =>
    obtain ⟨task, here, moved⟩ := Option.bind_eq_some_iff.mp step
    obtain ⟨result, resumed, done⟩ := Option.bind_eq_some_iff.mp moved
    obtain rfl := Option.some.inj done
    cases task with
    | draining current later remaining retried own =>
      cases success with
      | true =>
        obtain rfl := Option.some.inj resumed
        refine sound.drained here (settles_continueDrain
          { s with written := s.written ++ [current.issue] } later remaining (retried + 1) own)
          fun n => ?_
        rw [List.count_append, List.count_singleton]
        simp only [tally_append, tally_cons, beq_iff_eq]
        omega
      | false =>
        obtain rfl := Option.some.inj resumed
        refine sound.drained here (settles_continueDrain s later (remaining ++ [current]) retried
          own) fun n => ?_
        simp only [tally_append, tally_cons, tally_nil]
        omega
    | writing own =>
      cases success with
      | true =>
        obtain rfl := Option.some.inj resumed
        exact sound.wrote here
      | false =>
        obtain rfl := Option.some.inj resumed
        refine sound.failed here (Bool.eq_false_of_not_eq_true fun busy => ?_)
        cases exclusive busy rfl _ here
    | returned => cases resumed

/-- In every run in which nothing is appended and no drain begins during a drain, every
command that was put on the queue waits or was written, and none was written twice. -/
theorem keeps_of_exclusive (run : Run (Guarded (OfPartial next) Exclusive) init turns s) :
    s.Keeps := by
  have sound : s.Sound :=
    run.invariant (fun _ _ _ before step => before.next step.2 step.1) sound_init
  refine ⟨fun n member => ?_, fun n => ?_⟩
  · have there := sound.kept n member
    by_cases written : 0 < s.written.count n
    · exact .inl (List.count_pos_iff.mp written)
    · refine .inr ?_
      have waits : 0 < s.waiting n := by omega
      rw [waiting] at waits
      rcases Nat.add_pos_iff_pos_or_pos.mp waits with queued | held
      · refine .inl (tally_pos.mp ?_)
        split_ifs at queued
        · exact queued
        · cases queued
      · obtain ⟨task, member, positive⟩ := Pool.exists_of_total_pos held
        exact .inr ⟨task, member, tally_pos.mp positive⟩
  · have all := sound.once n
    omega

/-- A command is queued, its first retry raises and its second one does not. -/
def retriedTwice : List Turn :=
  [.execute (Plant.registerWrite 1 10), .link .up, .execute (Plant.registerWrite 2 20),
    .answer 1 false, .answer 1 true, .drain, .answer 2 true]

theorem keeps_of_exclusive_retriedTwice :
    ∃ s, Run (Guarded (OfPartial next) Exclusive) init retriedTwice s ∧ s.queued = [0] ∧
      s.written = [1, 0] ∧ s.Keeps := by
  have follows : (runPartial (checked next Exclusive) init retriedTwice).any
      (fun s => s.queued = [0] ∧ s.written = [1, 0]) = true := by decide +kernel
  obtain ⟨s, run, facts⟩ := exists_guarded_of_any follows
  obtain ⟨queued, written⟩ := of_decide_eq_true facts
  exact ⟨s, run, queued, written, keeps_of_exclusive run⟩

/-- The connection is lost during a drain, and what is queued then is lost at its end. -/
def lostUpdate : List Turn :=
  [.execute (Plant.registerWrite 1 10), .link .up, .drain, .link .down,
    .execute (Plant.registerWrite 2 20), .answer 1 true]

theorem not_keeps_lostUpdate : ¬ ∀ turns s, Run (OfPartial next) init turns s → s.Keeps := by
  intro keeps
  have follows : (runPartial next init lostUpdate).any (fun s => decide (1 ∈ s.queued) &&
      decide (1 ∉ s.written) && decide (s.retryQueue = []) &&
      s.tasks.all fun task => task.held = []) = true := by decide +kernel
  obtain ⟨s, run, facts⟩ := exists_run_of_any follows
  simp only [Bool.and_eq_true, decide_eq_true_eq, List.all_eq_true] at facts
  obtain ⟨⟨⟨queued, unwritten⟩, empty⟩, idle⟩ := facts
  rcases (keeps _ s run).1 1 queued with written | onQueue | ⟨task, member, held⟩
  · exact unwritten written
  · rw [empty] at onQueue
    cases onQueue
  · rw [idle task member] at held
    cases held

/-! ### Calls without others between -/

/-- How a call ends after its drain. -/
def ending (answer : ℕ → Answer) (remaining : List WriteCmd) (retried : ℕ) :
    Option WriteCmd → List WriteCmd × (Bool ⊕ ℕ)
  | none => (remaining, .inr retried)
  | some own =>
    match outcome answer own with
    | .raised => (enqueue remaining own, .inl false)
    | .success | .error => (remaining, .inl true)

theorem retryQueue_putBack (s : Station) (c : WriteCmd) :
    (s.putBack c).retryQueue = enqueue s.retryQueue c := by
  unfold putBack enqueue
  split_ifs <;> rfl

theorem tasks_putBack (s : Station) (c : WriteCmd) : (s.putBack c).tasks = s.tasks := by
  unfold putBack
  split_ifs <;> rfl

/-- A call that returns in the end, after answers to it alone. -/
def Returns (s : Station) (i : ℕ) (ends : List WriteCmd × (Bool ⊕ ℕ)) : Prop :=
  ∃ turns u, Run (OfPartial next) s turns u ∧
    (∀ turn ∈ turns, ∃ success, turn = .answer i success) ∧
    u.retryQueue = ends.1 ∧ u.tasks[i]? = some (.returned ends.2)

theorem returns_of_returned {i : ℕ} {result : Bool ⊕ ℕ}
    (here : s.tasks[i]? = some (.returned result)) :
    s.Returns i (s.retryQueue, result) := ⟨[], s, .nil, nofun, rfl, here⟩

/-- A call that returns after one more answer. -/
theorem returns_of_answer {i : ℕ} {success : Bool} {ends : List WriteCmd × (Bool ⊕ ℕ)}
    (step : s.next (.answer i success) = some t) (returns : t.Returns i ends) :
    s.Returns i ends := by
  obtain ⟨turns, u, run, answers, queue, here⟩ := returns
  refine ⟨.answer i success :: turns, u, (Run.single step).append run, ?_, queue, here⟩
  intro turn member
  rcases List.mem_cons.mp member with rfl | later
  · exact ⟨success, rfl⟩
  · exact answers turn later

theorem next_answer {i : ℕ} {success : Bool} {task : Task} {result : Station × Task}
    (here : s.tasks[i]? = some task) (resumed : s.resume success task = some result) :
    s.next (.answer i success) = some { result.1 with tasks := result.1.tasks.set i result.2 } := by
  simp only [next, here, Option.bind_eq_bind, Option.bind_some, resumed]
  rfl

section Alone

variable {answer : ℕ → Answer} (definite : ∀ n, answer n ≠ .error) {i : ℕ}
include definite

theorem startWrite_alone {own : WriteCmd} (up : s.link = .up)
    (here : t.tasks[i]? = some (s.startWrite own).2)
    (same : t = { (s.startWrite own).1 with tasks := t.tasks }) :
    t.Returns i (ending answer s.retryQueue 0 (some own)) := by
  by_cases asked : (doWrite own.fields).isSome = true
  · have started : s.startWrite own = (s, .writing own) := by
      rw [startWrite, if_pos (by simp [reaches, up, asked])]
    rw [started] at here same
    have bound := (List.getElem?_eq_some_iff.mp here).1
    have queue : t.retryQueue = s.retryQueue := by rw [same]
    cases ends : answer own.issue with
    | error => exact absurd ends (definite own.issue)
    | success =>
      have resumed : t.resume true (.writing own) =
          some ({ t with written := t.written ++ [own.issue] }, .returned (.inl true)) := by
        rw [resume, if_pos rfl]
      refine returns_of_answer (next_answer here resumed) ?_
      have returns := returns_of_returned (s := { t with
        written := t.written ++ [own.issue]
        tasks := t.tasks.set i (.returned (.inl true)) }) (List.getElem?_set_self bound)
      simpa [ending, outcome, asked, ends, queue] using returns
    | raised =>
      have resumed : t.resume false (.writing own) =
          some (t.putBack own, .returned (.inl false)) := by
        rw [resume, if_neg Bool.false_ne_true]
      refine returns_of_answer (next_answer here resumed) ?_
      have returns := returns_of_returned (s := { t.putBack own with
        tasks := (t.putBack own).tasks.set i (.returned (.inl false)) })
        (List.getElem?_set_self (by rwa [tasks_putBack]))
      simpa [ending, outcome, asked, ends, retryQueue_putBack, queue] using returns
  · have started : s.startWrite own = (s.putBack own, .returned (.inl false)) := by
      rw [startWrite, if_neg (by simp [reaches, asked])]
    rw [started] at here same
    have queue : t.retryQueue = (s.putBack own).retryQueue := by rw [same]
    have returns := returns_of_returned here
    rw [queue, retryQueue_putBack] at returns
    simpa [ending, outcome, asked] using returns

theorem continueDrain_alone (pending : List WriteCmd) {remaining : List WriteCmd} {retried : ℕ}
    {own : Option WriteCmd} (up : s.link = .up)
    (here : t.tasks[i]? = some (s.continueDrain pending remaining retried own).2)
    (same : t = { (s.continueDrain pending remaining retried own).1 with tasks := t.tasks }) :
    t.Returns i (ending answer (drainLoop answer pending remaining retried).1
      (drainLoop answer pending remaining retried).2 own) := by
  induction pending generalizing s t remaining retried with
  | nil =>
    cases own with
    | none =>
      have finished : s.continueDrain [] remaining retried none =
          ({ s with retryQueue := remaining }, .returned (.inr retried)) := rfl
      rw [finished] at here same
      have queue : t.retryQueue = remaining := by rw [same]
      have returns := returns_of_returned here
      rwa [queue] at returns
    | some own =>
      exact startWrite_alone definite (s := { s with retryQueue := remaining }) up here same
  | cons c rest ih =>
    by_cases asked : (doWrite c.fields).isSome = true
    · have reached : reaches s.link c = true := by simp [reaches, up, asked]
      have suspended : s.continueDrain (c :: rest) remaining retried own =
          (s, .draining c rest remaining retried own) := by
        simp only [continueDrain, drainFrom, reached, if_true]
      rw [suspended] at here same
      have bound := (List.getElem?_eq_some_iff.mp here).1
      have link : t.link = .up := by
        rw [same]
        exact up
      cases ends : answer c.issue with
      | error => exact absurd ends (definite c.issue)
      | success =>
        have loop : drainLoop answer (c :: rest) remaining retried =
            drainLoop answer rest remaining (retried + 1) := by
          simp [drainLoop, outcome, asked, ends]
        rw [loop]
        refine returns_of_answer (next_answer here (by rw [resume, if_pos rfl])) ?_
        exact ih (s := { t with written := t.written ++ [c.issue] }) link
          (List.getElem?_set_self (by rwa [(settles_continueDrain _ _ _ _ _).tasks_eq])) rfl
      | raised =>
        have loop : drainLoop answer (c :: rest) remaining retried =
            drainLoop answer rest (remaining ++ [c]) retried := by
          simp [drainLoop, outcome, asked, ends]
        rw [loop]
        have resumed : t.resume false (.draining c rest remaining retried own) =
            some (t.continueDrain rest (remaining ++ [c]) retried own) := by
          rw [resume, if_neg Bool.false_ne_true]
        refine returns_of_answer (next_answer here resumed) ?_
        exact ih link
          (List.getElem?_set_self (by rwa [(settles_continueDrain _ _ _ _ _).tasks_eq])) rfl
    · have skipped : s.continueDrain (c :: rest) remaining retried own =
          s.continueDrain rest (remaining ++ [c]) retried own := by
        have unreached : reaches s.link c = false := by simp [reaches, asked]
        simp only [continueDrain, drainFrom, unreached, Bool.false_eq_true, if_false]
      have loop : drainLoop answer (c :: rest) remaining retried =
          drainLoop answer rest (remaining ++ [c]) retried := by
        simp [drainLoop, outcome, asked]
      rw [loop]
      rw [skipped] at here same
      exact ih up here same

omit definite in
theorem getElem?_spawn {A own : List WriteCmd} {result : Station × Task}
    (settles : Settles A own s result) :
    (spawn result).tasks[s.tasks.length]? = some result.2 := by
  rw [spawn, settles.tasks_eq, List.getElem?_append_right le_rfl, Nat.sub_self]
  rfl

omit definite in
theorem ending_eq (queue : List WriteCmd) (own : WriteCmd) (retried : ℕ) :
    ending answer (drainRetryQueue answer queue).1 retried (some own) =
      ((executeWrite true answer queue own).1, .inl (executeWrite true answer queue own).2) := by
  cases ends : outcome answer own <;> simp [ending, executeWrite, ends]

/-- A call of `execute_write` that no other call interrupts leaves the queue and returns
the result that it does when calls are taken one after the other. -/
theorem execute_alone (s : Station) (fields : Json) :
    ∃ t, s.next (.execute fields) = some t ∧ t.Returns s.tasks.length
      ((executeWrite (s.link = .up) answer s.retryQueue ⟨s.issued, fields⟩).1,
        .inl (executeWrite (s.link = .up) answer s.retryQueue ⟨s.issued, fields⟩).2) := by
  let own : WriteCmd := ⟨s.issued, fields⟩
  let started : Station := { s with issued := s.issued + 1 }
  by_cases up : s.link = .up
  · have step : s.next (.execute fields) = some (spawn (started.startDrain (some own))) := if_pos up
    have here := getElem?_spawn (settles_startDrain started (some own))
    refine ⟨_, step, ?_⟩
    have connected : decide (s.link = .up) = true := decide_eq_true up
    rw [connected, ← ending_eq s.retryQueue own]
    cases waiting : s.retryQueue with
    | nil =>
      have drained : started.startDrain (some own) = started.startWrite own := by
        simp only [startDrain, started, waiting]
      rw [drained] at here ⊢
      have returns := startWrite_alone definite (s := started)
        (t := spawn (started.startWrite own)) up here rfl
      rwa [waiting] at returns
    | cons c rest =>
      have drained : started.startDrain (some own) =
          started.continueDrain (c :: rest) [] 0 (some own) := by
        simp only [startDrain, started, waiting]
      rw [drained] at here ⊢
      exact continueDrain_alone definite (c :: rest) (s := started)
        (t := spawn (started.continueDrain (c :: rest) [] 0 (some own))) up here rfl
  · have step : s.next (.execute fields) =
        some (spawn (started.putBack own, .returned (.inl false))) := if_neg up
    refine ⟨_, step, ?_⟩
    have returns := returns_of_returned (getElem?_spawn (settles_putBack started own (.inl false)))
    have queue : (spawn (started.putBack own, Task.returned (.inl false))).retryQueue =
        enqueue s.retryQueue own := retryQueue_putBack started own
    rw [queue] at returns
    simpa [executeWrite, up] using returns

end Alone

end Station

end Modbus

end AgentTelepathy
