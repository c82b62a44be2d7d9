import AgentTelepathy.Relay.Liveness
import AgentTelepathy.Relay.Routing

/-!
# Deleting the entries of failed peers

A broadcast collects the agents whose send raised and deletes their entries by
name when it is over; in between, an agent may have left or have registered on
another connection. The deletions stop at the first agent that is no longer
registered. So they are right exactly if every agent before that one is still
registered on a connection that is dead, and no agent after it is.
-/

namespace AgentTelepathy

open Foundation Foundation.Transition

/-- Deleting the entries of a list of agents hits only dead connections and leaves
none of these agents on one. -/
def Deletable (dead : ℕ → Prop) : List Key → Dict Key Registration → Prop
  | [], _ => True
  | id :: ids, registry =>
    match registry.get? id with
    | none => ∀ k ∈ ids, ∀ registration ∈ registry.get? k, ¬ dead registration.ws
    | some registration => dead registration.ws ∧ Deletable dead ids (registry.erase id)

instance Deletable.decide (dead : ℕ → Prop) [DecidablePred dead] :
    ∀ (ids : List Key) (registry : Dict Key Registration), Decidable (Deletable dead ids registry)
  | [], _ => isTrue trivial
  | id :: ids, registry => by
    have := Deletable.decide dead ids (registry.erase id)
    unfold Deletable
    cases registry.get? id <;> infer_instance

theorem deletable_iff {dead : ℕ → Prop} {ids : List Key} {registry : Dict Key Registration} :
    Deletable dead ids registry ↔
      (∀ k x, registry.get? k = some x → (deregister ids registry).get? k = none → dead x.ws) ∧
      ∀ k ∈ ids, ∀ x, (deregister ids registry).get? k = some x → ¬ dead x.ws := by
  induction ids generalizing registry with
  | nil =>
    refine ⟨fun _ => ⟨?_, fun k member => by cases member⟩, fun _ => trivial⟩
    intro k x before after
    exact absurd (before.symm.trans after) (Option.some_ne_none x)
  | cons id ids ih =>
    rw [Deletable, deregister, Dict.contains]
    cases registered : registry.get? id with
    -- The first missing name raises, and nothing after it is deleted.
    | none =>
      rw [Option.isSome_none, if_neg Bool.false_ne_true]
      constructor
      · intro spared
        constructor
        · intro k x before after
          exact absurd (before.symm.trans after) (Option.some_ne_none x)
        · intro k member x found
          rcases List.mem_cons.mp member with rfl | member
          · exact absurd (registered.symm.trans found) (Option.some_ne_none x).symm
          · exact spared k member x found
      · intro right k member x found
        exact right.2 k (List.mem_cons_of_mem id member) x found
    -- The name is deleted whatever connection it is registered on now.
    | some registration =>
      rw [Option.isSome_some, if_pos rfl]
      have gone : (deregister ids (registry.erase id)).get? id = none := by
        cases left : (deregister ids (registry.erase id)).get? id with
        | none => rfl
        | some x =>
          have there := ADNSRelayServer.get?_of_get?_deregister left
          exact absurd ((Dict.get?_erase_self _ _).symm.trans there) (Option.some_ne_none x).symm
      dsimp only
      rw [ih]
      constructor
      · rintro ⟨deadHere, removed, cleared⟩
        constructor
        · intro k x before after
          by_cases same : k = id
          · subst same
            obtain rfl := Option.some.inj (registered.symm.trans before)
            exact deadHere
          · exact removed k x ((Dict.get?_erase_of_ne same).trans before) after
        · intro k member x found
          rcases List.mem_cons.mp member with rfl | member
          · exact absurd (gone.symm.trans found) (Option.some_ne_none x).symm
          · exact cleared k member x found
      · rintro ⟨removed, cleared⟩
        refine ⟨removed id registration registered gone, ?_, ?_⟩
        · intro k x before after
          exact removed k x (Dict.get?_of_get?_erase before) after
        · intro k member x found
          exact cleared k (List.mem_cons_of_mem id member) x found

/-- After a send a handler does not close its connection. -/
theorem ADNSRelayServer.resumeSend_ne_close (s : ADNSRelayServer) (outcome : SendOutcome)
    (purpose : Purpose) (leaving : Bool) : (s.resumeSend outcome purpose).2 ≠ .close leaving := by
  cases purpose with
  | challenge | forward =>
    rw [resumeSend]
    split_ifs <;> exact Action.noConfusion
  | confirm => exact Action.noConfusion
  | broadcast routing peer rest stale =>
    rw [resumeSend]
    rcases s.fanOut_cases routing (if outcome = .ok then stale else stale ++ [peer]) rest with
      ended | ⟨next, ws, later, -, -, goesOn⟩
    · rw [ended]
      exact Action.noConfusion
    · rw [goesOn]
      exact Action.noConfusion

namespace Relay

open ADNSRelayServer

variable {r t : Relay} {e : RelayEvent} {ws : ℕ}

/-- A connection has closed, or a send on it has raised. -/
def Dead (r : Relay) (ws : ℕ) : Prop := r.isOpen ws = false ∨ ∃ failure ∈ r.failures, failure.2 = ws

instance (r : Relay) : DecidablePred r.Dead := fun _ => by
  unfold Dead
  infer_instance

/-- The connection on which an event lets a send raise. -/
def failing? (r : Relay) : RelayEvent → Option ℕ
  | .sent ws outcome =>
    match r.task? ws with
    | some (.sending _ target _) => if outcome = SendOutcome.ok then none else some target
    | _ => none
  | _ => none

/-- The agents whose entries are deleted because sends to them raised. -/
def stale (r : Relay) : RelayEvent → List Key
  | .sent ws outcome =>
    match r.task? ws with
    | some (.sending purpose _ _) => purpose.deregisters outcome
    | _ => []
  | _ => []

/-- A step removes only entries of dead connections, and of the agents whose
entries it deletes for their failed sends none stays on a dead connection. -/
structure Justified (r : Relay) (e : RelayEvent) (t : Relay) : Prop where
  removed : ∀ id registration, r.server.registry.get? id = some registration →
    t.server.registry.get? id = none → t.Dead registration.ws
  cleared : ∀ id ∈ r.stale e, ∀ registration, t.server.registry.get? id = some registration →
    ¬ t.Dead registration.ws

/-- When entries are deleted for failed sends, the agents listed before the first
one that is not registered any more are registered on dead connections, and those
listed after it are not. -/
def Timely (r : Relay) (e : RelayEvent) : Prop :=
  Deletable (fun ws => r.Dead ws ∨ r.failing? e = some ws) (r.stale e) r.server.registry

instance (r : Relay) (e : RelayEvent) : Decidable (r.Timely e) := by
  unfold Timely
  infer_instance

/-- A connection is dead after a send if it was before or the send raised. -/
theorem dead_resume {purpose : Purpose} {target : ℕ} {transmitted : Bool} (outcome : SendOutcome)
    (task : r.task? ws = some (.sending purpose target transmitted)) (w : ℕ) :
    (r.resume ws purpose target outcome).Dead w ↔
      r.Dead w ∨ r.failing? (.sent ws outcome) = some w := by
  have opened : (r.resume ws purpose target outcome).isOpen w = r.isOpen w := by
    rw [resume, isOpen_perform_of_ne_close]
    · rfl
    · exact resumeSend_ne_close _ outcome purpose
  have failures : (r.resume ws purpose target outcome).failures =
      if outcome = SendOutcome.ok then r.failures else r.failures ++ [(purpose.peer, target)] := by
    rw [resume, failures_perform]
  have failing : r.failing? (.sent ws outcome) =
      if outcome = SendOutcome.ok then none else some target := by
    rw [failing?, task]
  rw [Dead, Dead, opened, failures, failing]
  split_ifs with ok
  · simp
  · simp [or_assoc]

/-- A step deletes entries for failed sends, or has none to delete. In the second
case entries disappear only if a handler has ended. -/
theorem registry_of_quiet (step : r.next e = some t) (live : r.Live) (quiet : r.stale e = []) :
    ∀ id registration, r.server.registry.get? id = some registration →
      t.server.registry.get? id = none → t.isOpen registration.ws = false := by
  intro id registration before after
  have kept {s : ADNSRelayServer} (same : t.server.registry.get? id = s.registry.get? id)
      (stays : s.registry.get? id ≠ none) : t.isOpen registration.ws = false :=
    absurd (same.symm.trans after) stays
  have there : r.server.registry.get? id ≠ none := by
    rw [before]
    exact Option.some_ne_none registration
  -- Nobody is deregistered, so an entry goes only with the handler that leaves.
  cases tableStep_of_next step with
  | same tables => exact kept (registry_of_tables tables id) there
  | sweep event tables => exact kept (registry_of_tables tables id) there
  | issue event read requested tables => exact kept (registry_of_tables tables id) there
  | settle event read answered tables =>
    refine kept (registry_of_tables tables id) ?_
    rw [get?_registry_settle]
    split_ifs
    · exact Option.some_ne_none _
    · exact there
  | @resume ws outcome purpose target transmitted event task tables =>
    subst event
    have none : purpose.deregisters outcome = [] := by
      rw [stale, task] at quiet
      exact quiet
    have same : t.server.registry.get? id =
        (deregister (purpose.deregisters outcome) r.server.registry).get? id :=
      registry_of_tables tables id
    rw [none] at same
    exact kept same there
  | @leave ws handler exited tables =>
    have closed : t.isOpen ws = false := (live.next step).exited ws exited
    by_cases own : registration.ws = ws
    · rw [own]
      exact closed
    · have stays := (registry_of_tables tables id).trans
        (Dict.get?_filter_eq_some_iff.mpr ⟨before, decide_eq_true own⟩)
      exact absurd (after.symm.trans stays) (Option.some_ne_none _).symm

theorem justified_iff (live : r.Live) (step : r.next e = some t) :
    Justified r e t ↔ r.Timely e := by
  cases e with
  | sent ws outcome =>
    obtain ⟨purpose, target, transmitted, task, -, rfl⟩ := next_sent step
    have stale : r.stale (.sent ws outcome) = purpose.deregisters outcome := by
      rw [Relay.stale, task]
    have registry : (r.resume ws purpose target outcome).server.registry =
        deregister (r.stale (.sent ws outcome)) r.server.registry := by
      rw [stale]
      exact congrArg Tables.registry (tables_resume r ws purpose target outcome)
    have dead := dead_resume outcome task
    rw [Timely, deletable_iff]
    constructor
    · rintro ⟨removed, cleared⟩
      constructor
      · intro k x before after
        exact (dead x.ws).mp (removed k x before (registry ▸ after))
      · intro k member x found deadHere
        exact cleared k member x (registry ▸ found) ((dead x.ws).mpr deadHere)
    · rintro ⟨removed, cleared⟩
      constructor
      · intro k x before after
        exact (dead x.ws).mpr (removed k x before (registry ▸ after))
      · intro k member x found deadHere
        exact cleared k member x (registry ▸ found) ((dead x.ws).mp deadHere)
  -- Only a send that returns deregisters anybody.
  | connect | message | closed | lose | finish | sign =>
    refine ⟨fun _ => trivial, fun _ => ⟨?_, fun k member => by cases member⟩⟩
    intro id registration before after
    exact .inl (registry_of_quiet step live rfl id registration before after)

/-- For a relay of any limits: a step of a reachable state removes only entries of
dead connections and clears its failed peers exactly if its deletions are timely; so
all steps of a run do whose deletions are timely. -/
theorem deregistered_dead (rateLimit burstLimit : ℚ) :
    (∀ events r e t, Run (OfPartial next) (init rateLimit burstLimit) events r →
      Relay.next r e = some t → (Justified r e t ↔ r.Timely e)) ∧
    ∀ before e after t u v,
      Run (Guarded (OfPartial next) Timely) (init rateLimit burstLimit) (before ++ e :: after) t →
      Run (OfPartial next) (init rateLimit burstLimit) before u → Relay.next u e = some v →
      Justified u e v := by
  constructor
  · intro events r e t run step
    exact justified_iff (live_of_reachable ⟨_, _, _, run⟩) step
  intro before e after t u v run reaches step
  obtain ⟨u', v', first, ⟨-, timely⟩, -⟩ := run.middle
  obtain rfl := reaches.unique first.of_guarded
  exact (justified_iff (live_of_reachable ⟨_, _, _, reaches⟩) step).mpr timely

/-- A frame for everybody. -/
def announcement : Message := frame "alice" "Task_Request" broadcastId ""

/-- The second agent has lost its connection, and a broadcast has just found out. -/
def losing : List RelayEvent :=
  acquainted ++ [.lose 1, .message 0 announcement (readAt 5) (constant 8)]

theorem deregistered_dead_bob :
    ∃ u v, Run (OfPartial next) (init 30 60) losing u ∧ u.next (.sent 0 .closed) = some v ∧
      v.server.registry.get? (.text "bob") = none ∧ v.Dead 1 := by
  have runs : (runPartial (checked next Timely) (init 30 60) (losing ++ [.sent 0 .closed])).any
      (fun v => (v.server.registry.get? (.text "bob")).isNone) = true := by decide +kernel
  have before : (runPartial next (init 30 60) losing).any (fun u =>
      decide ((u.server.registry.get? (.text "bob")).map Registration.ws = some 1)) = true := by
    decide +kernel
  obtain ⟨v, run, gone⟩ := exists_guarded_of_any runs
  obtain ⟨u, reaches, held⟩ := exists_run_of_any before
  obtain ⟨registration, registered, own⟩ := Option.map_eq_some_iff.mp (of_decide_eq_true held)
  obtain ⟨u', v', first, last, rest⟩ := run.middle
  obtain rfl := reaches.unique first.of_guarded
  cases rest.of_guarded.unique .nil
  have justified := (deregistered_dead 30 60).2 losing _ [] _ _ _ run reaches last.1
  have absent := Option.isNone_iff_eq_none.mp gone
  exact ⟨u, v, reaches, last.1, absent, own ▸ justified.removed _ _ registered absent⟩

/-- While the broadcast goes on to the third agent, the second one comes back on a
new connection. -/
def returning : List RelayEvent :=
  acquainted ++ joining 2 "carol" 11 5 6 ++
    [.lose 1, .message 0 announcement (readAt 7) (constant 8), .sent 0 .closed, .finish 1] ++
    joining 3 "bob" 13 8 9

/-- The end of the broadcast removes the new entry, whose connection is open and on
which no send has failed. -/
theorem deregistered_alive :
    ∃ (r t : Relay) (registration : Registration), r.Reachable ∧ r.next (.sent 0 .ok) = some t ∧
      r.server.registry.get? (.text "bob") = some registration ∧
      t.server.registry.get? (.text "bob") = none ∧ t.isOpen registration.ws = true ∧
      (∀ failure ∈ t.failures, failure.2 ≠ registration.ws) ∧ ¬ Justified r (.sent 0 .ok) t := by
  let registration : Registration := ⟨3, "AQEBAQEBAQEBAQEBAQEBAQEBAQEBAQEBAQEBAQEBAQE="⟩
  have runs : (runPartial next (init 30 60) returning).any (fun r =>
      (r.next (.sent 0 .ok)).any fun t =>
        decide (r.server.registry.get? (.text "bob") = some registration ∧
          t.server.registry.get? (.text "bob") = none ∧ t.isOpen 3 = true ∧
          ∀ failure ∈ t.failures, failure.2 ≠ 3)) = true := by decide +kernel
  obtain ⟨r, run, facts⟩ := exists_run_of_any runs
  obtain ⟨t, step, facts⟩ := (Option.any_eq_true _ _).mp facts
  obtain ⟨before, after, isOpen, unharmed⟩ := of_decide_eq_true facts
  refine ⟨r, t, registration, ⟨30, 60, _, run⟩, step, before, after, isOpen, unharmed, ?_⟩
  intro justified
  rcases justified.removed _ _ before after with closed | ⟨failure, failed, same⟩
  · exact absurd (isOpen.symm.trans closed) (by decide)
  · exact unharmed failure failed same

end Relay

end AgentTelepathy
