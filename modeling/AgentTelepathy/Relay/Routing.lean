import AgentTelepathy.Relay.Possession
import AgentTelepathy.Relay.Tasks

/-!
# Routing on behalf of registered agents

Every frame that the relay forwards arrived on the connection that was registered
for its sender when the routing began, was not a response to a challenge, had a
ttl that was not used up, and is sent on with that ttl decremented and nothing
else changed. A ttl that is not a number by value is never used up.
-/

namespace AgentTelepathy

open Foundation Foundation.Transition

/-- A message is a frame with the ttl of its header, 30 if there is none, decremented. -/
def Decremented (frame message : Json) : Prop :=
  ∃ header header' ttl', frame.get? "header" = some header ∧
    message.get? "header" = some header' ∧
    ((header.get? "ttl").getD (.int 30)).subOne? = some ttl' ∧ header'.get? "ttl" = some ttl' ∧
    (∀ key, key ≠ "ttl" → header'.get? key = header.get? key) ∧
    ∀ key, key ≠ "header" → message.get? key = frame.get? key

/-- A frame that names an agent has a header. -/
theorem Names.get?_header {data header intent senderId : Json} {id : Key}
    (names : Names data header intent senderId id) :
    data.get? "header" = some header ∧ header.get? "sender_id" = some senderId ∧
      (header.get? "intent").getD .null = intent := by
  obtain ⟨sameIntent, sameSender, -, -⟩ := openHeader_fields names.opened
  obtain ⟨found, opened, rest⟩ := Option.bind_eq_some_iff.mp names.opened
  obtain ⟨i, -, rest⟩ := Option.bind_eq_some_iff.mp rest
  obtain ⟨x, -, same⟩ := Option.map_eq_some_iff.mp rest
  obtain rfl : found = header := congrArg Prod.fst same
  have present : found.get? "sender_id" = some senderId := by
    cases sender : found.get? "sender_id" with
    | none =>
      rw [sender, Option.getD_none] at sameSender
      have falsy := names.truthy
      rw [sameSender] at falsy
      cases falsy
    | some v => rw [sameSender, sender, Option.getD_some]
  refine ⟨?_, present, sameIntent.symm⟩
  have value := (Json.getD_eq opened).1
  cases header : data.get? "header" with
  | none =>
    -- The default header is empty and names no sender.
    rw [header, Option.getD_none] at value
    rw [value] at present
    cases present
  | some v => rw [value, header, Option.getD_some]

/-- What is forwarded for a frame is the frame with its ttl decremented. -/
theorem decremented_of_forwarded {data header intent senderId message : Json} {id : Key}
    (names : Names data header intent senderId id)
    (forwards : forwarded? data header = some message) :
    (∃ x, ((header.get? "ttl").getD (.int 30)).number? = some x ∧ (x.positive = true ∨ x = .nan)) ∧
      Decremented data message := by
  unfold forwarded? at forwards
  dsimp only at forwards
  split at forwards
  · cases forwards
  · rename_i x number
    split_ifs at forwards with usedUp
    obtain ⟨ttl, less, rfl⟩ := Option.map_eq_some_iff.mp forwards
    have above := Number.positive_or_nan (Bool.eq_false_of_not_eq_true usedUp)
    obtain ⟨-, -, ⟨members, rfl⟩, headerMembers, rfl⟩ := openHeader_fields names.opened
    refine ⟨⟨x, number, above⟩, _, Json.setMember (.obj headerMembers) "ttl" ttl, ttl,
      names.get?_header.1, ?_, less, ?_, ?_, ?_⟩
    · rw [Json.get?_setMember, if_pos rfl]
    · rw [Json.get?_setMember, if_pos rfl]
    · intro key other
      rw [Json.get?_setMember, if_neg other]
    · intro key other
      rw [Json.get?_setMember, if_neg other]

namespace Relay

variable {r t : Relay} {e : RelayEvent} {events : List RelayEvent} {routing : Routing}
  {rateLimit burstLimit : ℚ}

/-- The routing of a frame began in a run, when the frame arrived. -/
def Began (start : Relay) (events : List RelayEvent) (routing : Routing) : Prop :=
  ∃ before u m readings entropy after,
    events = before ++ .message routing.origin m readings entropy :: after ∧
    Run (OfPartial next) start before u ∧ Begins u.server routing m readings

theorem Began.later {start : Relay} (began : Began start events routing) (e : RelayEvent) :
    Began start (events ++ [e]) routing := by
  obtain ⟨before, u, m, readings, entropy, after, rfl, run, begins⟩ := began
  exact ⟨before, u, m, readings, entropy, after ++ [e], by simp, run, begins⟩

/-- Whatever a handler sends for a routing, it sends the routing's message, and the
routing began in the run. -/
theorem began_of_action {start : Relay} {w target : ℕ} {purpose : Purpose} {frame : Json}
    (run : Run (OfPartial next) start events r)
    (tasks : ∀ w purpose target transmitted routing,
      r.task? w = some (.sending purpose target transmitted) → purpose.routing? = some routing →
        Began start events routing)
    (acts : r.action? e = some (w, .send purpose target frame))
    (routes : purpose.routing? = some routing) :
    Began start (events ++ [e]) routing ∧ frame = routing.message := by
  cases e with
  | message ws m readings entropy =>
    obtain ⟨rfl, starts⟩ := starts_of_message acts
    cases starts with
    | challenge | confirm => cases routes
    | broadcast origin begins peers =>
      cases routes
      exact ⟨⟨events, r, m, readings, entropy, [], by rw [origin], run, begins⟩, rfl⟩
    | forward origin begins registered =>
      cases routes
      exact ⟨⟨events, r, m, readings, entropy, [], by rw [origin], run, begins⟩, rfl⟩
  | sent ws outcome =>
    obtain ⟨-, going, peer, rest, stale, last, transmitted, next, later, task, rfl, -, rfl⟩ :=
      broadcast_of_sent acts
    cases routes
    exact ⟨(tasks _ _ _ _ _ task rfl).later _, rfl⟩
  | connect | closed | lose | finish | sign => cases acts

theorem began_of_run {start : Relay} (run : Run (OfPartial next) start events t)
    (idle : ∀ w purpose target transmitted,
      start.task? w ≠ some (.sending purpose target transmitted)) (unsent : start.sends = []) :
    (∀ w purpose target transmitted routing,
      t.task? w = some (.sending purpose target transmitted) → purpose.routing? = some routing →
        Began start events routing) ∧
    ∀ send ∈ t.sends, ∀ routing, send.purpose.routing? = some routing →
      Began start events routing ∧ send.frame = routing.message := by
  induction run with
  | nil =>
    refine ⟨fun w purpose target transmitted routing sending => ?_, ?_⟩
    · exact absurd sending (idle w purpose target transmitted)
    · rw [unsent]
      exact fun send sent => absurd sent List.not_mem_nil
  | snoc before last ih =>
    obtain ⟨tasks, sends⟩ := ih
    -- A handler that sends was already sending, or has just begun to.
    have acts := acts_of_next last
    constructor
    · intro w purpose target transmitted routing sending routes
      rcases acts.sending w purpose target transmitted sending with old | ⟨frame, action⟩
      · exact (tasks w purpose target transmitted routing old routes).later _
      · exact (began_of_action before tasks action routes).1
    · intro send sent routing routes
      rcases acts.sends with same | ⟨w, purpose, target, frame, action, more⟩
      · rw [same] at sent
        obtain ⟨began, frame⟩ := sends send sent routing routes
        exact ⟨began.later _, frame⟩
      · rw [more] at sent
        rcases List.mem_append.mp sent with old | now
        · obtain ⟨began, frame⟩ := sends send old routing routes
          exact ⟨began.later _, frame⟩
        · obtain rfl := List.mem_singleton.mp now
          exact began_of_action before tasks action routes

theorem began_of_init (run : Run (OfPartial next) (init rateLimit burstLimit) events t) :
    ∀ send ∈ t.sends, ∀ routing, send.purpose.routing? = some routing →
      Began (init rateLimit burstLimit) events routing ∧ send.frame = routing.message := by
  have idle : ∀ w purpose target transmitted,
      (init rateLimit burstLimit).task? w ≠ some (.sending purpose target transmitted) := by
    intro w purpose target transmitted sending
    cases sending
  exact (began_of_run run idle rfl).2

/-- Whatever is sent for a routing is the routed frame with its ttl decremented. -/
theorem decremented_of_run (run : Run (OfPartial next) (init rateLimit burstLimit) events t) :
    ∀ send ∈ t.sends, ∀ routing, send.purpose.routing? = some routing →
      Decremented routing.frame send.frame := by
  intro send sent routing routes
  obtain ⟨⟨_, _, _, _, _, _, -, -, begins⟩, frame⟩ := began_of_init run send sent routing routes
  obtain ⟨-, -, header, intent, senderId, names, -, forwards⟩ := begins
  rw [frame]
  exact (decremented_of_forwarded names forwards).2

/-- Whenever a frame is forwarded, it arrived on the connection that was registered
for its sender at that moment, it was not a response to a challenge, its ttl was
positive or not a number, and the frame with its ttl decremented is what is sent. -/
theorem forwarded_on_behalf
    (run : Run (OfPartial next) (init rateLimit burstLimit) events t) :
    ∀ send ∈ t.sends, ∀ routing, send.purpose.routing? = some routing →
      ∃ before u m readings entropy after header x,
        events = before ++ .message routing.origin m readings entropy :: after ∧
        Run (OfPartial next) (init rateLimit burstLimit) before u ∧
        u.server.read? routing.origin m readings = some routing.frame ∧
        routing.frame.get? "header" = some header ∧
        (header.get? "sender_id").bind Json.key? = some routing.senderId ∧
        (u.server.registry.get? routing.senderId).map Registration.ws = some routing.origin ∧
        header.get? "intent" ≠ some challengeResponse ∧
        ((header.get? "ttl").getD (.int 30)).number? = some x ∧ (x.positive = true ∨ x = .nan) ∧
        Decremented routing.frame send.frame := by
  intro send sent routing routes
  obtain ⟨⟨before, u, m, readings, entropy, after, split, reached, begins⟩, frame⟩ :=
    began_of_init run send sent routing routes
  obtain ⟨read, owner, header, intent, senderId, names, request, forwards⟩ := begins
  obtain ⟨present, sender, sameIntent⟩ := names.get?_header
  obtain ⟨⟨x, number, above⟩, decremented⟩ := decremented_of_forwarded names forwards
  refine ⟨before, u, m, readings, entropy, after, header, x, split, reached, read, present, ?_,
    owner, ?_, number, above, frame ▸ decremented⟩
  · rw [sender, Option.bind_some]
    exact names.key
  · intro response
    rw [response, Option.getD_some] at sameIntent
    exact request sameIntent.symm

/-- Two registered agents. -/
def acquainted : List RelayEvent := joining 0 "alice" 7 1 2 ++ joining 1 "bob" 9 3 4

/-- A frame from one agent to the other, with a given ttl. -/
def addressed (ttl : Json) : Message where
  length := 200
  data := some (.obj [("header", .obj [("sender_id", .str "alice"), ("receiver_id", .str "bob"),
    ("intent", .str "Task_Request"), ("ttl", ttl)])])

theorem forwarded_on_behalf_alice :
    ∃ t, Run (OfPartial next) (init 30 60)
        (acquainted ++ [.message 0 (addressed (.int 5)) (readAt 5) (constant 8)]) t ∧
      ∃ send ∈ t.sends, ∃ routing, send.purpose.routing? = some routing ∧
        Decremented routing.frame send.frame := by
  have runs : (runPartial next (init 30 60)
      (acquainted ++ [.message 0 (addressed (.int 5)) (readAt 5) (constant 8)])).any (fun t =>
        decide (∃ send ∈ t.sends, send.purpose.routing?.isSome = true)) = true := by
    decide +kernel
  obtain ⟨t, run, facts⟩ := exists_run_of_any runs
  obtain ⟨send, sent, routes⟩ := of_decide_eq_true facts
  obtain ⟨routing, routes⟩ := Option.isSome_iff_exists.mp routes
  obtain ⟨_, _, _, _, _, _, _, _, -, -, -, -, -, -, -, -, -, decremented⟩ :=
    forwarded_on_behalf run send sent routing routes
  exact ⟨t, run, send, sent, routing, routes, decremented⟩

/-- `json.loads` reads `NaN`, and a frame with this ttl is forwarded, though it is
not positive. -/
theorem forwarded_nan :
    JsonText.loads "NaN" = some (.float .nan) ∧
      ∃ t, Run (OfPartial next) (init 30 60)
          (acquainted ++ [.message 0 (addressed (.float .nan)) (readAt 5) (constant 8)]) t ∧
        ∃ send ∈ t.sends, send.transmitted = true ∧ ∃ routing, send.purpose.routing? =
          some routing ∧ ∃ header ttl x, routing.frame.get? "header" = some header ∧
            header.get? "ttl" = some ttl ∧ ttl.number? = some x ∧ x.positive = false := by
  have runs : (runPartial next (init 30 60)
      (acquainted ++ [.message 0 (addressed (.float .nan)) (readAt 5) (constant 8)])).any (fun t =>
        decide (∃ send ∈ t.sends, send.transmitted = true ∧
          ∃ routing ∈ send.purpose.routing?, ∃ header ∈ routing.frame.get? "header",
            header.get? "ttl" = some (.float .nan))) = true := by decide +kernel
  obtain ⟨t, run, facts⟩ := exists_run_of_any runs
  obtain ⟨send, sent, transmitted, routing, routes, header, present, ttl⟩ := of_decide_eq_true facts
  exact ⟨by decide +kernel, t, run, send, sent, transmitted, routing, routes, header, _, .nan,
    present, ttl, rfl, rfl⟩

end Relay

end AgentTelepathy
