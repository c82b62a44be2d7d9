import Mathlib.Tactic.NormNum
import AgentTelepathy.Core.Pinning
import AgentTelepathy.Core.Replay

/-!
# The replay window

A frame records the identifier of its envelope when the envelope is alive and is
not dropped as a duplicate. Along every run the replay cache has exactly what was
recorded within the last 300 seconds, in the order of recording, so the identifier
of a frame is a duplicate exactly when it was recorded within this window. The
checks behind the cache do not read it.
-/

namespace AgentTelepathy

open Foundation Foundation.Transition

/-! ### The checks behind the cache -/

namespace TPCPNode

variable {M : Type} {n : TPCPNode M} {c : Context M} {e : TPCPEnvelope}

/-- The node with another replay cache. -/
def withSeen (n : TPCPNode M) (seen : Dict UUID ℚ) : TPCPNode M := { n with seenMessages := seen }

/-- What follows the replay cache: signature check, access policy and handler. -/
def judge (n : TPCPNode M) (c : Context M) (e : TPCPEnvelope) : TPCPNode M × Outcome :=
  match n.authenticate c.verify e with
  | .error outcome => (n, outcome)
  | .ok () => n.route c e

theorem settle_withSeen (n : TPCPNode M) (seen : Dict UUID ℚ) (e : TPCPEnvelope)
    (value : UUID → Future) : (n.withSeen seen).settle e value =
    (n.settle e value).withSeen seen := by
  unfold settle
  split
  · rfl
  · simp only [withSeen]
    split <;> rfl

theorem runHandler_withSeen (n : TPCPNode M) (seen : Dict UUID ℚ) (c : Context M)
    (e : TPCPEnvelope) (handler : Handler) :
    (n.withSeen seen).runHandler c e handler =
      ((n.runHandler c e handler).1.withSeen seen, (n.runHandler c e handler).2) := by
  cases handler with
  | handleHandshake =>
    simp only [runHandler_handleHandshake]
    unfold handleHandshake
    split
    · split_ifs <;> rfl
    · rfl
  | handleStateSync =>
    simp only [runHandler]
    split
    · split_ifs <;> rfl
    · rfl
  | handleVectorSync =>
    simp only [runHandler]
    split <;> rfl
  | handleAck => exact congrArg (·, none) (settle_withSeen n seen e _)
  | handleNack => exact congrArg (·, none) (settle_withSeen n seen e _)
  | custom name => rfl

/-- The checks behind the replay cache do not read it. -/
theorem judge_withSeen (n : TPCPNode M) (seen : Dict UUID ℚ) (c : Context M) (e : TPCPEnvelope) :
    (n.withSeen seen).judge c e = ((n.judge c e).1.withSeen seen, (n.judge c e).2) := by
  have same : (n.withSeen seen).authenticate c.verify e = n.authenticate c.verify e := rfl
  have allowed : (n.withSeen seen).isAllowed e = n.isAllowed e := rfl
  have handlers : (n.withSeen seen).handlers = n.handlers := rfl
  rw [judge, judge, same]
  cases n.authenticate c.verify e with
  | error outcome => rfl
  | ok =>
    simp only [route_eq, allowed, handlers, runHandler_withSeen]
    split_ifs
    · cases n.handlers.get? e.header.intent <;> rfl
    · rfl

/-- A live envelope with a fresh identifier is recorded and judged. -/
theorem processEnvelope_eq_judge (live : 0 < e.header.ttl)
    (fresh : (n.expireSeen c.now).seenMessages.get? e.header.messageId = none) :
    n.processEnvelope c e =
      ((n.judge c e).1.withSeen (n.remember e c.now).seenMessages, (n.judge c e).2) := by
  have unknown := Dict.contains_eq_false_iff.mpr fresh
  have judged := judge_withSeen n (n.remember e c.now).seenMessages c e
  rw [processEnvelope, if_neg (by omega)]
  simp only [unknown, Bool.false_eq_true, if_false]
  exact judged

theorem judge_ne_duplicate (n : TPCPNode M) (c : Context M) (e : TPCPEnvelope) :
    (n.judge c e).2 ≠ .duplicate := by
  unfold judge
  split
  · rename_i outcome failed
    rintro rfl
    -- The signature check has outcomes of its own.
    unfold authenticate at failed
    grind
  · rw [route_eq]
    split_ifs
    · cases n.handlers.get? e.header.intent <;> simp
    · simp

end TPCPNode

namespace Session

variable {M : Type} {s t : Session M} {event : SessionEvent M}

/-! ### What a frame does to the cache -/

section Cache

variable {n : TPCPNode M} {c : Context M} {e : TPCPEnvelope}

theorem processEnvelope_of_seen {time : ℚ} (live : 0 < e.header.ttl)
    (seen : (n.expireSeen c.now).seenMessages.get? e.header.messageId = some time) :
    n.processEnvelope c e = (n.expireSeen c.now, .duplicate) := by
  have known : (n.expireSeen c.now).seenMessages.contains e.header.messageId = true :=
    Option.isSome_iff_exists.mpr ⟨time, seen⟩
  rw [TPCPNode.processEnvelope, if_neg (by omega)]
  simp only [known, if_true]

/-- A live envelope whose identifier is not in the expired cache is recorded,
whatever the later checks make of it. -/
theorem processEnvelope_of_fresh (live : 0 < e.header.ttl)
    (fresh : (n.expireSeen c.now).seenMessages.get? e.header.messageId = none) :
    (n.processEnvelope c e).1.seenMessages = (n.remember e c.now).seenMessages ∧
      (n.processEnvelope c e).2 ≠ .duplicate := by
  rw [TPCPNode.processEnvelope_eq_judge live fresh]
  exact ⟨rfl, n.judge_ne_duplicate c e⟩

end Cache

/-- A frame records the identifier of its envelope when the envelope is alive and is
not dropped as a duplicate. -/
def Records (s : Session M) (frame : Frame M) (id : UUID) : Prop :=
  ∃ e, TPCPNode.parsed frame.ambient frame.data = some e ∧ 0 < e.header.ttl ∧
    e.header.messageId = id ∧ (s.node.processInbound (s.context frame) frame.data).2 ≠ .duplicate

/-- A live envelope is dropped as a duplicate when the expired cache knows its identifier. -/
theorem outcome_eq_duplicate_iff {frame : Frame M} {e : TPCPEnvelope}
    (parsed : TPCPNode.parsed frame.ambient frame.data = some e) (live : 0 < e.header.ttl) :
    (s.node.processInbound (s.context frame) frame.data).2 = .duplicate ↔
      ∃ time, (s.node.expireSeen frame.now).seenMessages.get? e.header.messageId = some time := by
  have parsed' : TPCPNode.parsed (s.context frame).ambient frame.data = some e := parsed
  rw [TPCPNode.processInbound_of_parsed parsed']
  cases seen : (s.node.expireSeen frame.now).seenMessages.get? e.header.messageId with
  | none =>
    refine iff_of_false (processEnvelope_of_fresh (c := s.context frame) live seen).2 ?_
    rintro ⟨time, absent⟩
    cases absent
  | some time =>
    refine iff_of_true ?_ ⟨time, rfl⟩
    rw [processEnvelope_of_seen (c := s.context frame) live seen]

/-- The cache after a live envelope: the expired one, with the identifier and the
time of the envelope if it was not there. -/
theorem seenMessages_receive_of_live {frame : Frame M} {e : TPCPEnvelope}
    (parsed : TPCPNode.parsed frame.ambient frame.data = some e) (live : 0 < e.header.ttl) :
    (s.receive frame).node.seenMessages =
      if ((s.node.expireSeen frame.now).seenMessages.get? e.header.messageId).isSome then
        (s.node.expireSeen frame.now).seenMessages
      else (s.node.remember e frame.now).seenMessages := by
  have parsed' : TPCPNode.parsed (s.context frame).ambient frame.data = some e := parsed
  have received : (s.receive frame).node = (s.node.processEnvelope (s.context frame) e).1 := by
    rw [← TPCPNode.processInbound_of_parsed parsed']
    rfl
  rw [received]
  split_ifs with seen
  · obtain ⟨time, seen⟩ := Option.isSome_iff_exists.mp seen
    rw [processEnvelope_of_seen (c := s.context frame) live seen]
    rfl
  · have fresh := Option.not_isSome_iff_eq_none.mp seen
    exact (processEnvelope_of_fresh (c := s.context frame) live fresh).1

/-- A frame without a live envelope has no effect on the node. -/
theorem processInbound_of_not_live {n : TPCPNode M} {c : Context M} {data : Option Json}
    (dead : ∀ e, TPCPNode.parsed c.ambient data = some e → ¬ 0 < e.header.ttl) :
    ∃ outcome, n.processInbound c data = (n, outcome) ∧
      ∀ handler raised, outcome ≠ .handled handler raised := by
  cases parsed : TPCPNode.parsed c.ambient data with
  | none =>
    cases data with
    | none => exact ⟨.undecodable, rfl, by simp⟩
    | some json =>
      cases valid : TPCPEnvelope.modelValidate c.ambient json with
      | error error => exact ⟨.invalid error, by rw [TPCPNode.processInbound, valid], by simp⟩
      | ok e => simp [TPCPNode.parsed, valid, Except.toOption] at parsed
  | some e =>
    have expired : n.processEnvelope c e = (n, .expired) := if_pos (not_lt.mp (dead e parsed))
    exact ⟨.expired, by rw [TPCPNode.processInbound_of_parsed parsed, expired], by simp⟩

/-- Any other frame leaves the cache alone. -/
theorem seenMessages_receive_of_not_live {frame : Frame M}
    (dead : ∀ e, TPCPNode.parsed frame.ambient frame.data = some e → ¬ 0 < e.header.ttl) :
    (s.receive frame).node.seenMessages = s.node.seenMessages := by
  obtain ⟨outcome, result, -⟩ :=
    processInbound_of_not_live (n := s.node) (c := s.context frame) dead
  rw [receive, result]

/-! ### What was recorded along a run -/

/-- Along the events from a state, some frame recorded the identifier at that time. -/
def RecordedAt (s₀ : Session M) (events : List (SessionEvent M)) (id : UUID) (time : ℚ) : Prop :=
  ∃ before frame after s, events = before ++ .inbound frame :: after ∧
    Run (OfPartial Session.next) s₀ before s ∧ s.Records frame id ∧ frame.now = time

variable {s₀ : Session M} {events : List (SessionEvent M)} {id : UUID} {time : ℚ}

/-- One more event records what its frame records. -/
theorem recordedAt_append_singleton (run : Run (OfPartial Session.next) s₀ events s) :
    RecordedAt s₀ (events ++ [event]) id time ↔ RecordedAt s₀ events id time ∨
      ∃ frame, event = .inbound frame ∧ s.Records frame id ∧ frame.now = time := by
  constructor
  · rintro ⟨before, frame, after, r, all, run', records, now⟩
    rcases List.eq_nil_or_concat after with rfl | ⟨rest, last, rfl⟩
    · obtain ⟨rfl, rfl⟩ := List.append_singleton_inj.mp all
      obtain rfl := run.unique run'
      exact .inr ⟨frame, rfl, records, now⟩
    · have inits : events ++ [event] = (before ++ .inbound frame :: rest) ++ [last] := by
        rw [all, List.concat_eq_append, List.append_assoc, List.cons_append]
      obtain ⟨rfl, -⟩ := List.append_singleton_inj.mp inits
      exact .inl ⟨before, frame, rest, r, rfl, run', records, now⟩
  · rintro (⟨before, frame, after, r, rfl, run', records, now⟩ | ⟨frame, rfl, records, now⟩)
    · exact ⟨before, frame, after ++ [event], r, by simp, run', records, now⟩
    · exact ⟨events, frame, [], s, rfl, run, records, now⟩

/-- The cache is ordered, has only what was recorded, and has all that was recorded
within the window. -/
structure Mirrors (s₀ : Session M) (events : List (SessionEvent M)) (s : Session M) : Prop where
  ordered : ReplayCache.Ordered s.clock s.node.seenMessages
  entry : ∀ id time, s.node.seenMessages.get? id = some time → RecordedAt s₀ events id time
  kept : ∀ id time, RecordedAt s₀ events id time → s.clock < time + 300 →
    s.node.seenMessages.get? id = some time

theorem Mirrors.get?_expireSeen (mirrors : Mirrors s₀ events s) {now : ℚ} (later : s.clock ≤ now) :
    (s.node.expireSeen now).seenMessages.get? id = some time ↔
      RecordedAt s₀ events id time ∧ now < time + 300 := by
  rw [seenMessages_expireSeen, ReplayCache.get?_expire_eq_some_iff mirrors.ordered]
  constructor
  · rintro ⟨present, young⟩
    exact ⟨mirrors.entry id time present, young⟩
  · rintro ⟨recorded, young⟩
    exact ⟨mirrors.kept id time recorded (later.trans_lt young), young⟩

theorem mirrors_start (s₀ : Session M) (unseen : s₀.node.seenMessages = Dict.empty) :
    Mirrors s₀ [] s₀ := by
  refine ⟨?_, ?_, ?_⟩
  · rw [unseen]
    exact ReplayCache.Ordered.empty _
  · intro id time present
    rw [unseen] at present
    cases present
  · rintro id time ⟨before, frame, after, s, all, -⟩
    exact absurd all.symm (by simp)

/-- An event that records nothing leaves an invariant that depends on what was
recorded, as long as the cache loses only old entries. -/
theorem Mirrors.of_quiet (mirrors : Mirrors s₀ events s)
    (same : ∀ id time, RecordedAt s₀ (events ++ [event]) id time ↔ RecordedAt s₀ events id time)
    (later : s.clock ≤ t.clock) (ordered : ReplayCache.Ordered t.clock t.node.seenMessages)
    (cache : ∀ id time, t.clock < time + 300 →
      (t.node.seenMessages.get? id = some time ↔ s.node.seenMessages.get? id = some time))
    (fewer : ∀ id time, t.node.seenMessages.get? id = some time →
      s.node.seenMessages.get? id = some time) :
    Mirrors s₀ (events ++ [event]) t where
  ordered := ordered
  entry id time present := (same id time).mpr (mirrors.entry id time (fewer id time present))
  kept id time recorded young := (cache id time young).mpr
    (mirrors.kept id time ((same id time).mp recorded) (later.trans_lt young))

/-- What a frame adds to what was recorded. -/
theorem recordedAt_inbound {frame : Frame M} (run : Run (OfPartial Session.next) s₀ events s) :
    RecordedAt s₀ (events ++ [.inbound frame]) id time ↔
      RecordedAt s₀ events id time ∨ s.Records frame id ∧ frame.now = time := by
  rw [recordedAt_append_singleton run]
  refine or_congr_right ⟨?_, fun recorded => ⟨frame, rfl, recorded⟩⟩
  rintro ⟨frame', same, recorded⟩
  cases same
  exact recorded

theorem recordedAt_inbound_of_not {frame : Frame M} (run : Run (OfPartial Session.next) s₀ events s)
    (nothing : ∀ id, ¬ s.Records frame id) (id : UUID) (time : ℚ) :
    RecordedAt s₀ (events ++ [.inbound frame]) id time ↔ RecordedAt s₀ events id time := by
  rw [recordedAt_inbound run]
  exact or_iff_left fun recorded => nothing id recorded.1

section Receive

variable {frame : Frame M} {e : TPCPEnvelope} (mirrors : Mirrors s₀ events s)
  (run : Run (OfPartial Session.next) s₀ events s) (later : s.clock ≤ frame.now)
include mirrors run later

/-- A duplicate only expires the cache. -/
theorem Mirrors.receive_duplicate (parsed : TPCPNode.parsed frame.ambient frame.data = some e)
    (live : 0 < e.header.ttl)
    (seen : ((s.node.expireSeen frame.now).seenMessages.get? e.header.messageId).isSome = true) :
    Mirrors s₀ (events ++ [.inbound frame]) (s.receive frame) := by
  have cache := seenMessages_receive_of_live (s := s) parsed live
  rw [if_pos seen] at cache
  have dropped := (outcome_eq_duplicate_iff (s := s) parsed live).mpr
    (Option.isSome_iff_exists.mp seen)
  refine mirrors.of_quiet (recordedAt_inbound_of_not run ?_) later ?_ ?_ ?_
  · rintro id ⟨-, -, -, -, other⟩
    exact other dropped
  · rw [cache, seenMessages_expireSeen]
    exact (mirrors.ordered.expire 300 frame.now).mono later
  · intro id time young
    rw [cache, seenMessages_expireSeen, ReplayCache.get?_expire_eq_some_iff mirrors.ordered]
    exact and_iff_left young
  · intro id time present
    rw [cache] at present
    exact Dict.get?_of_get?_dropWhile present

/-- A fresh identifier becomes the youngest entry. -/
theorem Mirrors.receive_fresh (parsed : TPCPNode.parsed frame.ambient frame.data = some e)
    (live : 0 < e.header.ttl)
    (fresh : (s.node.expireSeen frame.now).seenMessages.get? e.header.messageId = none) :
    Mirrors s₀ (events ++ [.inbound frame]) (s.receive frame) := by
  have cache := seenMessages_receive_of_live (s := s) parsed live
  rw [if_neg (Option.not_isSome_iff_eq_none.mpr fresh)] at cache
  -- The frame can record no id but its own.
  have own (id : UUID) (records : s.Records frame id) : e.header.messageId = id := by
    obtain ⟨e', parsed', -, same, -⟩ := records
    obtain rfl := Option.some.inj (parsed.symm.trans parsed')
    exact same
  have records : s.Records frame e.header.messageId := by
    refine ⟨e, parsed, live, rfl, fun dropped => ?_⟩
    obtain ⟨time, present⟩ := (outcome_eq_duplicate_iff parsed live).mp dropped
    cases present.symm.trans fresh
  have lookup (id : UUID) : (s.receive frame).node.seenMessages.get? id =
      if id = e.header.messageId then some frame.now
      else (s.node.expireSeen frame.now).seenMessages.get? id := by
    rw [cache]
    exact Dict.get?_set _ _ _ _
  refine ⟨?_, ?_, ?_⟩
  · rw [cache]
    exact (mirrors.ordered.expire 300 frame.now).record fresh later
  · intro id time present
    rw [lookup] at present
    rw [recordedAt_inbound run]
    split_ifs at present with same
    · subst same
      exact .inr ⟨records, Option.some.inj present⟩
    · exact .inl ((mirrors.get?_expireSeen later).mp present).1
  -- An older record of this id would have made the frame a duplicate.
  · intro id time recorded young
    rw [lookup]
    rcases (recordedAt_inbound run).mp recorded with before | ⟨records', rfl⟩
    · have kept := (mirrors.get?_expireSeen later).mpr ⟨before, young⟩
      have other : id ≠ e.header.messageId := by
        rintro rfl
        cases kept.symm.trans fresh
      rw [if_neg other]
      exact kept
    · rw [if_pos (own id records').symm]

/-- Without a live envelope nothing is recorded and the cache stays. -/
theorem Mirrors.receive_dead
    (dead : ∀ e, TPCPNode.parsed frame.ambient frame.data = some e → ¬ 0 < e.header.ttl) :
    Mirrors s₀ (events ++ [.inbound frame]) (s.receive frame) := by
  have cache := seenMessages_receive_of_not_live (s := s) dead
  refine mirrors.of_quiet (recordedAt_inbound_of_not run ?_) later ?_ ?_ ?_
  · rintro id ⟨e, parsed, live, -⟩
    exact dead e parsed live
  · rw [cache]
    exact mirrors.ordered.mono later
  · intro id time _
    rw [cache]
  · intro id time
    rw [cache]
    exact fun present => present

theorem Mirrors.receive : Mirrors s₀ (events ++ [.inbound frame]) (s.receive frame) := by
  by_cases alive : ∃ e, TPCPNode.parsed frame.ambient frame.data = some e ∧ 0 < e.header.ttl
  · obtain ⟨e, parsed, live⟩ := alive
    by_cases seen : ((s.node.expireSeen frame.now).seenMessages.get? e.header.messageId).isSome =
      true
    · exact mirrors.receive_duplicate run later parsed live seen
    · exact mirrors.receive_fresh run later parsed live (Option.not_isSome_iff_eq_none.mp seen)
  · exact mirrors.receive_dead run later fun e parsed live => alive ⟨e, parsed, live⟩

end Receive

/-- Along every run the cache mirrors what was recorded. -/
theorem mirrors_of_run (run : Run (OfPartial Session.next) s₀ events s)
    (unseen : s₀.node.seenMessages = Dict.empty) : Mirrors s₀ events s := by
  induction run with
  | nil => exact mirrors_start s₀ unseen
  | @snoc events r t event before step ih =>
    by_cases inbound : ∃ frame, event = .inbound frame
    · obtain ⟨frame, rfl⟩ := inbound
      obtain ⟨later, step⟩ := Option.ite_none_right_eq_some.mp step
      cases step
      exact ih.receive before later
    · obtain ⟨seenMessages, clock, -, -⟩ :=
        unchanged_of_next step fun frame same => inbound ⟨frame, same⟩
      refine ih.of_quiet ?_ clock.ge ?_ ?_ ?_
      · intro id time
        rw [recordedAt_append_singleton before]
        exact or_iff_left fun ⟨frame, same, _⟩ => inbound ⟨frame, same⟩
      · rw [seenMessages, clock]
        exact ih.ordered
      · intro id time _
        rw [seenMessages]
      · intro id time
        rw [seenMessages]
        exact fun present => present

/-- In every run of a node and for every clock that does not go back, no identifier
is handled twice within 300 seconds; a live envelope is dropped as a duplicate
exactly when its identifier was recorded less than 300 seconds before; and after a
live envelope every entry of the cache is younger than 300 seconds. -/
theorem replay_window (unseen : s₀.node.seenMessages = Dict.empty) (unhandled : s₀.handled = [])
    (run : Run (OfPartial Session.next) s₀ events s) :
    (s.handled.Pairwise fun i j => i.messageId = j.messageId → i.time + 300 ≤ j.time) ∧
      ∀ frame e, s.clock ≤ frame.now →
        TPCPNode.parsed frame.ambient frame.data = some e → 0 < e.header.ttl →
        ((s.node.processInbound (s.context frame) frame.data).2 = .duplicate ↔
          ∃ time, RecordedAt s₀ events e.header.messageId time ∧ frame.now < time + 300) ∧
        ∀ id time, (s.receive frame).node.seenMessages.get? id = some time →
          frame.now < time + 300 := by
  have mirrors := mirrors_of_run run unseen
  have windowed : Windowed s := windowed_of_run run (windowed_start unseen unhandled)
  refine ⟨windowed.apart, ?_⟩
  intro frame e later parsed live
  constructor
  · rw [outcome_eq_duplicate_iff parsed live]
    exact exists_congr fun time => mirrors.get?_expireSeen later
  · intro id time present
    rw [seenMessages_receive_of_live parsed live] at present
    split_ifs at present with seen
    · exact ((mirrors.get?_expireSeen later).mp present).2
    -- The cache now has the record of this frame besides those that were young.
    · rw [seenMessages_remember, ← seenMessages_expireSeen, Dict.get?_set] at present
      split_ifs at present with same
      · obtain rfl := Option.some.inj present
        exact lt_add_of_pos_right _ (by norm_num)
      · exact ((mirrors.get?_expireSeen later).mp present).2

/-- A message is a duplicate 299 seconds after it was recorded, and no duplicate one
second later. -/
theorem replay_window_announcement :
    ∃ s, Run (OfPartial Session.next) host [.inbound (deliver 1 announcement)] s ∧
      (s.node.processInbound (s.context (deliver 300 announcement))
        (deliver 300 announcement).data).2 = .duplicate ∧
      (s.node.processInbound (s.context (deliver 301 announcement))
        (deliver 301 announcement).data).2 ≠ .duplicate := by
  have parsed (now : ℚ) : TPCPNode.parsed (deliver now announcement).ambient
      (deliver now announcement).data = some announcement := parsed_deliver now _ _ _ _
  have live : 0 < announcement.header.ttl := Nat.zero_lt_succ 29
  have records : host.Records (deliver 1 announcement) announcement.header.messageId := by
    refine ⟨announcement, parsed 1, live, rfl, ?_⟩
    rw [ne_eq, outcome_eq_duplicate_iff (parsed 1) live]
    rintro ⟨time, present⟩
    cases present
  have run : Run (OfPartial Session.next) host [.inbound (deliver 1 announcement)]
      (host.receive (deliver 1 announcement)) := .single (next_inbound zero_le_one)
  have window := (replay_window rfl rfl run).2
  refine ⟨_, run, ?_, ?_⟩
  · have later : (host.receive (deliver 1 announcement)).clock ≤ 300 := by
      change (1 : ℚ) ≤ 300
      norm_num
    apply (window (deliver 300 announcement) announcement later (parsed 300) live).1.mpr
    have recorded : RecordedAt host ([] ++ [.inbound (deliver 1 announcement)])
        announcement.header.messageId 1 :=
      (recordedAt_append_singleton .nil).mpr (.inr ⟨_, rfl, records, rfl⟩)
    refine ⟨1, recorded, ?_⟩
    change (300 : ℚ) < 1 + 300
    norm_num
  -- At 301 the record of 1 is no longer young.
  · have later : (host.receive (deliver 1 announcement)).clock ≤ 301 := by
      change (1 : ℚ) ≤ 301
      norm_num
    rw [ne_eq, (window (deliver 301 announcement) announcement later (parsed 301) live).1]
    rintro ⟨time, recorded, young⟩
    rcases (recordedAt_append_singleton .nil).mp recorded with before | ⟨frame, same, -, now⟩
    · obtain ⟨first, frame, rest, r, all, -⟩ := before
      exact absurd all.symm (by simp)
    · cases same
      rw [← now] at young
      exact absurd young (by change ¬ (301 : ℚ) < 1 + 300; norm_num)

end Session

end AgentTelepathy
