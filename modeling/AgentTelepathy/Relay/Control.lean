import AgentTelepathy.Core.Adns
import AgentTelepathy.Relay.Routing

/-!
# Control frames and forwarded frames

The relay forwards frames with all their top-level members, and a node takes a
message with a relay's type for a message of the relay. So a forwarded frame is an
ordinary envelope for the node exactly if its sender did not give it such a type.
-/

namespace AgentTelepathy

open Foundation Foundation.Transition

/-- Forwarding keeps the type of a frame, and what is forwarded is a dictionary. -/
theorem Decremented.type {frame message : Json} (decremented : Decremented frame message) :
    message.get? "type" = frame.get? "type" ∧ ∃ members, message = .obj members := by
  obtain ⟨header, header', ttl', -, found, -, -, -, others⟩ := decremented
  refine ⟨others "type" (by decide), ?_⟩
  cases message with
  | obj members => exact ⟨members, rfl⟩
  | null | bool | int | float | str | arr => cases found

/-- A dictionary with the type of a challenge and a nonce is taken for a challenge. -/
theorem AdnsNode.challenged_of_type {M : Type} {members : List (String × Json)} {nonce : String}
    (type : (Json.obj members).get? "type" = some (.str "ADNS_CHALLENGE"))
    (found : (Json.obj members).get? "nonce" = some (.str nonce)) (a : AdnsNode M) (c : Context M) :
    ∃ signedNonce response, (a.processAdnsMessage c (some (.obj members))).2 =
      .challenged nonce signedNonce response := by
  rw [processAdnsMessage, Json.getD_of_get? type, Json.getD_of_get? found]
  exact ⟨_, _, rfl⟩

namespace Relay

variable {t : Relay} {events : List RelayEvent} {rateLimit burstLimit : ℚ}

/-- A frame that the relay forwards is an ordinary envelope for the node that it
reaches exactly if its top-level type is not one of the relay's own frames. -/
theorem relayed_ordinary {M : Type}
    (run : Run (OfPartial next) (init rateLimit burstLimit) events t) :
    ∀ send ∈ t.sends, ∀ routing, send.purpose.routing? = some routing →
      ∀ (a : AdnsNode M) (c : Context M),
        a.Ordinary c send.frame ↔
          ∀ kind ∈ routing.frame.get? "type", kind ∉ AdnsNode.controlTypes := by
  intro send sent routing routes a c
  obtain ⟨type, members, dictionary⟩ := (decremented_of_run run send sent routing routes).type
  rw [← type, dictionary]
  exact AdnsNode.ordinary_iff

theorem relayed_ordinary_task :
    ∃ t, Run (OfPartial next) (init 30 60)
        (acquainted ++ [.message 0 (addressed (.int 5)) (readAt 5) (constant 8)]) t ∧
      ∃ send ∈ t.sends, send.purpose.routing?.isSome = true ∧
        AdnsNode.unused.Ordinary AdnsNode.ownContext send.frame := by
  have runs : (runPartial next (init 30 60)
      (acquainted ++ [.message 0 (addressed (.int 5)) (readAt 5) (constant 8)])).any (fun t =>
        decide (∃ send ∈ t.sends, ∃ routing ∈ send.purpose.routing?,
          routing.frame.get? "type" = none)) = true := by
    decide +kernel
  obtain ⟨t, run, facts⟩ := exists_run_of_any runs
  obtain ⟨send, sent, routing, routes, untyped⟩ := of_decide_eq_true facts
  refine ⟨t, run, send, sent, Option.isSome_of_mem routes, ?_⟩
  refine (relayed_ordinary run send sent routing routes _ _).mpr ?_
  intro kind found
  exact absurd (untyped.symm.trans found) (Option.some_ne_none kind).symm

/-- A frame from one agent to another that looks like a challenge. -/
def masked : Message where
  length := 200
  data := some (.obj [("type", .str "ADNS_CHALLENGE"), ("nonce", .str "c0ffee"),
    ("header", .obj [("sender_id", .str "alice"), ("receiver_id", .str "bob"),
      ("intent", .str "Task_Request")])])

/-- The relay forwards it, and the other agent signs the nonce. -/
theorem relayed_challenge :
    ∃ t, Run (OfPartial next) (init 30 60)
        (acquainted ++ [.message 0 masked (readAt 5) (constant 8)]) t ∧
      ∃ send ∈ t.sends, send.transmitted = true ∧ send.purpose.routing?.isSome = true ∧
        (∃ signedNonce response,
          (AdnsNode.unused.processAdnsMessage AdnsNode.ownContext (some send.frame)).2 =
            .challenged "c0ffee" signedNonce response) ∧
        ¬ AdnsNode.unused.Ordinary AdnsNode.ownContext send.frame := by
  have runs : (runPartial next (init 30 60)
      (acquainted ++ [.message 0 masked (readAt 5) (constant 8)])).any (fun t =>
        decide (∃ send ∈ t.sends, send.transmitted = true ∧ send.purpose.routing?.isSome = true ∧
          send.frame.get? "type" = some (.str "ADNS_CHALLENGE") ∧
          send.frame.get? "nonce" = some (.str "c0ffee"))) = true := by
    decide +kernel
  obtain ⟨t, run, facts⟩ := exists_run_of_any runs
  obtain ⟨send, sent, transmitted, forwarded, type, nonce⟩ := of_decide_eq_true facts
  -- A frame with a type is an object.
  obtain ⟨members, dictionary⟩ : ∃ members, send.frame = .obj members := by
    cases frame : send.frame with
    | obj members => exact ⟨members, rfl⟩
    | null | bool | int | float | str | arr =>
      rw [frame] at type
      cases type
  rw [dictionary] at type nonce
  obtain ⟨signedNonce, response, challenged⟩ :=
    AdnsNode.challenged_of_type type nonce AdnsNode.unused AdnsNode.ownContext
  refine ⟨t, run, send, sent, transmitted, forwarded, ⟨signedNonce, response, ?_⟩, ?_⟩
  · rw [dictionary]
    exact challenged
  · rw [dictionary]
    intro ordinary
    have inbound := congrArg Prod.snd ordinary
    exact absurd (challenged.symm.trans inbound) AdnsReaction.noConfusion

end Relay

end AgentTelepathy
