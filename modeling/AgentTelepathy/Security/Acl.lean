import AgentTelepathy.Schemas.Envelope

/-!
# Access control

An `ACLPolicy` has rules for an agent and an intent, rules for an intent, and a
default. The most specific rule decides.
-/

namespace AgentTelepathy

open Foundation

/-- Per-agent access control. -/
structure ACLPolicy where
  defaultAllow : Bool
  rules : Dict (UUID × Intent) Bool
  intentRules : Dict Intent Bool

namespace ACLPolicy

/-- A policy without rules. -/
def init (defaultAllow : Bool) : ACLPolicy := ⟨defaultAllow, Dict.empty, Dict.empty⟩

/-- `allow(agent_id, intent)`. -/
def allow (p : ACLPolicy) (agentId : UUID) (intent : Intent) : ACLPolicy :=
  { p with rules := p.rules.set (agentId, intent) true }

/-- `deny(agent_id, intent)`. -/
def deny (p : ACLPolicy) (agentId : UUID) (intent : Intent) : ACLPolicy :=
  { p with rules := p.rules.set (agentId, intent) false }

/-- `allow_all(intent)`. -/
def allowAll (p : ACLPolicy) (intent : Intent) : ACLPolicy :=
  { p with intentRules := p.intentRules.set intent true }

/-- `deny_all(intent)`. -/
def denyAll (p : ACLPolicy) (intent : Intent) : ACLPolicy :=
  { p with intentRules := p.intentRules.set intent false }

/-- `is_allowed(agent_id, intent)`. -/
def isAllowed (p : ACLPolicy) (agentId : UUID) (intent : Intent) : Bool :=
  match p.rules.get? (agentId, intent) with
  | some rule => rule
  | none =>
    match p.intentRules.get? intent with
    | some rule => rule
    | none => p.defaultAllow

end ACLPolicy

end AgentTelepathy
