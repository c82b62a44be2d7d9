import AgentTelepathy.Core.GoNode
import AgentTelepathy.Foundation.Transition

/-!
# Keys on which the Go node panics

`RegisterPeerKey` stores any text as a key, and `Verify` gives whatever that decodes to to
`ed25519.Verify`, which panics on a key that has not 32 bytes. A panic in a read loop ends
the process, so a node survives what its peers send exactly as long as the keys that decode
have 32 bytes.
-/

namespace AgentTelepathy.Go

open Foundation GoJson Transition

variable {ed25519 : Verifier}

/-- A key that does not decode, or has 32 bytes. -/
def Usable (pubKeyB64 : String) : Prop :=
  ∀ pubBytes, decodeString pubKeyB64 = some pubBytes → pubBytes.length = 32

instance (pubKeyB64 : String) : Decidable (Usable pubKeyB64) :=
  inferInstanceAs (Decidable (∀ pubBytes, decodeString pubKeyB64 = some pubBytes → _))

/-- What can happen to a node: a key is registered, or a read loop reads a frame. -/
inductive KeyEvent
  | registerPeerKey (agentID pubKeyB64 : String)
  | frame (now : ℤ) (frame : Option TPCPEnvelope)

/-- The key that an event registers, with its agent. -/
def KeyEvent.registration? : KeyEvent → Option (String × String)
  | .registerPeerKey agentID pubKeyB64 => some (agentID, pubKeyB64)
  | .frame _ _ => none

namespace TPCPNode

/-- `NewTPCPNode`, with handlers for some intents. -/
def init (handlers : List String) : TPCPNode := ⟨Dict.empty, handlers, Dict.empty, []⟩

/-- `RegisterPeerKey(agentID, pubKeyB64)` -/
def registerPeerKey (n : TPCPNode) (agentID pubKeyB64 : String) : TPCPNode :=
  { n with peerKeys := n.peerKeys.set agentID pubKeyB64 }

/-- The node after an event; nothing if the process has ended with a panic. -/
def next (ed25519 : Verifier) (n : TPCPNode) : KeyEvent → Option TPCPNode
  | .registerPeerKey agentID pubKeyB64 => some (n.registerPeerKey agentID pubKeyB64)
  | .frame now frame =>
    let (n, outcome) := n.readFrame ed25519 now frame
    if outcome = .refused .panicked then none else some n

end TPCPNode

/-! ### One signature -/

/-- `Verify` panics exactly if both texts decode and the key has not 32 bytes. -/
theorem verify_returns_iff (pubKeyB64 : String) (payload : Bytes) (sigB64 : String) :
    (∃ ok, verify ed25519 pubKeyB64 payload sigB64 = some ok) ↔
      decodeString sigB64 = none ∨ Usable pubKeyB64 := by
  unfold verify Usable
  cases decodeString pubKeyB64 with
  | none => simp
  | some pubBytes =>
    cases decodeString sigB64 with
    | none => simp
    | some sigBytes => by_cases length : pubBytes.length = 32 <;> simp [length]

theorem verify_ne_none {pubKeyB64 : String} (usable : Usable pubKeyB64) (payload : Bytes)
    (sigB64 : String) : verify ed25519 pubKeyB64 payload sigB64 ≠ none := by
  obtain ⟨ok, returns⟩ := (verify_returns_iff pubKeyB64 payload sigB64).mpr (.inr usable)
  rw [returns]
  exact Option.some_ne_none ok

/-! ### One frame -/

theorem checkSignature_ne_panicked {peerKeys : Dict String String} {env : TPCPEnvelope}
    (usable : ∀ pubKey, peerKeys.get? env.senderId = some pubKey → Usable pubKey) :
    checkSignature ed25519 peerKeys env ≠ .panicked := by
  unfold checkSignature
  split_ifs
  · cases registered : peerKeys.get? env.senderId with
    | none => nofun
    | some pubKey =>
      have never (canonical : Bytes) (sigB64 : String) :
          verify ed25519 pubKey canonical sigB64 ≠ none :=
        verify_ne_none (usable pubKey registered) canonical sigB64
      dsimp only
      split
      · nofun
      · split
        · nofun
        · rename_i canonical _
          split
          · rename_i panics
            exact absurd panics (never canonical env.signature)
          · nofun
          · nofun
  · nofun

/-- Some text is longer than all of a list. -/
theorem exists_notMem (texts : List String) : ∃ text, text ∉ texts := by
  have bounded : ∃ n, ∀ text ∈ texts, text.length ≤ n := by
    induction texts with
    | nil => exact ⟨0, fun text member => absurd member List.not_mem_nil⟩
    | cons first texts ih =>
      obtain ⟨n, bound⟩ := ih
      refine ⟨first.length + n, List.forall_mem_cons.mpr ⟨Nat.le_add_right _ _, ?_⟩⟩
      exact fun text member => (bound text member).trans (Nat.le_add_left _ _)
  obtain ⟨n, bound⟩ := bounded
  refine ⟨String.ofList (List.replicate (n + 1) 'a'), fun member => ?_⟩
  have short := bound _ member
  rw [String.length_ofList, List.length_replicate] at short
  exact absurd short (Nat.not_succ_le_self n)

/-- A signed envelope, from an agent, that can be read. -/
def signedBy (agentID messageId : String) : TPCPEnvelope :=
  ⟨messageId, agentID, "Task_Request", some .null, Base64.encode [0]⟩

theorem checkSignature_signedBy {peerKeys : Dict String String} {agentID pubKeyB64 : String}
    (registered : peerKeys.get? agentID = some pubKeyB64) (bad : ¬ Usable pubKeyB64)
    (messageId : String) :
    checkSignature ed25519 peerKeys (signedBy agentID messageId) = .panicked := by
  have reads : unmarshal .null = some (decode .null) := by
    rw [unmarshal]
    exact if_pos trivial
  have readable : (signedBy agentID messageId).payload.bind payloadBytes =
      some (marshalSorted (decode .null)) := payloadBytes_of_unmarshal reads
  have signature : (signedBy agentID messageId).signature ≠ "" :=
    Base64.encode_ne_empty (List.cons_ne_nil 0 [])
  have panics : verify ed25519 pubKeyB64 (marshalSorted (decode .null))
      (signedBy agentID messageId).signature = none := by
    rw [Option.eq_none_iff_forall_ne_some]
    intro ok returns
    rcases (verify_returns_iff _ _ _).mp ⟨ok, returns⟩ with unread | usable
    · rw [signedBy, decodeString_encode] at unread
      cases unread
    · exact bad usable
  rw [checkSignature_of_payload signature registered readable, panics]

namespace TPCPNode

variable {n m : TPCPNode} {handlers : List String} {agentID pubKeyB64 : String}

theorem refused_readFrame_iff {now : ℤ} {env : TPCPEnvelope}
    (fresh : n.seenMessages.contains env.messageId = false) :
    (n.readFrame ed25519 now (some env)).2 = .refused .panicked ↔
      checkSignature ed25519 n.peerKeys env = .panicked := by
  have keys : (n.record now env.messageId).peerKeys = n.peerKeys := rfl
  simp only [readFrame, fresh, Bool.false_eq_true, if_false, keys]
  cases check : checkSignature ed25519 n.peerKeys env with
  | passed =>
    -- What a handler does with an envelope does not count as a refusal.
    refine iff_of_false (fun refused => ?_) Check.noConfusion
    have dispatched := dispatched_dispatch (n.record now env.messageId) env
    rw [refused] at dispatched
    exact dispatched
  | unknownPeer => simp
  | failed => simp
  | panicked => simp

/-- No frame makes a node panic exactly if all its keys are usable. -/
theorem readFrame_ne_panicked_iff (n : TPCPNode) :
    (∀ now frame, (n.readFrame ed25519 now frame).2 ≠ .refused .panicked) ↔
      ∀ agentID pubKeyB64, n.peerKeys.get? agentID = some pubKeyB64 → Usable pubKeyB64 := by
  constructor
  · intro never agentID pubKeyB64 registered
    by_contra bad
    -- The frame has to be new, or the replay cache drops it first.
    obtain ⟨messageId, unseen⟩ := exists_notMem n.seenMessages.keys
    have fresh : n.seenMessages.contains messageId = false := by
      rw [Dict.contains_eq_false_iff, Dict.get?_eq_none_iff]
      exact unseen
    refine never 0 (some (signedBy agentID messageId)) ?_
    exact (refused_readFrame_iff fresh).mpr (checkSignature_signedBy registered bad messageId)
  · intro usable now frame panics
    cases frame with
    | none => cases panics
    | some env =>
      cases seen : n.seenMessages.contains env.messageId with
      | true => simp [readFrame, seen] at panics
      | false =>
        have panicked := (refused_readFrame_iff seen).mp panics
        exact checkSignature_ne_panicked (fun pubKey => usable env.senderId pubKey) panicked

/-! ### Runs -/

theorem peerKeys_readFrame (n : TPCPNode) (now : ℤ) (frame : Option TPCPEnvelope) :
    (n.readFrame ed25519 now frame).1.peerKeys = n.peerKeys := by
  unfold readFrame
  cases frame with
  | none => rfl
  | some env =>
    dsimp only
    split_ifs
    · rfl
    · split
      · unfold dispatch
        split_ifs <;> rfl
      · rfl

/-- Usable keys keep a node alive. -/
theorem isSome_runPartial {events : List KeyEvent}
    (stored : ∀ agentID pubKeyB64, n.peerKeys.get? agentID = some pubKeyB64 → Usable pubKeyB64)
    (usable : ∀ r ∈ events.filterMap KeyEvent.registration?, Usable r.2) :
    (runPartial (next ed25519) n events).isSome := by
  induction events generalizing n with
  | nil => rfl
  | cons e events ih =>
    cases e with
    | registerPeerKey agentID pubKeyB64 =>
      refine ih ?_ fun r member => usable r (List.mem_cons_of_mem _ member)
      -- The stored keys are the old ones and the registered one.
      intro other key found
      have found' : (n.peerKeys.set agentID pubKeyB64).get? other = some key := found
      rw [Dict.get?_set] at found'
      split_ifs at found'
      · obtain rfl := Option.some.inj found'
        exact usable (agentID, pubKeyB64) List.mem_cons_self
      · exact stored other key found'
    | frame now frame =>
      have survives : next ed25519 n (.frame now frame) = some (n.readFrame ed25519 now frame).1 :=
        if_neg ((readFrame_ne_panicked_iff n).mpr stored now frame)
      rw [runPartial, survives]
      refine ih ?_ usable
      rw [peerKeys_readFrame]
      exact stored

/-- The registrations of some keys, as events. -/
def register (registrations : List (String × String)) : List KeyEvent :=
  registrations.map fun r => .registerPeerKey r.1 r.2

theorem filterMap_register (registrations : List (String × String)) :
    (register registrations).filterMap KeyEvent.registration? = registrations := by
  rw [register, List.filterMap_map]
  exact List.filterMap_some

theorem runPartial_register (ed25519 : Verifier) (n : TPCPNode)
    (registrations : List (String × String)) :
    ∃ m, runPartial (next ed25519) n (register registrations) = some m ∧
      m.seenMessages = n.seenMessages := by
  induction registrations generalizing n with
  | nil => exact ⟨n, rfl, rfl⟩
  | cons r registrations ih => exact ih (n.registerPeerKey r.1 r.2)

/-- A frame right after a key that is not usable was registered. -/
theorem runPartial_of_not_usable (ed25519 : Verifier) (handlers : List String) (agentID : String)
    (before after : List (String × String)) (bad : ¬ Usable pubKeyB64) :
    runPartial (next ed25519) (init handlers) (register before ++
      .registerPeerKey agentID pubKeyB64 :: .frame 0 (some (signedBy agentID "m")) ::
        register after) = none := by
  obtain ⟨m, registered, unseen⟩ := runPartial_register ed25519 (init handlers) before
  have fresh : (m.registerPeerKey agentID pubKeyB64).seenMessages.contains
      (signedBy agentID "m").messageId = false := by
    show m.seenMessages.contains _ = false
    rw [unseen]
    rfl
  have panics : ((m.registerPeerKey agentID pubKeyB64).readFrame ed25519 0
      (some (signedBy agentID "m"))).2 = .refused .panicked :=
    (refused_readFrame_iff fresh).mpr
      (checkSignature_signedBy (Dict.get?_set_self _ _ _) bad "m")
  have ends : next ed25519 (m.registerPeerKey agentID pubKeyB64)
      (.frame 0 (some (signedBy agentID "m"))) = none := if_pos panics
  -- What is registered later comes too late.
  rw [runPartial_append, registered, Option.bind_some, runPartial]
  exact congrArg (Option.bind · _) ends

/-- A node survives every run in which certain keys are registered exactly if all of these
keys are usable. -/
theorem survives_iff (handlers : List String) (registrations : List (String × String)) :
    (∀ events : List KeyEvent, events.filterMap KeyEvent.registration? = registrations →
      (runPartial (next ed25519) (init handlers) events).isSome) ↔
      ∀ r ∈ registrations, Usable r.2 := by
  constructor
  · intro survives r member
    by_contra bad
    -- A run with these registrations, and one frame right after the key.
    obtain ⟨before, after, rfl⟩ := List.append_of_mem member
    have ended := runPartial_of_not_usable ed25519 handlers r.1 before after bad
    have rest : List.filterMap KeyEvent.registration? (.registerPeerKey r.1 r.2 ::
        .frame 0 (some (signedBy r.1 "m")) :: register after) = r :: after :=
      congrArg (r :: ·) (filterMap_register after)
    have same : (register before ++ .registerPeerKey r.1 r.2 ::
        .frame 0 (some (signedBy r.1 "m")) :: register after).filterMap KeyEvent.registration? =
          before ++ r :: after := by
      rw [List.filterMap_append, filterMap_register, rest]
    have alive := survives _ same
    rw [ended] at alive
    cases alive
  · intro usable events same
    refine isSome_runPartial nofun ?_
    rwa [same]

end TPCPNode

/-- `Verify` returns exactly if the signature does not decode or the key is usable; no frame
makes a node panic exactly if all its keys are usable; and a node survives every run in
which certain keys are registered exactly if all of these are usable. -/
theorem never_panics_iff (ed25519 : Verifier) :
    (∀ pubKeyB64 payload sigB64, (∃ ok, verify ed25519 pubKeyB64 payload sigB64 = some ok) ↔
      decodeString sigB64 = none ∨ Usable pubKeyB64) ∧
    (∀ n : TPCPNode, (∀ now frame, (n.readFrame ed25519 now frame).2 ≠ .refused .panicked) ↔
      ∀ agentID pubKeyB64, n.peerKeys.get? agentID = some pubKeyB64 → Usable pubKeyB64) ∧
    ∀ handlers registrations,
      (∀ events : List KeyEvent, events.filterMap KeyEvent.registration? = registrations →
        (runPartial (TPCPNode.next ed25519) (.init handlers) events).isSome) ↔
        ∀ r ∈ registrations, Usable r.2 :=
  ⟨verify_returns_iff, TPCPNode.readFrame_ne_panicked_iff, TPCPNode.survives_iff⟩

/-- The empty text is a key without bytes. -/
theorem panics_on_empty_key :
    verify transparent.verify "" [] "" = none ∧
      runPartial (TPCPNode.next transparent.verify) (.init []) [.registerPeerKey "a" "",
        .frame 0 (some ⟨"m", "a", "Task_Request", some .null, "AA=="⟩)] = none := by
  have bad : ¬ Usable "" := fun usable => absurd (usable [] (by decide)) (by decide)
  have text : Base64.encode [0] = "AA==" := by decide
  have ended := TPCPNode.runPartial_of_not_usable transparent.verify [] "a" [] [] bad
  rw [signedBy, text] at ended
  exact ⟨by decide, ended⟩

end AgentTelepathy.Go
