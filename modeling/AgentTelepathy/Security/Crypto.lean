import AgentTelepathy.Foundation.Base64
import AgentTelepathy.Foundation.SortedWriter
import AgentTelepathy.Schemas.Values

/-!
# Signatures

Payloads are signed over the UTF-8 bytes of their canonical JSON text: members
sorted, no blanks, no needless escapes. The canonical bytes determine the value
up to the order of members. Verification takes the primitive as a parameter: a
public key, a signature and data are accepted or not.

Where an argument is about who made a signature, the primitive is a log of the
signatures made so far, and exactly those are accepted.
-/

namespace AgentTelepathy

open Foundation

/-- The UTF-8 bytes of a text. -/
def utf8 (text : String) : Bytes := text.toUTF8.data.toList

theorem utf8_injective : Function.Injective utf8 := by
  intro s t h
  have arrays : s.toUTF8.data = t.toUTF8.data := Array.toList_inj.mp h
  have bytes : s.toUTF8 = t.toUTF8 := ByteArray.ext arrays
  exact String.toByteArray_inj.mp bytes

theorem utf8_ofList (cs : List Char) :
    utf8 (String.ofList cs) = cs.flatMap String.utf8EncodeChar := by
  have bytes : (String.ofList cs).toByteArray = cs.utf8Encode := String.toByteArray_ofList
  rw [utf8, String.toUTF8_eq_toByteArray, bytes, List.utf8Encode]
  simp

/-- The bytes that are signed for a payload. -/
def canonical (payload : Json) : Bytes :=
  utf8 (JsonText.dumpsSorted JsonText.compactStyle payload)

/-- Canonical bytes determine the value up to the order of members. -/
theorem canonical_eq_iff {v w : Json} : canonical v = canonical w ↔ Json.Same v w := by
  rw [canonical, canonical, utf8_injective.eq_iff, JsonText.dumpsSorted_eq_iff]

theorem canonical_eq_bytes (w : Json) : canonical w = bytes (Dialect.python.text w.tree) := by
  rw [canonical, Dialect.dumpsSorted_eq, utf8_ofList]
  rfl

/-- The verification primitive: public key, signature and data. -/
abbrev Verifier := Bytes → Bytes → Bytes → Bool

/-- The signature primitive with its documented laws. -/
structure Ed25519 where
  PrivateKey : Type
  publicBytes : PrivateKey → Bytes
  sign : PrivateKey → Bytes → Bytes
  verify : Verifier
  length_publicBytes : ∀ key, (publicBytes key).length = 32
  sign_ne_nil : ∀ key data, sign key data ≠ []
  verify_sign : ∀ key data, verify (publicBytes key) (sign key data) data = true

/-- A scheme with these laws: the key pair is one string of bytes, and a signature
is that string followed by the data. -/
def transparent : Ed25519 where
  PrivateKey := { key : Bytes // key.length = 32 }
  publicBytes key := key.1
  sign key data := key.1 ++ data
  verify publicKey signature data := signature = publicKey ++ data
  length_publicBytes key := key.2
  sign_ne_nil key data empty := by
    have long := congrArg List.length empty
    rw [List.length_append, key.2, List.length_nil] at long
    omega
  verify_sign _ _ := decide_eq_true rfl

namespace AgentIdentityManager

/-- `get_public_key_string()`. -/
def getPublicKeyString (publicBytes : Bytes) : String := Base64.encode publicBytes

/-- `sign_bytes(data)`, with the private key's signing function. -/
def signBytes (sign : Bytes → Bytes) (data : Bytes) : String := Base64.encode (sign data)

/-- `sign_payload(payload_dict)`; a value that is not JSON raises. -/
def signPayload (sign : Bytes → Bytes) (payload : PyValue) : Except TypeError String :=
  payload.toJson.map fun payload => Base64.encode (sign (canonical payload))

/-- `verify_bytes`: text that is not base64 and keys of another length are refused. -/
def verifyBytes (verify : Verifier) (publicKey signature : String) (data : Bytes) : Bool :=
  match Base64.decode false publicKey, Base64.decode false signature with
  | some publicBytes, some signatureBytes =>
    publicBytes.length = 32 && verify publicBytes signatureBytes data
  | _, _ => false

/-- `verify_signature`. -/
def verifySignature (verify : Verifier) (publicKey signature : String) (payload : Json) : Bool :=
  verifyBytes verify publicKey signature (canonical payload)

theorem verifyBytes_encode {verify : Verifier} {publicBytes signature data : Bytes}
    (length : publicBytes.length = 32) :
    verifyBytes verify (Base64.encode publicBytes) (Base64.encode signature) data =
      verify publicBytes signature data := by
  rw [verifyBytes, Base64.decode_encode, Base64.decode_encode]
  simp [length]

/-- A signed payload verifies, also after its members were put in another order. -/
theorem verifySignature_signPayload {ed : Ed25519} {key : ed.PrivateKey} {payload received : Json}
    {signature : String} (signed : signPayload (ed.sign key) (.json payload) = .ok signature)
    (same : Json.Same payload received) :
    verifySignature ed.verify (getPublicKeyString (ed.publicBytes key)) signature received =
      true := by
  obtain rfl : Base64.encode (ed.sign key (canonical payload)) = signature := Except.ok.inj signed
  rw [verifySignature, getPublicKeyString, verifyBytes_encode (ed.length_publicBytes key),
    ← canonical_eq_iff.mpr same]
  exact ed.verify_sign key _

end AgentIdentityManager

/-! ### The log of signatures -/

/-- One signature made by the holder of a key: public key, data and signature. -/
structure Signing where
  publicKey : Bytes
  data : Bytes
  signature : Bytes
deriving DecidableEq

/-- The signatures made so far. -/
abbrev SignatureLog := List Signing

/-- Exactly the logged signatures are accepted. -/
def SignatureLog.verify (log : SignatureLog) : Verifier := fun publicKey signature data =>
  decide (⟨publicKey, data, signature⟩ ∈ log)

/-- The holder of the key with the given text has signed the data. -/
def SignatureLog.Signed (log : SignatureLog) (publicKey : String) (data : Bytes) : Prop :=
  ∃ publicBytes signature, Base64.decode false publicKey = some publicBytes ∧
    ⟨publicBytes, data, signature⟩ ∈ log

theorem SignatureLog.Signed.mono {log later : SignatureLog} {publicKey : String} {data : Bytes}
    (signed : log.Signed publicKey data) (grows : log ⊆ later) : later.Signed publicKey data := by
  obtain ⟨publicBytes, signature, decoded, logged⟩ := signed
  exact ⟨publicBytes, signature, decoded, grows logged⟩

theorem SignatureLog.signed_of_verifyBytes {log : SignatureLog} {publicKey signature : String}
    {data : Bytes}
    (verified : AgentIdentityManager.verifyBytes log.verify publicKey signature data = true) :
    log.Signed publicKey data := by
  unfold AgentIdentityManager.verifyBytes at verified
  split at verified
  · rename_i publicBytes signatureBytes decoded _
    rw [Bool.and_eq_true] at verified
    exact ⟨publicBytes, signatureBytes, decoded, of_decide_eq_true verified.2⟩
  · exact absurd verified Bool.false_ne_true

/-- What verifies still does when more signatures are logged. -/
theorem SignatureLog.verifyBytes_mono {log later : SignatureLog} {publicKey signature : String}
    {data : Bytes} (grows : log ⊆ later)
    (verified : AgentIdentityManager.verifyBytes log.verify publicKey signature data = true) :
    AgentIdentityManager.verifyBytes later.verify publicKey signature data = true := by
  unfold AgentIdentityManager.verifyBytes at verified ⊢
  split at verified
  · rw [Bool.and_eq_true] at verified ⊢
    exact ⟨verified.1, decide_eq_true (grows (of_decide_eq_true verified.2))⟩
  · exact absurd verified Bool.false_ne_true

/-- What verifies was signed by the holder of the key. -/
theorem SignatureLog.signed_of_verifySignature {log : SignatureLog} {publicKey signature : String}
    {payload : Json}
    (verified : AgentIdentityManager.verifySignature log.verify publicKey signature payload =
      true) :
    log.Signed publicKey (canonical payload) := signed_of_verifyBytes verified

end AgentTelepathy
