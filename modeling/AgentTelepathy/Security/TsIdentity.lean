import AgentTelepathy.Foundation.Ecma
import AgentTelepathy.Security.Crypto

/-!
# Signatures of the TypeScript library

`signPayload` signs the UTF-8 bytes of the stable text of a payload and writes the signature
with `btoa`. `verifySignature` reads key and signature with `atob`, which passes over white
space, and gives both to tweetnacl, which throws unless they have 32 and 64 bytes; whatever
throws is caught.
-/

namespace AgentTelepathy.TypeScript

open Foundation

/-- `atob(data)`; nothing if it throws. -/
def atob (data : String) : Option Bytes :=
  Base64.decodeOpen 0 0 (data.toList.filter fun c =>
    c ≠ ' ' ∧ c ≠ '\t' ∧ c ≠ '\n' ∧ c ≠ '\x0c' ∧ c ≠ '\r')

/-- `AgentIdentityManager.signPayload(payloadDict)`, with the signing function of the key. -/
def signPayload (sign : Bytes → Bytes) (payloadDict : Ecma.Value) : String :=
  Base64.encode (sign (utf8 (Ecma.stringify payloadDict)))

/-- `AgentIdentityManager.signBytes(data)`. -/
def signBytes (sign : Bytes → Bytes) (data : Bytes) : String := Base64.encode (sign data)

/-- `AgentIdentityManager.verifySignature`, with `nacl.sign.detached.verify` for a key and a
signature of the right size. -/
def verifySignature (nacl : Verifier) (publicKeyStr signatureStr : String)
    (payloadDict : Ecma.Value) : Bool :=
  match atob publicKeyStr, atob signatureStr with
  | some publicKey, some signature =>
    publicKey.length = 32 && signature.length = 64 &&
      nacl publicKey signature (utf8 (Ecma.stringify payloadDict))
  | _, _ => false

theorem atob_encode (data : Bytes) : atob (Base64.encode data) = some data := by
  have kept : (Base64.encode data).toList.filter (fun c =>
      c ≠ ' ' ∧ c ≠ '\t' ∧ c ≠ '\n' ∧ c ≠ '\x0c' ∧ c ≠ '\r') = (Base64.encode data).toList := by
    rw [List.filter_eq_self]
    refine fun c member => decide_eq_true (Base64.forall_mem_encodeChars
      (p := fun c => c ≠ ' ' ∧ c ≠ '\t' ∧ c ≠ '\n' ∧ c ≠ '\x0c' ∧ c ≠ '\r')
      (by decide) (by decide) data c ?_)
    rwa [Base64.encode, String.toList_ofList] at member
  rw [atob, kept, Base64.decodeOpen_encode]

/-- What a key signs, its public key verifies. -/
theorem verifySignature_signPayload (ed : Ed25519) (key : ed.PrivateKey)
    (length : ∀ data, (ed.sign key data).length = 64) (payloadDict : Ecma.Value) :
    verifySignature ed.verify (Base64.encode (ed.publicBytes key))
      (signPayload (ed.sign key) payloadDict) payloadDict = true := by
  simp [verifySignature, signPayload, atob_encode, ed.length_publicBytes, length, ed.verify_sign]

/-- A scheme whose signatures have 64 bytes: the key pair is one string of bytes, and a signature
is that string followed by the first 32 bytes of the data, filled up with zeros. -/
def sized : Ed25519 where
  PrivateKey := { key : Bytes // key.length = 32 }
  publicBytes key := key.1
  sign key data := key.1 ++ (data ++ List.replicate 32 0).take 32
  verify publicKey signature data := signature = publicKey ++ (data ++ List.replicate 32 0).take 32
  length_publicBytes := transparent.length_publicBytes
  sign_ne_nil key data empty := by
    have long := congrArg List.length empty
    rw [List.length_append, key.2, List.length_nil] at long
    omega
  verify_sign _ _ := decide_eq_true rfl

theorem length_sign_sized (key : sized.PrivateKey) (data : Bytes) :
    (sized.sign key data).length = 64 := by
  change (key.1 ++ (data ++ List.replicate 32 0).take 32).length = 64
  simp [key.2]

end AgentTelepathy.TypeScript
