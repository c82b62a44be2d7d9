import AgentTelepathy.Foundation.GoValue
import AgentTelepathy.Security.Crypto

/-!
# The canonical JSON of the Go library

`CanonicalJSON` writes a value as JSON, reads it back into an `interface{}`, and writes
that with sorted keys. A receiver does so with what it read from the payload of an
envelope, while the handler gets the payload itself. So the signature covers the
numbers only up to rounding, and the strings only up to replacements.
-/

namespace AgentTelepathy.Go

open Foundation GoJson

/-! ### Canonical bytes -/

/-- `marshalSorted(v)`: `sort.Strings` on the keys, a comma where `i < len-1`, and
`json.Marshal` for keys and scalars. -/
def marshalSorted (v : Generic) : Bytes := SortedWriter.write GoJson.dialect v

/-- `CanonicalJSON(v)`; nothing at an error. -/
def canonicalJSON (v : GoValue) : Option Bytes :=
  (marshalValue v).bind fun raw => (unmarshal raw).map marshalSorted

/-- `CanonicalJSON(payloadVal)` for the payload of an envelope, as `readLoop` reads it. -/
def payloadBytes (payload : Document) : Option Bytes :=
  (unmarshal payload).bind fun payloadVal => canonicalJSON (ofGeneric payloadVal)

/-! ### Signatures -/

/-- `base64.StdEncoding.DecodeString(text)`, which skips line ends. -/
def decodeString (text : String) : Option Bytes :=
  Base64.decode true (String.ofList (text.toList.filter fun c => c ≠ '\r' ∧ c ≠ '\n'))

/-- `Sign(privKey, payload)` -/
def sign (ed : Ed25519) (privKey : ed.PrivateKey) (payload : Bytes) : String :=
  Base64.encode (ed.sign privKey payload)

/-- `Verify(pubKeyB64, payload, sigB64)`; nothing where `ed25519.Verify` panics, on a key
that has not 32 bytes. -/
def verify (ed25519 : Verifier) (pubKeyB64 : String) (payload : Bytes) (sigB64 : String) :
    Option Bool :=
  match decodeString pubKeyB64 with
  | none => some false
  | some pubBytes =>
    match decodeString sigB64 with
    | none => some false
    | some sigBytes =>
      if pubBytes.length ≠ 32 then none
      else some (ed25519 pubBytes sigBytes payload)

/-! ### What the bytes tell -/

theorem marshalSorted_eq {v : Generic} (distinct : v.Distinct) :
    marshalSorted v = bytes (GoJson.dialect.text v) := SortedWriter.write_eq _ v distinct

theorem sort_sort {v : Generic} (distinct : v.Distinct) :
    JsonTree.sort CodeUnits.utf8.code (JsonTree.sort CodeUnits.utf8.code v) =
      JsonTree.sort CodeUnits.utf8.code v := by
  have idempotent : JsonTree.sort CodeUnits.utf8.code
      (JsonTree.relabel id id (JsonTree.sort CodeUnits.utf8.code v)) =
        JsonTree.sort CodeUnits.utf8.code (JsonTree.relabel id id v) :=
    JsonTree.sort_relabel_sort Function.injective_id CodeUnits.code_injective v distinct
  rwa [JsonTree.relabel_id, JsonTree.relabel_id] at idempotent

/-- Sorting first makes no difference. -/
theorem marshalSorted_sort {v : Generic} (distinct : v.Distinct) :
    marshalSorted (JsonTree.sort CodeUnits.utf8.code v) = marshalSorted v := by
  rw [marshalSorted_eq distinct, marshalSorted_eq (distinct_sort.mpr distinct)]
  exact congrArg bytes (lawful_dialect.text_eq_iff.mpr (sort_sort distinct))

/-- Writing a generic value and reading it back makes no difference to its bytes. -/
theorem canonicalJSON_ofGeneric {v : Generic} (distinct : v.Distinct) :
    canonicalJSON (ofGeneric v) = some (marshalSorted v) := by
  rw [canonicalJSON, marshalValue_ofGeneric, Option.bind_some, unmarshal_marshal distinct,
    Option.map_some, marshalSorted_sort distinct]

theorem payloadBytes_eq (payload : Document) : payloadBytes payload =
    if payload.Passes { number := InRange } then some (marshalSorted (decode payload))
      else none := by
  rw [payloadBytes, unmarshal]
  split_ifs
  · rw [Option.bind_some, canonicalJSON_ofGeneric (distinct_decode payload)]
  · rfl

theorem payloadBytes_of_unmarshal {payload : Document} {v : Generic}
    (reads : unmarshal payload = some v) : payloadBytes payload = some (marshalSorted v) := by
  rw [unmarshal] at reads
  split_ifs at reads with inRange
  rw [payloadBytes_eq, if_pos inRange, Option.some.inj reads]

/-- Equal bytes are of payloads that were read as one value. -/
theorem marshalSorted_eq_iff {v w : Generic} (hv : v.Distinct) (hw : w.Distinct) :
    marshalSorted v = marshalSorted w ↔
      JsonTree.sort CodeUnits.utf8.code v = JsonTree.sort CodeUnits.utf8.code w := by
  rw [marshalSorted_eq hv, marshalSorted_eq hw, bytes_injective.eq_iff]
  exact lawful_dialect.text_eq_iff

/-- The bytes of a payload bind its value exactly if it has no numbers and no string in
which something is replaced, or a number out of range, for which there are no bytes. -/
theorem payloadBytes_binds_iff (p : Document) :
    (∀ q data, payloadBytes p = some data → payloadBytes q = some data → SameValue p q) ↔
      ¬ p.Passes { number := InRange } ∨ Lossless p := by
  constructor
  · intro binds
    by_cases inRange : p.Passes { number := InRange }
    · refine .inr (lossless_iff.mpr (plain_of_forall (p := p) (distinct_decode p)
        fun q reads => ?_))
      refine binds q _ ?_ (payloadBytes_of_unmarshal reads)
      rw [payloadBytes_eq, if_pos inRange]
    · exact .inl inRange
  · rintro cases q data left right
    rw [payloadBytes_eq] at left right
    split_ifs at left with inRange
    split_ifs at right
    refine sameValue_of_lossless (cases.resolve_left (not_not_intro inRange)) ?_
    rw [← marshalSorted_eq_iff (distinct_decode p) (distinct_decode q)]
    exact Option.some.inj (left.trans right.symm)

/-- Two ids beyond `2 ^ 53`, of which the other verifies in place of the one. -/
theorem payloadBytes_eq_of_rounding :
    let p : Document := .obj [(units "id", .num ⟨false, 9007199254740992, 0⟩)]
    let q : Document := .obj [(units "id", .num ⟨false, 9007199254740993, 0⟩)]
    (payloadBytes p).isSome ∧ payloadBytes p = payloadBytes q ∧ ¬ SameValue p q := by
  intro p q
  have first : parseFloat ⟨false, 9007199254740992, 0⟩ = some ⟨false, 2 ^ 52, 1, by decide⟩ := by
    decide +kernel
  have second : parseFloat ⟨false, 9007199254740993, 0⟩ = some ⟨false, 2 ^ 52, 1, by decide⟩ := by
    decide +kernel
  have reads : unmarshal p = some (.obj [("id", .num ⟨false, 2 ^ 52, 1, by decide⟩)]) ∧
      unmarshal q = some (.obj [("id", .num ⟨false, 2 ^ 52, 1, by decide⟩)]) := by
    simp [p, q, unmarshal, decode, JsonTree.relabel, JsonTree.relabelMembers, JsonTree.merged,
      JsonTree.mergedMembers, JsonTree.Passes, JsonTree.MembersPass, InRange, first, second,
      readString_units, Dict.items_ofItems]
  refine ⟨?_, ?_, fun same => ?_⟩
  · rw [payloadBytes_of_unmarshal reads.1]
    rfl
  · rw [payloadBytes_of_unmarshal reads.1, payloadBytes_of_unmarshal reads.2]
  · simp [p, q, SameValue, value, JsonTree.merged, JsonTree.mergedMembers, JsonTree.map,
      JsonTree.mapMembers, JsonTree.sort, JsonTree.sortMembers, JsonTree.byCode,
      Dict.items_ofItems, Decimal.value, Decimal.magnitude] at same

end AgentTelepathy.Go
