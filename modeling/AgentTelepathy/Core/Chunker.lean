import AgentTelepathy.Core.Acknowledgement
import AgentTelepathy.Core.Reassembler
import AgentTelepathy.Foundation.Scalar

/-!
# Chunked transfers

`send_chunked` cuts bytes into chunks and sends each as a message with chunk
metadata. What `send_message` signs for such a message holds the identifier of the
transfer, which the encoder refuses, so the first chunk raises and nothing is sent:
no transfer ever reaches the reassembler of its receiver. The receiver would verify
the payload without the metadata.
-/

namespace AgentTelepathy

open Foundation

/-- The exceptions of `send_chunked`. -/
inductive ChunkedError
  | valueError (message : String)
  | overflowError
  | typeError (error : TypeError)
deriving DecidableEq

/-- The arguments of `send_chunked`, and the identifier it draws. -/
structure Transfer where
  targetId : UUID
  payloadBytes : Bytes
  mimeType : String
  description : String
  chunkSizeBytes : ℕ
  transferId : UUID

namespace Transfer

/-- The bytes of one chunk. -/
def chunkBytes (t : Transfer) (index : ℕ) : Bytes :=
  let start := index * t.chunkSizeBytes
  let stop := min (start + t.chunkSizeBytes) t.payloadBytes.length
  (t.payloadBytes.drop start).take (stop - start)

/-- The base64 text of bytes. -/
def encoded (data : Bytes) : Base64Data where
  text := Base64.encode data
  decodes := by
    rw [Base64.decode_encode]
    rfl

/-- The payload of one chunk. -/
def chunkPayload (t : Transfer) (index total : ℕ) : BinaryPayload where
  dataBase64 := encoded (t.chunkBytes index)
  mimeType := t.mimeType
  filename := none
  description := some
    (if t.description = "" then "Chunk " ++ toString (index + 1) ++ "/" ++ toString total
      else t.description)

/-- `math.ceil(len(payload_bytes) / chunk_size_bytes)`, by a division of floats. -/
def totalChunks (t : Transfer) : Option ℤ :=
  (Float64.ofRatio false t.payloadBytes.length t.chunkSizeBytes).number.ceil

end Transfer

namespace TPCPNode

variable {M N : Type} {n n' : TPCPNode M} {t : Transfer} {ambient : ℕ → Ambient}
  {sign : Bytes → Bytes} {total : ℕ}

/-- The loop of `send_chunked` over the indices that are left. An exception leaves
the chunks before it sent. -/
def sendChunks (n : TPCPNode M) (ambient : ℕ → Ambient) (sign : Bytes → Bytes) (t : Transfer) :
    List (Fin total) → TPCPNode M × Except ChunkedError Unit
  | [] => (n, .ok ())
  | index :: later =>
    match n.sendMessage (ambient index) sign t.targetId .mediaShare
        (.binary (t.chunkPayload index total)) false
        (some ⟨index, total, t.transferId, index.pos⟩) with
    | .error error => (n, .error (.typeError error))
    | .ok (n, _) => n.sendChunks ambient sign t later

/-- `send_chunked`; each message has its own identifier and timestamp. -/
def sendChunked (n : TPCPNode M) (ambient : ℕ → Ambient) (sign : Bytes → Bytes) (t : Transfer) :
    TPCPNode M × Except ChunkedError UUID :=
  if t.payloadBytes = [] then (n, .error (.valueError "payload_bytes cannot be empty"))
  else if t.chunkSizeBytes < 1024 then
    (n, .error (.valueError "chunk_size_bytes must be at least 1024 bytes"))
  else
    match t.totalChunks with
    | none => (n, .error .overflowError)
    | some total =>
      let (n, result) := n.sendChunks ambient sign t (List.finRange total.toNat)
      (n, result.map fun _ => t.transferId)

/-! ### From end to end -/

/-- The envelopes that reach the handler of `MEDIA_SHARE`, and when, if frames are
processed in order, each in its context. -/
def mediaShared (n : TPCPNode M) (c : ℕ → Context M) : List TPCPEnvelope → List (ℚ × TPCPEnvelope)
  | [] => []
  | e :: later =>
    let (n, outcome) := n.processInbound (c 0) (some e.toJson)
    let rest := n.mediaShared (fun i => c (i + 1)) later
    match outcome, parsed (c 0).ambient (some e.toJson) with
    | .handled _ _, some received =>
      if received.header.intent = .mediaShare then ((c 0).now, received) :: rest else rest
    | _, _ => rest

/-- What a node dispatched since an earlier state. -/
def sentSince (earlier n : TPCPNode M) : List TPCPEnvelope :=
  (n.dispatched.drop earlier.dispatched.length).map Prod.snd

/-- A transfer works from end to end: sending completes, every envelope passes the
signature check of the receiver, and in whatever order they arrive, the last one
that reaches the handler makes the reassembler return the bytes. -/
def Works (a : TPCPNode M) (b : TPCPNode N) (ambient : ℕ → Ambient) (sign : Bytes → Bytes)
    (c : ℕ → Context N) (timeoutSeconds : ℚ) (t : Transfer) : Prop :=
  ∃ a', a.sendChunked ambient sign t = (a', .ok t.transferId) ∧
    (∀ e ∈ sentSince a a', ∀ i, b.authenticate (c i).verify e = .ok ()) ∧
    ∀ order, order.Perm (sentSince a a') →
      ((ChunkReassembler.init timeoutSeconds).ingestAll (b.mediaShared c order)).getLast? =
        some (.ok (some t.payloadBytes))

/-- The first chunk raises. -/
theorem sendChunks_cons (n : TPCPNode M) (ambient : ℕ → Ambient) (sign : Bytes → Bytes)
    (t : Transfer) (index : Fin total) (later : List (Fin total)) :
    n.sendChunks ambient sign t (index :: later) =
      (n, .error (.typeError uuidNotSerializable)) := by
  rw [sendChunks, sendMessage, signedPayload,
    AgentIdentityManager.signPayload_dict_of_error (ChunkInfo.toJson_modelDump _)]
  rfl

/-- Nothing is ever sent, and sending completes only if there is no chunk. -/
theorem sendChunked_cases (n : TPCPNode M) (ambient : ℕ → Ambient) (sign : Bytes → Bytes)
    (t : Transfer) :
    (n.sendChunked ambient sign t).1 = n ∧
      ((∃ error, (n.sendChunked ambient sign t).2 = .error error) ∨
        ∃ total ≤ 0, t.totalChunks = some total) := by
  unfold sendChunked
  split_ifs
  · exact ⟨rfl, .inl ⟨_, rfl⟩⟩
  · exact ⟨rfl, .inl ⟨_, rfl⟩⟩
  · cases count : t.totalChunks with
    | none => exact ⟨rfl, .inl ⟨_, rfl⟩⟩
    -- The first index raises, so sending completes only where there is none.
    | some total =>
      cases indices : List.finRange total.toNat with
      | nil =>
        refine ⟨?_, .inr ⟨total, ?_, rfl⟩⟩
        · simp only [indices]
          rfl
        · have none_left := congrArg List.length indices
          rw [List.length_finRange, List.length_nil] at none_left
          exact Int.toNat_eq_zero.mp none_left
      | cons index later =>
        simp only [indices, sendChunks_cons, true_and]
        exact .inl ⟨_, rfl⟩

/-- A transfer works for no bytes, nodes, keys and times. -/
theorem chunked_transfer_fails (a : TPCPNode M) (b : TPCPNode N) (ambient : ℕ → Ambient)
    (sign : Bytes → Bytes) (c : ℕ → Context N) (timeoutSeconds : ℚ) (t : Transfer) :
    ¬ Works a b ambient sign c timeoutSeconds t := by
  rintro ⟨a', sent, -, reassembled⟩
  obtain ⟨same, -⟩ := sendChunked_cases a ambient sign t
  rw [sent] at same
  obtain rfl : a' = a := same
  -- Whether sending raised or found no chunk, there is nothing to reassemble.
  have silent : sentSince a' a' = [] := by
    rw [sentSince, List.drop_length, List.map_nil]
  have returned := reassembled [] (by rw [silent])
  cases returned

/-- One byte from the first node to the second one. -/
def oneByte : Transfer where
  targetId := bobIdentity.agentId
  payloadBytes := [1]
  mimeType := "application/octet-stream"
  description := ""
  chunkSizeBytes := 65536
  transferId := ⟨20, 0, 0, 0, 0⟩

/-- The second node has the first one registered with its real key, and sending
raises. -/
theorem one_byte_raises :
    bob.peerRegistry.get? alice.identity.agentId = some (aliceIdentity, "ws://10.0.0.1") ∧
      aliceIdentity.publicKey =
        AgentIdentityManager.getPublicKeyString (transparent.publicBytes aliceKey) ∧
      alice.sendChunked (fun _ => calm.ambient) (transparent.sign aliceKey) oneByte =
        (alice, .error (.typeError ⟨"Object of type UUID is not JSON serializable"⟩)) ∧
      ¬ Works alice bob (fun _ => calm.ambient) (transparent.sign aliceKey) (fun _ => calm) 60
        oneByte := by
  have count : oneByte.totalChunks = some 1 := by decide +kernel
  have raises : alice.sendChunked (fun _ => calm.ambient) (transparent.sign aliceKey) oneByte =
      (alice, .error (.typeError uuidNotSerializable)) := by
    unfold sendChunked
    rw [if_neg (by decide), if_neg (by decide), count]
    rfl
  refine ⟨rfl, rfl, raises, ?_⟩
  rintro ⟨a', sent, -⟩
  rw [raises] at sent
  cases sent

end TPCPNode

end AgentTelepathy
