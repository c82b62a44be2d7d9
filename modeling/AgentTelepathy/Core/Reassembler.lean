import Mathlib.Data.Finset.Range
import Mathlib.Data.List.Sort
import AgentTelepathy.Schemas.Envelope

/-!
# The reassembler

A `ChunkReassembler` collects the chunks of transfers under their identifiers. It
forgets a transfer that is older than its timeout, and returns the bytes of one
when the received indices are all those that the last envelope declares.
-/

namespace AgentTelepathy

open Foundation

/-- The exception of `b64decode`. -/
structure DecodeError where
deriving DecidableEq

/-- The field `data_base64`, of the payloads that have one. -/
def Payload.dataBase64? : Payload → Option Base64Data
  | .image p => some p.dataBase64
  | .audio p => some p.dataBase64
  | .video p => some p.dataBase64
  | .binary p => some p.dataBase64
  | .text _ | .vectorEmbedding _ | .crdtSync _ | .telemetry _ => none

/-- Data and bookkeeping of the transfers that are not complete. -/
structure ChunkReassembler where
  timeoutSeconds : ℚ
  chunks : Dict UUID (List (ℕ × Bytes))
  receivedIndices : Dict UUID (Finset ℕ)
  totalChunks : Dict UUID ℕ
  timestamps : Dict UUID ℚ

namespace ChunkReassembler

/-- A new reassembler. -/
def init (timeoutSeconds : ℚ) : ChunkReassembler where
  timeoutSeconds := timeoutSeconds
  chunks := Dict.empty
  receivedIndices := Dict.empty
  totalChunks := Dict.empty
  timestamps := Dict.empty

/-- Drop transfers from all four dictionaries. -/
def forget (r : ChunkReassembler) (transfers : List UUID) : ChunkReassembler :=
  { r with
    chunks := r.chunks.eraseAll transfers
    receivedIndices := r.receivedIndices.eraseAll transfers
    totalChunks := r.totalChunks.eraseAll transfers
    timestamps := r.timestamps.eraseAll transfers }

/-- `_purge_stale()`. -/
def purgeStale (r : ChunkReassembler) (now : ℚ) : ChunkReassembler :=
  r.forget ((r.timestamps.items.filter fun entry => r.timeoutSeconds < now - entry.2).map Prod.fst)

/-- Store a chunk. The first one of a transfer fixes its timestamp and its total. -/
def add (r : ChunkReassembler) (now : ℚ) (info : ChunkInfo) (chunkBytes : Bytes) :
    ChunkReassembler :=
  let id := info.transferId
  let first := !r.timestamps.contains id
  { r with
    timestamps := if first then r.timestamps.set id now else r.timestamps
    totalChunks := if first then r.totalChunks.set id info.totalChunks else r.totalChunks
    receivedIndices :=
      r.receivedIndices.set id (insert info.chunkIndex ((r.receivedIndices.get? id).getD ∅))
    chunks := r.chunks.set id ((r.chunks.get? id).getD [] ++ [(info.chunkIndex, chunkBytes)]) }

/-- `_reassemble(transfer_id)`. -/
def reassemble (r : ChunkReassembler) (id : UUID) : ChunkReassembler × Bytes :=
  let chunks := ((r.chunks.get? id).getD []).insertionSort fun a b => a.1 ≤ b.1
  (r.forget [id], (chunks.map Prod.snd).flatten)

/-- `ingest(envelope)`, with the monotonic time at which stale transfers are purged
and that which a new transfer gets. -/
def ingest (r : ChunkReassembler) (now stamp : ℚ) (e : TPCPEnvelope) :
    ChunkReassembler × Except DecodeError (Option Bytes) :=
  match e.chunkInfo with
  | none => (r, .ok none)
  | some info =>
    let r := r.purgeStale now
    match e.payload.dataBase64? with
    | none => (r, .ok none)
    | some data =>
      match Base64.decode false data.text with
      | none => (r, .error ⟨⟩)
      | some chunkBytes =>
        if info.totalChunks ≤ info.chunkIndex then (r, .ok none)
        else if info.chunkIndex ∈ (r.receivedIndices.get? info.transferId).getD ∅ then (r, .ok none)
        else
          let r := r.add stamp info chunkBytes
          if (r.receivedIndices.get? info.transferId).getD ∅ = Finset.range info.totalChunks then
            let (r, bytes) := r.reassemble info.transferId
            (r, .ok (some bytes))
          else (r, .ok none)

/-- What the calls of `ingest` for envelopes return, each at its time. -/
def ingestAll (r : ChunkReassembler) : List (ℚ × TPCPEnvelope) →
    List (Except DecodeError (Option Bytes))
  | [] => []
  | (now, e) :: later =>
    let (r, result) := r.ingest now now e
    result :: r.ingestAll later

end ChunkReassembler

end AgentTelepathy
