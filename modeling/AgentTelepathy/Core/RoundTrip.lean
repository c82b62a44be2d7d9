import AgentTelepathy.Core.Chunker
import AgentTelepathy.Core.Transfers
import AgentTelepathy.Foundation.Quotient

/-!
# Chunks are put together again

The chunks that `send_chunked` makes of some bytes are those bytes, cut. When the chunks of several
transfers arrive, each transfer whole and in time, a reassembler returns the bytes of a transfer
with its last missing chunk, and nothing else.
-/

namespace AgentTelepathy

open Foundation

namespace Transfer

variable {t : Transfer} {total : ℕ}

theorem chunkBytes_eq (t : Transfer) (index : ℕ) :
    t.chunkBytes index = (t.payloadBytes.drop (index * t.chunkSizeBytes)).take
      t.chunkSizeBytes := by
  rw [chunkBytes, List.take_eq_take_iff, List.length_drop]
  omega

/-- The first chunks are the beginning of the bytes. -/
theorem flatten_chunkBytes (t : Transfer) (count : ℕ) :
    ((List.range count).map t.chunkBytes).flatten =
      t.payloadBytes.take (count * t.chunkSizeBytes) := by
  induction count with
  | zero => rw [Nat.zero_mul, List.take_zero, List.range_zero, List.map_nil, List.flatten_nil]
  | succ count ih =>
    rw [List.range_succ, List.map_append, List.flatten_append, ih, List.map_singleton,
      List.flatten_singleton, chunkBytes_eq, Nat.succ_mul, List.take_add]

/-- The number of chunks is right, unless it is zero. -/
theorem length_le_of_totalChunks (nonempty : 1 ≤ t.payloadBytes.length)
    (short : t.payloadBytes.length < 2 ^ 53) (size : 1 ≤ t.chunkSizeBytes)
    (count : t.totalChunks = some (total : ℤ)) (positive : 0 < total) :
    t.payloadBytes.length ≤ total * t.chunkSizeBytes := by
  have below : (t.payloadBytes.length - 1) / t.chunkSizeBytes * t.chunkSizeBytes <
      t.payloadBytes.length := by
    have quotient := Nat.div_mul_le_self (t.payloadBytes.length - 1) t.chunkSizeBytes
    omega
  have above : t.payloadBytes.length ≤
      ((t.payloadBytes.length - 1) / t.chunkSizeBytes + 1) * t.chunkSizeBytes := by
    have next := Nat.lt_mul_div_succ (t.payloadBytes.length - 1) size
    rw [Nat.mul_comm] at next
    omega
  rcases Float64.ceil_ofRatio short size below above with exact | zero
  · have same : (total : ℤ) = ((t.payloadBytes.length - 1) / t.chunkSizeBytes : ℕ) + 1 :=
      Option.some.inj (count.symm.trans exact)
    have same : total = (t.payloadBytes.length - 1) / t.chunkSizeBytes + 1 := by exact_mod_cast same
    rw [same]
    exact above
  · have same : (total : ℤ) = 0 := Option.some.inj (count.symm.trans zero)
    omega

/-- The chunks are the bytes. -/
theorem flatten_chunks (nonempty : 1 ≤ t.payloadBytes.length)
    (short : t.payloadBytes.length < 2 ^ 53) (size : 1 ≤ t.chunkSizeBytes)
    (count : t.totalChunks = some (total : ℤ)) (positive : 0 < total) :
    ((List.range total).map t.chunkBytes).flatten = t.payloadBytes := by
  rw [flatten_chunkBytes, List.take_of_length_le]
  exact length_le_of_totalChunks nonempty short size count positive

/-- An envelope is a chunk of the transfer as `send_chunked` makes it. -/
def Chunk (t : Transfer) (index total : ℕ) (e : TPCPEnvelope) : Prop :=
  t.totalChunks = some (total : ℤ) ∧ index < total ∧
    e.payload = .binary (t.chunkPayload index total) ∧
    ∃ positive, e.chunkInfo = some ⟨index, total, t.transferId, positive⟩

end Transfer

namespace ChunkReassembler

variable {r : ChunkReassembler} {c : Collector UUID ℚ Bytes} {g : Ingestion} {id : UUID}

/-! ### The progress of a transfer -/

/-- What is kept for a transfer in the four dictionaries. -/
def progress (r : ChunkReassembler) (id : UUID) :
    Option (List (ℕ × Bytes)) × Option (Finset ℕ) × Option ℕ × Option ℚ :=
  (r.chunks.get? id, r.receivedIndices.get? id, r.totalChunks.get? id, r.timestamps.get? id)

theorem progress_forget {transfers : List UUID} (others : id ∉ transfers) :
    (r.forget transfers).progress id = r.progress id := by
  unfold progress forget
  dsimp only
  rw [Dict.get?_eraseAll, Dict.get?_eraseAll, Dict.get?_eraseAll, Dict.get?_eraseAll,
    if_neg others, if_neg others, if_neg others, if_neg others]

theorem progress_add {info : ChunkInfo} (stamp : ℚ) (chunkBytes : Bytes)
    (other : id ≠ info.transferId) : (r.add stamp info chunkBytes).progress id = r.progress id := by
  unfold progress add
  dsimp only
  rw [Dict.get?_set_of_ne other, Dict.get?_set_of_ne other]
  split_ifs
  · rw [Dict.get?_set_of_ne other, Dict.get?_set_of_ne other]
  · rfl

/-- A chunk has no part in other transfers, except that old ones are purged. -/
theorem progress_ingestText {info : ChunkInfo} (chunked : g.chunkInfo = some info)
    (other : id ≠ info.transferId) :
    (r.ingestText g).1.progress id = (r.purgeStale g.now).progress id := by
  cases data : g.dataBase64 with
  | none => rw [ingestText, chunked, data]
  | some text =>
    cases decoded : Base64.decode false text with
    | none => simp only [ingestText, chunked, data, decoded]
    | some chunkBytes =>
      rw [ingestText_of_chunk chunked data decoded]
      dsimp only
      split_ifs
      · rfl
      · rfl
      · exact (progress_forget (mt List.mem_singleton.mp other)).trans (progress_add _ _ other)
      · exact progress_add _ _ other

/-- A transfer that is not too old is not purged. -/
theorem Represents.progress_purgeStale {now : ℚ} (held : r.Represents c)
    (young : c.expire r.timeoutSeconds now id = c id) :
    (r.purgeStale now).progress id = r.progress id := by
  apply progress_forget
  intro stale
  obtain ⟨pending, kept, late⟩ := (held.mem_stale_iff now id).mp stale
  rw [kept, Collector.expire_eq_some_iff] at young
  exact absurd young.2 (not_le.mpr late)

/-! ### Transfers that arrive whole and in time -/

/-- Chunks of some transfers arrive in any order, and no other envelopes; all chunks of a transfer
arrive within the timeout after the first, and none of them again after that. -/
structure Interleaved (timeoutSeconds : ℚ) (ts : List Transfer) (arrivals : List Arrival) :
    Prop where
  distinct : (ts.map Transfer.transferId).Nodup
  nonempty : ∀ t ∈ ts, 1 ≤ t.payloadBytes.length
  short : ∀ t ∈ ts, t.payloadBytes.length < 2 ^ 53
  sizes : ∀ t ∈ ts, 1024 ≤ t.chunkSizeBytes
  chunks : ∀ a ∈ arrivals, ∃ t ∈ ts, ∃ index total, t.Chunk index total a.envelope
  clock : arrivals.Pairwise fun a b => a.now ≤ b.now
  inTime : ∀ t ∈ ts, ∀ total : ℕ, t.totalChunks = some (total : ℤ) → 0 < total →
    Collector.InTime timeoutSeconds total (deliveriesOf t.transferId arrivals)

variable {timeoutSeconds : ℚ} {ts : List Transfer} {arrivals before after : List Arrival}
  {a : Arrival} {t : Transfer} {index total : ℕ}

theorem part?_of_chunk (chunk : t.Chunk index total a.envelope) :
    a.ingestion.part? = some ⟨t.transferId, index, total, t.chunkBytes index⟩ := by
  obtain ⟨-, -, payload, positive, chunked⟩ := chunk
  refine Arrival.part?_ingestion_iff.mpr ⟨_, Transfer.encoded (t.chunkBytes index), chunked, rfl,
    rfl,
    rfl, ?_, Base64.decode_encode ..⟩
  rw [payload]
  rfl

theorem offer?_of_chunk (chunk : t.Chunk index total a.envelope) : a.ingestion.offer? =
    some ⟨a.now, a.stamp, some ⟨t.transferId, index, total, t.chunkBytes index⟩⟩ := by
  refine Ingestion.offer?_eq_some_iff.mpr ⟨?_, ?_⟩
  · obtain ⟨-, -, -, positive, chunked⟩ := chunk
    exact Option.isSome_iff_exists.mpr ⟨_, chunked⟩
  · rw [part?_of_chunk chunk]
    rfl

/-- An envelope for a transfer is a chunk of it. -/
theorem Interleaved.chunk_of_for (interleaved : Interleaved timeoutSeconds ts arrivals)
    (among : a ∈ arrivals) (member : t ∈ ts) (mine : a.For t.transferId) :
    ∃ index total, t.Chunk index total a.envelope := by
  obtain ⟨u, member', index, total, chunk⟩ := interleaved.chunks a among
  obtain ⟨info, chunked, own⟩ := mine
  obtain ⟨-, -, -, positive, chunked'⟩ := id chunk
  obtain rfl := Option.some.inj (chunked.symm.trans chunked')
  obtain rfl := List.inj_on_of_nodup_map interleaved.distinct member' member own
  exact ⟨index, total, chunk⟩

theorem Interleaved.chunksOf (interleaved : Interleaved timeoutSeconds ts arrivals)
    (member : t ∈ ts)
    (count : t.totalChunks = some (total : ℤ)) : ChunksOf t.transferId total arrivals := by
  intro a among info chunked own
  obtain ⟨index, total', count', inside, payload, positive, chunked'⟩ :=
    interleaved.chunk_of_for among member ⟨info, chunked, own⟩
  obtain rfl := Option.some.inj (chunked.symm.trans chunked')
  obtain rfl : total' = total := by exact_mod_cast Option.some.inj (count'.symm.trans count)
  exact ⟨rfl, inside, by rw [payload]; rfl⟩

theorem offered_split (chunk : t.Chunk index total a.envelope) (before after : List Arrival) :
    offered (before ++ a :: after) = offered before ++
      ⟨a.now, a.stamp, some ⟨t.transferId, index, total, t.chunkBytes index⟩⟩ :: offered after := by
  rw [offered_append, offered_cons after (offer?_of_chunk chunk)]

/-- What is returned with a chunk. -/
theorem Interleaved.returned_eq (interleaved : Interleaved timeoutSeconds ts (before ++ a :: after))
    (member : t ∈ ts) (chunk : t.Chunk index total a.envelope) :
    (init timeoutSeconds).returned before a = .ok
      (if Collector.brought (deliveriesOf t.transferId (before ++ [a])) = Finset.range total then
        some t.payloadBytes
      else none) := by
  have count := chunk.1
  have positive : 0 < total := Nat.zero_lt_of_lt chunk.2.1
  have chunks := interleaved.chunksOf member count
  have timely := interleaved.inTime t member total count positive
  have steady := steady_offered chunks
  have ordered := ordered_offered interleaved.clock
  -- What a chunk of the transfer carries is the piece of its payload at its index.
  have contents : ∀ offer ∈ offered (before ++ a :: after), ∀ part, offer.part? = some part →
      part.id = t.transferId → part.content = t.chunkBytes part.index := by
    intro offer offers part some_part own
    obtain ⟨b, among, made⟩ := mem_offered_iff.mp offers
    obtain ⟨_, _, chunk⟩ := interleaved.chunk_of_for among member (own ▸ for_of_part made some_part)
    obtain rfl := Option.some.inj ((offer?_of_chunk chunk).symm.trans made)
    obtain rfl := Option.some.inj some_part
    rfl
  have until_now : ChunksOf t.transferId total (before ++ [a]) := by
    intro b among
    refine chunks b ?_
    rw [List.append_cons]
    exact List.mem_append_left _ among
  -- The arrivals are replaced by the offers they make, where the library has the result.
  rw [← deliveries_offered chunks, offered_split chunk] at timely
  rw [offered_split chunk] at steady ordered contents
  rw [← deliveries_offered until_now, offered_snoc before (offer?_of_chunk chunk),
    returned_eq_of_part before (offer?_of_chunk chunk) rfl,
    timely.returns_eq steady ordered contents rfl]
  split_ifs
  · rw [Option.map_some, Transfer.flatten_chunks (interleaved.nonempty t member)
      (interleaved.short t member)
      (le_trans (by decide) (interleaved.sizes t member)) count positive]
  · rfl

/-- No transfer is ever purged. -/
theorem Interleaved.expire_eq (interleaved : Interleaved timeoutSeconds ts (before ++ a :: after))
    (id : UUID) : (Collector.run timeoutSeconds (offered before)).expire timeoutSeconds a.now id =
      Collector.run timeoutSeconds (offered before) id := by
  have among : a ∈ before ++ a :: after := List.mem_append_right _ (List.mem_cons_self ..)
  obtain ⟨_, _, _, _, here⟩ := interleaved.chunks a among
  have ordered := ordered_offered interleaved.clock
  -- A transfer without a part yet has nothing to lose; another is in time by assumption.
  by_cases some_parts : Collector.deliveries id (offered before) = []
  · have gone : Collector.run timeoutSeconds ([] ++ offered before) id = none :=
      Collector.run_append_eq_none rfl some_parts
    rw [List.nil_append] at gone
    rw [Collector.expire, gone]
    rfl
  · obtain ⟨early, offer, late, part, split, some_part, rfl⟩ :=
      Collector.exists_split_of_deliveries some_parts
    have offers : offer ∈ offered before := by
      rw [split]
      exact List.mem_append_right _ (List.mem_cons_self ..)
    obtain ⟨b, earlier, made⟩ := mem_offered_iff.mp offers
    obtain ⟨t, member, index, total, chunk⟩ :=
      interleaved.chunks b (List.mem_append_left _ earlier)
    obtain rfl := Option.some.inj ((offer?_of_chunk chunk).symm.trans made)
    obtain rfl := Option.some.inj some_part
    have positive : 0 < total := Nat.zero_lt_of_lt chunk.2.1
    have chunks := interleaved.chunksOf member chunk.1
    have timely := interleaved.inTime t member total chunk.1 positive
    have steady := steady_offered chunks
    rw [← deliveries_offered chunks, offered_split here] at timely
    rw [offered_split here] at steady ordered
    exact Collector.InTime.expire_eq positive (fun _ => timely) steady ordered

/-- When all chunks of some transfers arrive, in any order, each transfer in time and before that
with any duplicates, `ingest` returns the bytes of a transfer with its last missing chunk and
nothing with any other, and leaves the progress of all other transfers as it is. -/
theorem ingest_interleaved (timeoutSeconds : ℚ) (ts : List Transfer) (before after : List Arrival)
    (a : Arrival) (interleaved : Interleaved timeoutSeconds ts (before ++ a :: after)) :
    ∃ t ∈ ts, ∃ index total, t.Chunk index total a.envelope ∧
      (init timeoutSeconds).returned before a = .ok
        (if Collector.brought (deliveriesOf t.transferId (before ++ [a])) = Finset.range total then
          some t.payloadBytes
        else none) ∧
      ∀ id, id ≠ t.transferId →
        ((init timeoutSeconds).afterArrivals (before ++ [a])).progress id =
          ((init timeoutSeconds).afterArrivals before).progress id := by
  have among : a ∈ before ++ a :: after := List.mem_append_right _ (List.mem_cons_self ..)
  obtain ⟨t, member, index, total, chunk⟩ := interleaved.chunks a among
  refine ⟨t, member, index, total, chunk, interleaved.returned_eq member chunk, fun id other => ?_⟩
  obtain ⟨-, -, -, positive, chunked⟩ := chunk
  have held := represents_afterArrivals timeoutSeconds before
  have timeout : ((init timeoutSeconds).afterArrivals before).timeoutSeconds = timeoutSeconds := by
    rw [afterArrivals_eq, timeoutSeconds_ingestEach]
    rfl
  have young := interleaved.expire_eq id
  have ingested : (init timeoutSeconds).afterArrivals (before ++ [a]) =
      (((init timeoutSeconds).afterArrivals before).ingestText a.ingestion).1 := by
    rw [afterArrivals_eq, List.map_append, List.map_singleton, ingestEach_snoc, ← afterArrivals_eq]
  rw [ingested, progress_ingestText chunked other]
  exact held.progress_purgeStale (timeout.symm ▸ young)

/-- A transfer of two chunks. -/
def twoChunks : Transfer where
  targetId := ⟨7, 0, 0, 0, 0⟩
  payloadBytes := List.replicate 1025 7
  mimeType := "application/octet-stream"
  description := ""
  chunkSizeBytes := 1024
  transferId := shared

/-- One of its chunks. -/
def oneOfTwo (index : ℕ) : TPCPEnvelope :=
  { zeroByte ⟨2, 0, 0, 0, 0⟩ shared index 2 Nat.two_pos with
    payload := .binary (twoChunks.chunkPayload index 2) }

/-- The second chunk, twice, and then the first one. -/
def outOfOrder : List Arrival :=
  [⟨0, 0, oneOfTwo 1⟩, ⟨1, 1, oneOfTwo 1⟩, ⟨2, 2, oneOfTwo 0⟩]

theorem totalChunks_twoChunks : twoChunks.totalChunks = some 2 := by decide +kernel

theorem chunk_oneOfTwo {index : ℕ} (inside : index < 2) :
    twoChunks.Chunk index 2 (oneOfTwo index) :=
  ⟨totalChunks_twoChunks, inside, rfl, by decide, rfl⟩

theorem interleaved_outOfOrder : Interleaved 60 [twoChunks] outOfOrder where
  distinct := by decide
  nonempty := by decide +kernel
  short := by decide +kernel
  sizes := by decide
  chunks := by
    intro a among
    simp only [outOfOrder, List.mem_cons, List.not_mem_nil, or_false] at among
    rcases among with rfl | rfl | rfl
    · exact ⟨twoChunks, List.mem_singleton.mpr rfl, 1, 2, chunk_oneOfTwo (by decide)⟩
    · exact ⟨twoChunks, List.mem_singleton.mpr rfl, 1, 2, chunk_oneOfTwo (by decide)⟩
    · exact ⟨twoChunks, List.mem_singleton.mpr rfl, 0, 2, chunk_oneOfTwo (by decide)⟩
  clock := by decide +kernel
  inTime := by
    intro t member total count positive
    obtain rfl := List.mem_singleton.mp member
    obtain rfl : total = 2 := by
      exact_mod_cast Option.some.inj (count.symm.trans totalChunks_twoChunks)
    have delivered : deliveriesOf twoChunks.transferId outOfOrder =
        [⟨0, 0, 1⟩, ⟨1, 1, 1⟩, ⟨2, 2, 0⟩] := by rfl
    rw [delivered]
    refine ⟨by decide +kernel, by decide, ?_⟩
    intro before delivery after split
    have early : ([⟨0, 0, 1⟩, ⟨1, 1, 1⟩, ⟨2, 2, 0⟩] : List (Collector.Delivery ℚ)).take
        before.length = before := by
      rw [split, List.take_left]
    have size := congrArg List.length split
    simp only [List.length_append, List.length_cons, List.length_nil] at size
    -- The chunk that completes the transfer is the last, so there are three places to look at.
    obtain none_yet | one | two : before.length = 0 ∨ before.length = 1 ∨ before.length = 2 := by
      omega
    · rw [← early, none_yet]
      decide
    · rw [← early, one]
      decide
    · rw [← early, two]
      decide

/-- The bytes are returned with the third envelope. -/
theorem ingest_interleaved_outOfOrder :
    ∃ t ∈ [twoChunks], ∃ index total, t.Chunk index total (oneOfTwo 0) ∧
      (init 60).returned [⟨0, 0, oneOfTwo 1⟩, ⟨1, 1, oneOfTwo 1⟩] ⟨2, 2, oneOfTwo 0⟩ = .ok
        (if Collector.brought (deliveriesOf t.transferId outOfOrder) = Finset.range total then
          some t.payloadBytes
        else none) := by
  obtain ⟨t, member, index, total, chunk, returned, -⟩ :=
    ingest_interleaved 60 [twoChunks] [⟨0, 0, oneOfTwo 1⟩, ⟨1, 1, oneOfTwo 1⟩] []
      ⟨2, 2, oneOfTwo 0⟩ interleaved_outOfOrder
  exact ⟨t, member, index, total, chunk, returned⟩

end ChunkReassembler

end AgentTelepathy
