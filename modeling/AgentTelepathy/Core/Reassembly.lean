import AgentTelepathy.Core.Reassembler
import AgentTelepathy.Foundation.Collector

/-!
# The reassembler as a collector

The four dictionaries of a `ChunkReassembler` hold one collector: the transfers of which something
was received, each with its chunks and its timestamp. What `ingest` does to them is what an offer
does to the collector.
-/

namespace AgentTelepathy

open Foundation

/-- What `ingest` reads of an envelope, and of the clock: to purge, and for a new transfer. -/
structure Ingestion where
  now : ℚ
  stamp : ℚ
  chunkInfo : Option ChunkInfo
  dataBase64 : Option String

namespace Ingestion

/-- An envelope at some readings of the clock. -/
def of (now stamp : ℚ) (e : TPCPEnvelope) : Ingestion :=
  ⟨now, stamp, e.chunkInfo, e.payload.dataBase64?.map Base64Data.text⟩

/-- There is a chunk whose data cannot be decoded. -/
def Undecodable (g : Ingestion) : Prop :=
  g.chunkInfo.isSome = true ∧ g.dataBase64.map (Base64.decode false) = some none

instance (g : Ingestion) : Decidable g.Undecodable := inferInstanceAs (Decidable (_ ∧ _))

/-- The chunk of an envelope that has one. -/
def part? (g : Ingestion) : Option (Part UUID Bytes) :=
  g.chunkInfo.bind fun info => (g.dataBase64.bind (Base64.decode false)).map fun chunkBytes =>
    ⟨info.transferId, info.chunkIndex, info.totalChunks, chunkBytes⟩

/-- What is offered to the collector; nothing without chunk metadata. -/
def offer? (g : Ingestion) : Option (Offer UUID ℚ Bytes) :=
  g.chunkInfo.map fun _ => ⟨g.now, g.stamp, g.part?⟩

variable {g : Ingestion} {part : Part UUID Bytes} {offer : Offer UUID ℚ Bytes}

theorem not_undecodable_of_part (offered : g.part? = some part) : ¬g.Undecodable := by
  intro bad
  obtain ⟨_, _, rest⟩ := Option.bind_eq_some_iff.mp offered
  obtain ⟨_, decodes, -⟩ := Option.map_eq_some_iff.mp rest
  obtain ⟨text, data, decoded⟩ := Option.bind_eq_some_iff.mp decodes
  have failed := bad.2
  rw [data, Option.map_some, decoded] at failed
  cases failed

theorem offer?_eq_some_iff : g.offer? = some offer ↔
    g.chunkInfo.isSome = true ∧ offer = ⟨g.now, g.stamp, g.part?⟩ := by
  rw [offer?, Option.map_eq_some_iff, Option.isSome_iff_exists]
  constructor
  · rintro ⟨info, chunked, rfl⟩
    exact ⟨⟨info, chunked⟩, rfl⟩
  · rintro ⟨⟨info, chunked⟩, rfl⟩
    exact ⟨info, chunked, rfl⟩

end Ingestion

namespace ChunkReassembler

variable {r : ChunkReassembler} {c : Collector UUID ℚ Bytes} {g : Ingestion}

/-- The look-up `_received_indices[transfer_id]`, which makes an entry where there is none. -/
def lookUp (r : ChunkReassembler) (id : UUID) : ChunkReassembler × Finset ℕ :=
  match r.receivedIndices.get? id with
  | some received => (r, received)
  | none => ({ r with receivedIndices := r.receivedIndices.set id ∅ }, ∅)

/-- `ingest`, for data of any text. -/
def ingestText (r : ChunkReassembler) (g : Ingestion) :
    ChunkReassembler × Except DecodeError (Option Bytes) :=
  match g.chunkInfo with
  | none => (r, .ok none)
  | some info =>
    let r := r.purgeStale g.now
    match g.dataBase64 with
    | none => (r, .ok none)
    | some text =>
      match Base64.decode false text with
      | none => (r, .error ⟨⟩)
      | some chunkBytes =>
        if info.totalChunks ≤ info.chunkIndex then (r, .ok none)
        else
          let (r, received) := r.lookUp info.transferId
          if info.chunkIndex ∈ received then (r, .ok none)
          else
            let r := r.add g.stamp info chunkBytes
            let (r, received) := r.lookUp info.transferId
            if received = Finset.range info.totalChunks then
              let (r, bytes) := r.reassemble info.transferId
              (r, .ok (some bytes))
            else (r, .ok none)

/-- The reassembler after some calls. -/
def ingestEach (r : ChunkReassembler) (calls : List Ingestion) : ChunkReassembler :=
  calls.foldl (fun r g => (r.ingestText g).1) r

/-! ### Look-ups leave no empty entry behind -/

theorem lookUp_snd (r : ChunkReassembler) (id : UUID) :
    (r.lookUp id).2 = (r.receivedIndices.get? id).getD ∅ := by
  unfold lookUp
  cases r.receivedIndices.get? id <;> rfl

theorem lookUp_of_mem {id : UUID} {i : ℕ} (member : i ∈ (r.lookUp id).2) : (r.lookUp id).1 = r := by
  unfold lookUp at member ⊢
  cases found : r.receivedIndices.get? id with
  | none =>
    rw [found] at member
    exact absurd member (Finset.notMem_empty i)
  | some received => rfl

/-- An entry that the look-up makes is overwritten when the chunk is stored. -/
theorem add_lookUp (r : ChunkReassembler) (stamp : ℚ) (info : ChunkInfo) (chunkBytes : Bytes) :
    (r.lookUp info.transferId).1.add stamp info chunkBytes = r.add stamp info chunkBytes := by
  unfold lookUp
  cases found : r.receivedIndices.get? info.transferId with
  | some received => rfl
  | none =>
    dsimp only [add]
    rw [Dict.get?_set_self, Dict.set_set, found]
    rfl

/-- After a chunk was stored there is an entry. -/
theorem lookUp_add (r : ChunkReassembler) (stamp : ℚ) (info : ChunkInfo) (chunkBytes : Bytes) :
    ((r.add stamp info chunkBytes).lookUp info.transferId).1 = r.add stamp info chunkBytes := by
  have found : (r.add stamp info chunkBytes).receivedIndices.get? info.transferId =
      some (insert info.chunkIndex ((r.receivedIndices.get? info.transferId).getD ∅)) :=
    Dict.get?_set_self ..
  rw [lookUp, found]

/-- What `ingest` does with a chunk, without the look-ups. -/
theorem ingestText_of_chunk {info : ChunkInfo} {text : String} {chunkBytes : Bytes}
    (chunked : g.chunkInfo = some info) (data : g.dataBase64 = some text)
    (decoded : Base64.decode false text = some chunkBytes) :
    r.ingestText g =
      let r := r.purgeStale g.now
      if info.totalChunks ≤ info.chunkIndex then (r, .ok none)
      else if info.chunkIndex ∈ (r.receivedIndices.get? info.transferId).getD ∅ then (r, .ok none)
      else
        let r := r.add g.stamp info chunkBytes
        if (r.receivedIndices.get? info.transferId).getD ∅ = Finset.range info.totalChunks then
          let (r, bytes) := r.reassemble info.transferId
          (r, .ok (some bytes))
        else (r, .ok none) := by
  unfold ingestText
  simp only [chunked, data, decoded, add_lookUp, lookUp_add, lookUp_snd]
  split_ifs with beyond twice
  · rfl
  · rw [lookUp_of_mem (by rwa [lookUp_snd])]
  · rfl
  · rfl

/-- What `ingest` does depends on the metadata and the data of the envelope. -/
theorem ingest_eq (r : ChunkReassembler) (now stamp : ℚ) (e : TPCPEnvelope) :
    r.ingest now stamp e = r.ingestText (.of now stamp e) := by
  cases chunked : e.chunkInfo with
  | none => simp only [ingest, ingestText, Ingestion.of, chunked]
  | some info =>
    cases data : e.payload.dataBase64? with
    | none => simp only [ingest, ingestText, Ingestion.of, chunked, data, Option.map_none]
    | some data64 =>
      cases decoded : Base64.decode false data64.text with
      | none => simp only [ingest, ingestText, Ingestion.of, chunked, data, decoded,
          Option.map_some]
      | some chunkBytes =>
        rw [ingestText_of_chunk (g := .of now stamp e) chunked
          (by rw [Ingestion.of, data, Option.map_some]) decoded]
        simp only [ingest, chunked, data, decoded]
        rfl

/-- The dictionaries hold a collector. -/
structure Represents (r : ChunkReassembler) (c : Collector UUID ℚ Bytes) : Prop where
  chunks : ∀ id, r.chunks.get? id = (c id).map Pending.parts
  received : ∀ id, r.receivedIndices.get? id = (c id).map fun p => Collector.indices p.parts
  timestamps : ∀ id, r.timestamps.get? id = (c id).map Pending.since
  totals : ∀ id, (r.totalChunks.get? id).isSome = (c id).isSome

theorem represents_init (timeoutSeconds : ℚ) : (init timeoutSeconds).Represents fun _ => none :=
  ⟨fun _ => rfl, fun _ => rfl, fun _ => rfl, fun _ => rfl⟩

theorem Represents.getD_received (held : r.Represents c) (id : UUID) :
    (r.receivedIndices.get? id).getD ∅ = Collector.indices (c.collected id) := by
  rw [held.received, Collector.collected]
  cases c id <;> rfl

theorem Represents.getD_chunks (held : r.Represents c) (id : UUID) :
    (r.chunks.get? id).getD [] = c.collected id := by
  rw [held.chunks, Collector.collected]

/-- Forgetting transfers. -/
theorem Represents.forget (held : r.Represents c) (transfers : List UUID) :
    (r.forget transfers).Represents fun id => if id ∈ transfers then none else c id := by
  constructor <;> intro id <;> dsimp only [ChunkReassembler.forget] <;>
    rw [Dict.get?_eraseAll] <;> split_ifs
  · rfl
  · exact held.chunks id
  · rfl
  · exact held.received id
  · rfl
  · exact held.timestamps id
  · rfl
  · exact held.totals id

/-- The transfers that `_purge_stale` drops. -/
theorem Represents.mem_stale_iff (held : r.Represents c) (now : ℚ) (id : UUID) :
    id ∈ (r.timestamps.items.filter fun entry => r.timeoutSeconds < now - entry.2).map Prod.fst ↔
      ∃ pending, c id = some pending ∧ r.timeoutSeconds < now - pending.since := by
  have stamped (id : UUID) (since : ℚ) : (id, since) ∈ r.timestamps.items ↔
      ∃ pending, c id = some pending ∧ pending.since = since := by
    rw [← Dict.get?_eq_some_iff, held.timestamps, Option.map_eq_some_iff]
  constructor
  · intro member
    obtain ⟨⟨_, since⟩, kept, rfl⟩ := List.mem_map.mp member
    obtain ⟨present, late⟩ := List.mem_filter.mp kept
    obtain ⟨pending, found, rfl⟩ := (stamped _ _).mp present
    exact ⟨pending, found, of_decide_eq_true late⟩
  · rintro ⟨pending, found, late⟩
    have present := (stamped id pending.since).mpr ⟨pending, found, rfl⟩
    exact List.mem_map.mpr ⟨_, List.mem_filter.mpr ⟨present, decide_eq_true late⟩, rfl⟩

/-- `_purge_stale` forgets the old transfers. -/
theorem Represents.purgeStale (held : r.Represents c) (now : ℚ) :
    (r.purgeStale now).Represents (c.expire r.timeoutSeconds now) := by
  have same : c.expire r.timeoutSeconds now = fun id =>
      if id ∈ (r.timestamps.items.filter fun entry =>
        r.timeoutSeconds < now - entry.2).map Prod.fst then none else c id := by
    funext id
    have stale := held.mem_stale_iff now id
    rw [Collector.expire]
    cases kept : c id with
    | none =>
      rw [kept] at stale
      rw [if_neg fun member => by simpa using stale.mp member]
      rfl
    | some pending =>
      simp only [kept, Option.some.injEq, exists_eq_left'] at stale
      by_cases late : r.timeoutSeconds < now - pending.since
      · rw [if_pos (stale.mpr late), Option.filter_some,
          if_neg fun near => not_le.mpr late (of_decide_eq_true near)]
      · rw [if_neg fun member => late (stale.mp member), Option.filter_some,
          if_pos (decide_eq_true (not_lt.mp late))]
  rw [same]
  exact held.forget _

/-- What storing a chunk does to the collector. -/
theorem Represents.add (held : r.Represents c) (stamp : ℚ) (info : ChunkInfo) (chunkBytes : Bytes) :
    (r.add stamp info chunkBytes).Represents (Function.update c info.transferId
      (some ⟨c.since info.transferId stamp,
        c.grown ⟨info.transferId, info.chunkIndex, info.totalChunks, chunkBytes⟩⟩)) := by
  have stamped : r.timestamps.contains info.transferId = (c info.transferId).isSome := by
    rw [Dict.contains, held.timestamps, Option.isSome_map]
  constructor
  · intro id
    dsimp only [ChunkReassembler.add]
    rw [Dict.get?_set, held.getD_chunks, Function.update_apply]
    split_ifs
    · rfl
    · exact held.chunks id
  · intro id
    dsimp only [ChunkReassembler.add]
    rw [Dict.get?_set, held.getD_received, Function.update_apply]
    split_ifs
    · rw [Option.map_some, Collector.indices_grown]
    · exact held.received id
  -- The first chunk of a transfer sets its timestamp and its total, a later one keeps them.
  · intro id
    dsimp only [ChunkReassembler.add]
    rw [stamped, Function.update_apply]
    cases kept : c info.transferId with
    | none =>
      rw [Option.isSome_none, Bool.not_false, if_pos rfl, Dict.get?_set]
      split_ifs
      · rw [Option.map_some, Collector.since, kept]
        rfl
      · exact held.timestamps id
    | some pending =>
      rw [Option.isSome_some, Bool.not_true, if_neg Bool.false_ne_true]
      split_ifs with same
      · rw [held.timestamps, same, kept, Option.map_some, Option.map_some, Collector.since, kept]
        rfl
      · exact held.timestamps id
  · intro id
    dsimp only [ChunkReassembler.add]
    rw [stamped, Function.update_apply]
    cases kept : c info.transferId with
    | none =>
      rw [Option.isSome_none, Bool.not_false, if_pos rfl, Dict.get?_set]
      split_ifs
      · rfl
      · exact held.totals id
    | some pending =>
      rw [Option.isSome_some, Bool.not_true, if_neg Bool.false_ne_true]
      split_ifs with same
      · rw [held.totals, same, kept]
        rfl
      · exact held.totals id

/-- Storing the last chunk of a transfer and reassembling it forgets it. -/
theorem Represents.reassemble_add (held : r.Represents c) (stamp : ℚ) (info : ChunkInfo)
    (chunkBytes : Bytes) :
    (((r.add stamp info chunkBytes).reassemble info.transferId).1.Represents
        (Function.update c info.transferId none)) ∧
      ((r.add stamp info chunkBytes).reassemble info.transferId).2 = (Collector.contents
        (c.grown ⟨info.transferId, info.chunkIndex, info.totalChunks, chunkBytes⟩)).flatten := by
  have stored := held.add stamp info chunkBytes
  constructor
  · have forgotten := stored.forget [info.transferId]
    have same : (fun id => if id ∈ [info.transferId] then none else
        Function.update c info.transferId (some ⟨c.since info.transferId stamp,
          c.grown ⟨info.transferId, info.chunkIndex, info.totalChunks, chunkBytes⟩⟩) id) =
        Function.update c info.transferId none := by
      funext id
      by_cases own : id = info.transferId
      · rw [if_pos (List.mem_singleton.mpr own), own, Function.update_self]
      · rw [if_neg (mt List.mem_singleton.mp own), Function.update_of_ne own,
          Function.update_of_ne own]
    rwa [same] at forgotten
  · rw [reassemble, stored.getD_chunks, Collector.collected_update_self]
    rfl

/-- What `ingest` does with a chunk that is decoded. -/
theorem Represents.ingestText_of_part (held : r.Represents c) {part : Part UUID Bytes}
    (offered : g.part? = some part) :
    (r.ingestText g).1.Represents
        (Collector.step r.timeoutSeconds c ⟨g.now, g.stamp, some part⟩).1 ∧
      (r.ingestText g).2 = .ok
        ((Collector.step r.timeoutSeconds c ⟨g.now, g.stamp, some part⟩).2.map List.flatten) := by
  obtain ⟨info, chunked, rest⟩ := Option.bind_eq_some_iff.mp offered
  obtain ⟨chunkBytes, decodes, rfl⟩ := Option.map_eq_some_iff.mp rest
  obtain ⟨text, data, decoded⟩ := Option.bind_eq_some_iff.mp decodes
  have purged := held.purgeStale g.now
  rw [ingestText_of_chunk chunked data decoded]
  dsimp only [Collector.step]
  generalize c.expire r.timeoutSeconds g.now = kept at purged ⊢
  have stored := purged.add g.stamp info chunkBytes
  rw [purged.getD_received, stored.getD_received, Collector.collected_update_self]
  dsimp only
  -- The early returns of the source in its order: out of range, a duplicate, not yet complete.
  by_cases beyond : info.totalChunks ≤ info.chunkIndex
  · have unfit : ¬kept.Fits ⟨info.transferId, info.chunkIndex, info.totalChunks, chunkBytes⟩ :=
      fun fits => not_le.mpr fits.1 beyond
    rw [if_pos beyond, Collector.place_of_not_fits unfit]
    exact ⟨purged, rfl⟩
  rw [if_neg beyond]
  by_cases twice : info.chunkIndex ∈ Collector.indices (kept.collected info.transferId)
  · have unfit : ¬kept.Fits ⟨info.transferId, info.chunkIndex, info.totalChunks, chunkBytes⟩ :=
      fun fits => fits.2 twice
    rw [if_pos twice, Collector.place_of_not_fits unfit]
    exact ⟨purged, rfl⟩
  rw [if_neg twice]
  have fits : kept.Fits ⟨info.transferId, info.chunkIndex, info.totalChunks, chunkBytes⟩ :=
    ⟨not_le.mp beyond, twice⟩
  by_cases complete : Collector.indices
      (kept.grown ⟨info.transferId, info.chunkIndex, info.totalChunks, chunkBytes⟩) =
        Finset.range info.totalChunks
  · have whole := purged.reassemble_add g.stamp info chunkBytes
    rw [Collector.place_of_complete fits complete, if_pos complete, Option.map_some, ← whole.2]
    exact ⟨whole.1, rfl⟩
  · rw [Collector.place_of_incomplete fits complete, if_neg complete]
    exact ⟨stored, rfl⟩

/-- What `ingest` does to the collector, and returns. -/
theorem Represents.ingestText (held : r.Represents c) (g : Ingestion) :
    (r.ingestText g).1.Represents
        (g.offer?.elim c fun offer => (Collector.step r.timeoutSeconds c offer).1) ∧
      (r.ingestText g).2 = if g.Undecodable then .error ⟨⟩ else .ok ((g.offer?.bind fun offer =>
        (Collector.step r.timeoutSeconds c offer).2).map List.flatten) := by
  cases chunked : g.chunkInfo with
  | none =>
    have fine : ¬g.Undecodable := fun bad => by
      have present := bad.1
      rw [chunked] at present
      cases present
    rw [Ingestion.offer?, chunked, if_neg fine, ChunkReassembler.ingestText, chunked]
    exact ⟨held, rfl⟩
  | some info =>
    have purged := held.purgeStale g.now
    rw [Ingestion.offer?, chunked, Option.map_some, Option.elim_some, Option.bind_some]
    -- With a chunk info only undecodable data raises; without data nothing is stored.
    cases offered : g.part? with
    | some part =>
      rw [if_neg (Ingestion.not_undecodable_of_part offered)]
      exact held.ingestText_of_part offered
    | none =>
      cases data : g.dataBase64 with
      | none =>
        have fine : ¬g.Undecodable := fun bad => by
          have failed := bad.2
          rw [data] at failed
          cases failed
        rw [if_neg fine, ChunkReassembler.ingestText, chunked, data]
        exact ⟨purged, rfl⟩
      | some text =>
        cases decoded : Base64.decode false text with
        | none =>
          have bad : g.Undecodable :=
            ⟨by rw [chunked]; rfl, by rw [data, Option.map_some, decoded]⟩
          rw [if_pos bad]
          simp only [ChunkReassembler.ingestText, chunked, data, decoded, and_true]
          exact purged
        | some chunkBytes =>
          rw [Ingestion.part?, chunked, data, Option.bind_some, Option.bind_some,
            decoded] at offered
          cases offered

/-- What is offered to the collector in some calls. -/
def offers (calls : List Ingestion) : List (Offer UUID ℚ Bytes) :=
  calls.filterMap Ingestion.offer?

theorem ingestEach_snoc (r : ChunkReassembler) (calls : List Ingestion) (g : Ingestion) :
    r.ingestEach (calls ++ [g]) = ((r.ingestEach calls).ingestText g).1 := by
  rw [ingestEach, List.foldl_append]
  rfl

theorem timeoutSeconds_ingestText (r : ChunkReassembler) (g : Ingestion) :
    (r.ingestText g).1.timeoutSeconds = r.timeoutSeconds := by
  cases chunked : g.chunkInfo with
  | none => rw [ingestText, chunked]
  | some info =>
    cases data : g.dataBase64 with
    | none =>
      rw [ingestText, chunked, data]
      rfl
    | some text =>
      cases decoded : Base64.decode false text with
      | none =>
        simp only [ingestText, chunked, data, decoded]
        rfl
      | some chunkBytes =>
        rw [ingestText_of_chunk chunked data decoded]
        dsimp only
        split_ifs <;> rfl

theorem timeoutSeconds_ingestEach (r : ChunkReassembler) (calls : List Ingestion) :
    (r.ingestEach calls).timeoutSeconds = r.timeoutSeconds := by
  induction calls using List.reverseRecOn with
  | nil => rfl
  | append_singleton calls g ih => rw [ingestEach_snoc, timeoutSeconds_ingestText, ih]

theorem offers_snoc (calls : List Ingestion) (g : Ingestion) :
    offers (calls ++ [g]) = offers calls ++ g.offer?.toList := by
  rw [offers, List.filterMap_append]
  cases offered : g.offer? with
  | none => rw [List.filterMap_cons_none offered]; rfl
  | some offer => rw [List.filterMap_cons_some offered]; rfl

/-- After any calls the dictionaries hold what the collector has after the offers. -/
theorem represents_ingestEach (timeoutSeconds : ℚ) (calls : List Ingestion) :
    ((init timeoutSeconds).ingestEach calls).Represents
      (Collector.run timeoutSeconds (offers calls)) := by
  induction calls using List.reverseRecOn with
  | nil => exact represents_init timeoutSeconds
  | append_singleton calls g ih =>
    have step := (ih.ingestText g).1
    rw [timeoutSeconds_ingestEach] at step
    rw [ingestEach_snoc, offers_snoc]
    cases offered : g.offer? with
    | none =>
      rw [offered] at step
      rwa [Option.toList_none, List.append_nil]
    | some offer =>
      rw [offered] at step
      rwa [Option.toList_some, Collector.run_snoc]

/-- What a call returns after others. -/
theorem snd_ingestText (timeoutSeconds : ℚ) (calls : List Ingestion) (g : Ingestion) :
    (((init timeoutSeconds).ingestEach calls).ingestText g).2 =
      if g.Undecodable then .error ⟨⟩
      else .ok ((g.offer?.bind (Collector.returns timeoutSeconds (offers calls))).map
        List.flatten) := by
  have step := ((represents_ingestEach timeoutSeconds calls).ingestText g).2
  rw [timeoutSeconds_ingestEach] at step
  exact step

/-! ### Bookkeeping -/

/-- The dictionaries have the same keys, and the received indices of a transfer are those of its
chunks, at least one and none twice. -/
structure Consistent (r : ChunkReassembler) : Prop where
  received : ∀ id, id ∈ r.receivedIndices.keys ↔ id ∈ r.chunks.keys
  totals : ∀ id, id ∈ r.totalChunks.keys ↔ id ∈ r.chunks.keys
  timestamps : ∀ id, id ∈ r.timestamps.keys ↔ id ∈ r.chunks.keys
  indices : ∀ id chunks received, r.chunks.get? id = some chunks →
    r.receivedIndices.get? id = some received →
      received.Nonempty ∧ received = (chunks.map Prod.fst).toFinset ∧ (chunks.map Prod.fst).Nodup

theorem Represents.consistent (held : r.Represents c) (sound : c.Sound) : r.Consistent := by
  have keys (id : UUID) : id ∈ r.chunks.keys ↔ (c id).isSome = true := by
    rw [← Dict.contains_iff, Dict.contains, held.chunks, Option.isSome_map]
  constructor
  · intro id
    rw [keys, ← Dict.contains_iff, Dict.contains, held.received, Option.isSome_map]
  · intro id
    rw [keys, ← Dict.contains_iff, Dict.contains, held.totals]
  · intro id
    rw [keys, ← Dict.contains_iff, Dict.contains, held.timestamps, Option.isSome_map]
  · intro id chunks received stored indexed
    rw [held.chunks, Option.map_eq_some_iff] at stored
    obtain ⟨pending, kept, rfl⟩ := stored
    rw [held.received, kept] at indexed
    obtain rfl : Collector.indices pending.parts = received := Option.some.inj indexed
    obtain ⟨nonempty, nodup⟩ := sound id pending kept
    refine ⟨?_, rfl, nodup⟩
    obtain ⟨part, member⟩ := List.exists_mem_of_ne_nil _ nonempty
    exact ⟨part.1, List.mem_toFinset.mpr (List.mem_map_of_mem member)⟩

/-- After any calls the bookkeeping is consistent. Right after a call for an envelope with chunk
metadata every transfer that is kept was not too old when the call looked for old ones, or is one
whose first chunk the call stored. -/
theorem bookkeeping (timeoutSeconds : ℚ) (calls : List Ingestion) :
    ((init timeoutSeconds).ingestEach calls).Consistent ∧
      ∀ g : Ingestion, g.chunkInfo.isSome = true → ∀ id since,
        (((init timeoutSeconds).ingestEach calls).ingestText g).1.timestamps.get? id = some since →
          g.now - since ≤ timeoutSeconds ∨
            since = g.stamp ∧
              id ∉ (((init timeoutSeconds).ingestEach calls).purgeStale g.now).timestamps.keys ∧
              ∃ info, g.chunkInfo = some info ∧ info.transferId = id := by
  have held := represents_ingestEach timeoutSeconds calls
  refine ⟨held.consistent (Collector.sound_run _ _), ?_⟩
  intro g present id since kept
  obtain ⟨info, chunked⟩ := Option.isSome_iff_exists.mp present
  have purged := held.purgeStale g.now
  have step := (held.ingestText g).1
  rw [timeoutSeconds_ingestEach] at purged step
  change _ - since ≤ timeoutSeconds ∨ _
  rw [Ingestion.offer?, chunked, Option.map_some] at step
  rw [step.timestamps, Option.map_eq_some_iff] at kept
  obtain ⟨pending, kept, rfl⟩ := kept
  -- A transfer that is still kept is young, or was begun by this very chunk.
  rcases Collector.young_of_step kept with young | ⟨fresh, absent, part, offered, rfl⟩
  · exact .inl young
  · refine .inr ⟨fresh, ?_, info, chunked, ?_⟩
    · rw [← Dict.get?_eq_none_iff, purged.timestamps, absent]
      rfl
    · change g.part? = some part at offered
      obtain ⟨_, chunked', rest⟩ := Option.bind_eq_some_iff.mp offered
      obtain ⟨_, -, rfl⟩ := Option.map_eq_some_iff.mp rest
      exact Option.some.inj (chunked.symm.trans chunked') ▸ rfl

/-- The first of two chunks. -/
def firstOfTwo (id : UUID) : ChunkInfo := ⟨0, 2, id, Nat.two_pos⟩

/-- A transfer that began ten seconds ago is kept when a chunk of another one arrives. -/
theorem bookkeeping_young :
    let mine : UUID := ⟨1, 0, 0, 0, 0⟩
    let before := (init 60).ingestEach [⟨0, 0, some (firstOfTwo mine), some "AA=="⟩]
    (before.ingestText ⟨10, 10, some (firstOfTwo ⟨2, 0, 0, 0, 0⟩), some "AA=="⟩).1.timestamps.get?
        mine = some 0 ∧
      ((10 : ℚ) - 0 ≤ 60 ∨ (0 : ℚ) = 10 ∧
        mine ∉ (before.purgeStale 10).timestamps.keys ∧
          ∃ info, some (firstOfTwo ⟨2, 0, 0, 0, 0⟩) = some info ∧ info.transferId = mine) := by
  have kept : (((init 60).ingestEach [⟨0, 0, some (firstOfTwo ⟨1, 0, 0, 0, 0⟩),
    some "AA=="⟩]).ingestText
      ⟨10, 10, some (firstOfTwo ⟨2, 0, 0, 0, 0⟩), some "AA=="⟩).1.timestamps.get? ⟨1, 0, 0, 0, 0⟩ =
        some 0 := by decide +kernel
  exact ⟨kept, (bookkeeping 60 _).2 _ rfl _ 0 kept⟩

/-- With a negative timeout a transfer is too old from the start; with any timeout the clock goes on
after old transfers are looked for. -/
theorem older_than_timeout :
    let mine : UUID := ⟨1, 0, 0, 0, 0⟩
    let other : UUID := ⟨2, 0, 0, 0, 0⟩
    (((init (-1)).ingestText ⟨0, 0, some (firstOfTwo mine), some "AA=="⟩).1.timestamps.get? mine =
        some 0 ∧ (-1 : ℚ) < 0 - 0) ∧
      (((init 60).ingestEach [⟨0, 0, some (firstOfTwo mine), some "AA=="⟩]).ingestText
        ⟨60, 61, some (firstOfTwo other), some "AA=="⟩).1.timestamps.get? mine = some 0 ∧
          (60 : ℚ) < 61 - 0 := by
  decide +kernel

end ChunkReassembler

end AgentTelepathy
