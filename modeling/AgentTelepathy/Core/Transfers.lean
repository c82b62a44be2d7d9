import Mathlib.Algebra.Order.Ring.Rat
import AgentTelepathy.Core.Reassembly
import AgentTelepathy.Foundation.Attempts

/-!
# What transfers are made of

Envelopes arrive from any senders, and a reassembler keeps what they carry under the identifiers of
the transfers alone. What it returns for a transfer are the data of chunks that arrived for it since
it was last returned.
-/

namespace AgentTelepathy

open Foundation

/-- An envelope that arrives, with the readings of the clock when it is ingested. -/
structure Arrival where
  now : ℚ
  stamp : ℚ
  envelope : TPCPEnvelope

namespace Arrival

/-- What `ingest` reads. -/
def ingestion (a : Arrival) : Ingestion := .of a.now a.stamp a.envelope

/-- The envelope belongs to a transfer. -/
def For (a : Arrival) (id : UUID) : Prop :=
  ∃ info, a.envelope.chunkInfo = some info ∧ info.transferId = id

/-- The total that the envelope declares. -/
def Declares (a : Arrival) (total : ℕ) : Prop :=
  a.envelope.chunkInfo.map ChunkInfo.totalChunks = some total

/-- Who sent the envelope, and the total that it declares. -/
def Says (a : Arrival) (sender : UUID) (total : ℕ) : Prop :=
  a.envelope.header.senderId = sender ∧
    a.envelope.chunkInfo.map ChunkInfo.totalChunks = some total

/-- The envelope is a chunk of a transfer, with an index in range and some data. -/
def Carries (a : Arrival) (id : UUID) (index : ℕ) (data : Bytes) : Prop :=
  ∃ info text, a.envelope.chunkInfo = some info ∧ info.transferId = id ∧
    info.chunkIndex = index ∧ index < info.totalChunks ∧
    a.envelope.payload.dataBase64? = some text ∧ Base64.decode false text.text = some data

theorem Carries.for_transfer {a : Arrival} {id : UUID} {index : ℕ} {data : Bytes}
    (carries : a.Carries id index data) : a.For id := by
  obtain ⟨info, _, chunked, own, -⟩ := carries
  exact ⟨info, chunked, own⟩

theorem part?_ingestion_iff {a : Arrival} {id : UUID} {index total : ℕ} {data : Bytes} :
    a.ingestion.part? = some ⟨id, index, total, data⟩ ↔
      ∃ info text, a.envelope.chunkInfo = some info ∧ info.transferId = id ∧
        info.chunkIndex = index ∧ info.totalChunks = total ∧
        a.envelope.payload.dataBase64? = some text ∧ Base64.decode false text.text = some data := by
  unfold ingestion Ingestion.part? Ingestion.of
  dsimp only
  constructor
  · intro part
    obtain ⟨info, chunked, rest⟩ := Option.bind_eq_some_iff.mp part
    obtain ⟨bytes, decodes, same⟩ := Option.map_eq_some_iff.mp rest
    obtain ⟨_, present, decoded⟩ := Option.bind_eq_some_iff.mp decodes
    obtain ⟨text, found, rfl⟩ := Option.map_eq_some_iff.mp present
    cases same
    exact ⟨info, text, chunked, rfl, rfl, rfl, found, decoded⟩
  · rintro ⟨info, text, chunked, rfl, rfl, rfl, found, decoded⟩
    rw [chunked, found, Option.bind_some, Option.map_some, Option.bind_some, decoded,
      Option.map_some]

end Arrival

namespace ChunkReassembler

/-- The reassembler after some arrivals. -/
def afterArrivals (r : ChunkReassembler) (arrivals : List Arrival) : ChunkReassembler :=
  arrivals.foldl (fun r a => (r.ingest a.now a.stamp a.envelope).1) r

/-- What is returned for an envelope that arrives after others. -/
def returned (r : ChunkReassembler) (before : List Arrival) (a : Arrival) :
    Except DecodeError (Option Bytes) :=
  ((r.afterArrivals before).ingest a.now a.stamp a.envelope).2

theorem afterArrivals_eq (r : ChunkReassembler) (arrivals : List Arrival) :
    r.afterArrivals arrivals = r.ingestEach (arrivals.map Arrival.ingestion) := by
  rw [afterArrivals, ingestEach, List.foldl_map]
  congr 1
  funext r a
  rw [ingest_eq, Arrival.ingestion]

/-- What is offered to the collector by some arrivals. -/
def offered (arrivals : List Arrival) : List (Offer UUID ℚ Bytes) :=
  arrivals.filterMap fun a => a.ingestion.offer?

theorem offers_map (arrivals : List Arrival) :
    offers (arrivals.map Arrival.ingestion) = offered arrivals := by
  rw [offers, List.filterMap_map]
  rfl

/-- What is returned for an envelope is what the collector returns for the offer. -/
theorem returned_eq_ok_iff {timeoutSeconds : ℚ} {before : List Arrival} {a : Arrival}
    {bytes : Bytes} :
    (init timeoutSeconds).returned before a = .ok (some bytes) ↔
      ∃ offer whole, a.ingestion.offer? = some offer ∧
        Collector.returns timeoutSeconds (offered before) offer = some whole ∧
          whole.flatten = bytes := by
  rw [returned, afterArrivals_eq, ingest_eq, ← Arrival.ingestion, snd_ingestText, offers_map]
  split_ifs with bad
  · constructor
    · intro failed
      cases failed
    · rintro ⟨offer, whole, made, returns, -⟩
      obtain ⟨part, offered, -⟩ := Collector.of_step_eq_some returns
      obtain ⟨-, rfl⟩ := Ingestion.offer?_eq_some_iff.mp made
      exact absurd bad (Ingestion.not_undecodable_of_part offered)
  · rw [Except.ok.injEq, Option.map_eq_some_iff]
    constructor
    · rintro ⟨whole, found, rfl⟩
      obtain ⟨offer, made, returns⟩ := Option.bind_eq_some_iff.mp found
      exact ⟨offer, whole, made, returns, rfl⟩
    · rintro ⟨offer, whole, made, returns, rfl⟩
      exact ⟨whole, Option.bind_eq_some_iff.mpr ⟨offer, made, returns⟩, rfl⟩

/-- With a chunk that is decoded the collector decides what is returned. -/
theorem returned_eq_of_part {timeoutSeconds : ℚ} {a : Arrival} {offer : Offer UUID ℚ Bytes}
    {part : Part UUID Bytes} (before : List Arrival) (made : a.ingestion.offer? = some offer)
    (some_part : offer.part? = some part) : (init timeoutSeconds).returned before a =
      .ok ((Collector.returns timeoutSeconds (offered before) offer).map List.flatten) := by
  obtain ⟨-, rfl⟩ := Ingestion.offer?_eq_some_iff.mp made
  rw [returned, afterArrivals_eq, ingest_eq, ← Arrival.ingestion, snd_ingestText, offers_map,
    if_neg (Ingestion.not_undecodable_of_part some_part), made, Option.bind_some]

theorem offered_append (before after : List Arrival) :
    offered (before ++ after) = offered before ++ offered after := List.filterMap_append

theorem mem_offered_iff {arrivals : List Arrival} {offer : Offer UUID ℚ Bytes} :
    offer ∈ offered arrivals ↔ ∃ a ∈ arrivals, a.ingestion.offer? = some offer :=
  List.mem_filterMap

/-- A split of the offers is one of the arrivals. -/
theorem exists_split {arrivals : List Arrival} {earlier recent : List (Offer UUID ℚ Bytes)}
    (split : offered arrivals = earlier ++ recent) :
    ∃ p q, arrivals = p ++ q ∧ offered p = earlier ∧ offered q = recent :=
  List.filterMap_eq_append_iff.mp split

theorem offered_cons {a : Arrival} {offer : Offer UUID ℚ Bytes} (after : List Arrival)
    (made : a.ingestion.offer? = some offer) : offered (a :: after) = offer :: offered after :=
  List.filterMap_cons_some made

theorem offered_snoc {a : Arrival} {offer : Offer UUID ℚ Bytes} (before : List Arrival)
    (made : a.ingestion.offer? = some offer) :
    offered (before ++ [a]) = offered before ++ [offer] := by
  rw [offered_append, offered_cons [] made]
  rfl

/-- The part that an envelope offers is one of its transfer. -/
theorem id_eq_of_for {a : Arrival} {offer : Offer UUID ℚ Bytes} {part : Part UUID Bytes} {id : UUID}
    (mine : a.For id) (made : a.ingestion.offer? = some offer)
    (some_part : offer.part? = some part) : part.id = id := by
  obtain ⟨-, rfl⟩ := Ingestion.offer?_eq_some_iff.mp made
  obtain ⟨info, chunked, rfl⟩ := mine
  obtain ⟨info', _, chunked', same, -⟩ := Arrival.part?_ingestion_iff.mp some_part
  exact same ▸ congrArg ChunkInfo.transferId (Option.some.inj (chunked'.symm.trans chunked))

/-- Envelopes arrive for a transfer, and none of them completes it. -/
def Incomplete (timeoutSeconds : ℚ) (id : UUID) (earlier recent : List Arrival) : Prop :=
  ∀ before a after, recent = before ++ a :: after → a.For id →
    ∀ bytes, (init timeoutSeconds).returned (earlier ++ before) a ≠ .ok (some bytes)

/-- What is returned for an envelope is put together, in the order of the indices, from the data of
chunks `0` to `n - 1` of its transfer that arrived since the transfer was last returned. If all
envelopes for the transfer since then declare one total, whoever sent them, it is `n` and these
chunks declare it; if all come from one sender, so do these chunks. -/
theorem returned_from_chunks (timeoutSeconds : ℚ) (before : List Arrival) (last : Arrival)
    (bytes : Bytes)
    (whole : (init timeoutSeconds).returned before last = .ok (some bytes)) :
    ∃ id earlier recent, last.For id ∧ before = earlier ++ recent ∧
      Incomplete timeoutSeconds id earlier recent ∧
      ∃ (n : ℕ) (data : ℕ → Bytes) (used : ℕ → Arrival), 1 ≤ n ∧
        bytes = ((List.range n).map data).flatten ∧
        (∀ i < n, used i ∈ recent ++ [last] ∧ (used i).Carries id i (data i)) ∧
        (∀ total, (∀ a ∈ recent ++ [last], a.For id → a.Declares total) →
          n = total ∧ ∀ i < n, (used i).Declares total) ∧
        ∀ sender, (∀ a ∈ recent ++ [last], a.For id → a.envelope.header.senderId = sender) →
          ∀ i < n, (used i).envelope.header.senderId = sender := by
  obtain ⟨offer, contents, made, returns, rfl⟩ := returned_eq_ok_iff.mp whole
  obtain ⟨⟨id, index, n, content⟩, part, positive, earlier, recent, split, silent, data, rfl,
      each⟩ :=
    Collector.exists_offered returns
  obtain ⟨earlier, recent, rfl, rfl, rfl⟩ := exists_split split
  dsimp only at positive silent each
  obtain ⟨-, rfl⟩ := Ingestion.offer?_eq_some_iff.mp made
  obtain ⟨info, _, chunked, own, -, total_eq, -⟩ := Arrival.part?_ingestion_iff.mp part
  -- The part at each index was offered by an arrival since the last whole.
  have carried : ∀ i, ∃ a, i < n → a ∈ recent ++ [last] ∧ a.Carries id i (data i) := by
    intro i
    by_cases small : i < n
    · obtain ⟨offer, member, total, some_part, inside⟩ := each i small
      rw [← offered_snoc recent made] at member
      obtain ⟨a, among, made⟩ := mem_offered_iff.mp member
      obtain ⟨-, rfl⟩ := Ingestion.offer?_eq_some_iff.mp made
      obtain ⟨info, text, chunk⟩ := Arrival.part?_ingestion_iff.mp some_part
      obtain ⟨chunked, own, index_eq, rfl, data⟩ := chunk
      exact ⟨a, fun _ => ⟨among, info, text, chunked, own, index_eq, inside, data⟩⟩
    · exact ⟨last, fun inside => absurd inside small⟩
  choose used carries using carried
  have mine : ∀ i < n, (used i).For id := fun i small => (carries i small).2.for_transfer
  refine ⟨id, earlier, recent, ⟨info, chunked, own⟩, rfl, ?_, n, data, used, positive, rfl, carries,
    ?_, fun sender same i small => same (used i) (carries i small).1 (mine i small)⟩
  -- Nothing was returned between the first chunk that is used and the last one.
  · intro before a after split mine bytes whole
    obtain ⟨offer, contents, made, returns, -⟩ := returned_eq_ok_iff.mp whole
    obtain ⟨part, some_part, -⟩ := Collector.of_step_eq_some returns
    have own := id_eq_of_for mine made some_part
    have parts : offered recent = offered before ++ offer :: offered after := by
      rw [split, offered_append, offered_cons after made]
    have nothing := silent (offered before) offer (offered after) part parts some_part own
    rw [← offered_append, returns] at nothing
    cases nothing
  -- The last envelope declares the number of chunks.
  · intro total same
    have declared := same last (List.mem_append_right _ (List.mem_singleton.mpr rfl))
      ⟨info, chunked, own⟩
    rw [Arrival.Declares, chunked, Option.map_some, total_eq] at declared
    exact ⟨Option.some.inj declared, fun i small =>
      same (used i) (carries i small).1 (mine i small)⟩

/-- A chunk of one zero byte. -/
def zeroByte (sender id : UUID) (index total : ℕ) (positive : 1 ≤ total) : TPCPEnvelope where
  header :=
    { messageId := ⟨9, 0, 0, 0, 0⟩
      timestamp := ⟨2026, 1, 1, 0, 0, 0, 0, by decide⟩
      senderId := sender
      receiverId := ⟨7, 0, 0, 0, 0⟩
      intent := .mediaShare
      ttl := 30
      protocolVersion := "1.0" }
  payload := .binary ⟨⟨"AA==", by decide +kernel⟩, "application/octet-stream", none, none⟩
  signature := none
  ackInfo := none
  chunkInfo := some ⟨index, total, id, positive⟩

/-- A transfer identifier that two senders use. -/
def shared : UUID := ⟨1, 0, 0, 0, 0⟩

/-- The first of two chunks from one sender, then the second of two from another. -/
def twoSenders : List Arrival :=
  [⟨0, 0, zeroByte ⟨2, 0, 0, 0, 0⟩ shared 0 2 Nat.two_pos⟩,
    ⟨1, 1, zeroByte ⟨3, 0, 0, 0, 0⟩ shared 1 2 Nat.two_pos⟩]

/-- The first of three chunks, then the second of two, both from one sender. -/
def twoTotals : List Arrival :=
  [⟨0, 0, zeroByte ⟨2, 0, 0, 0, 0⟩ shared 0 3 (by decide)⟩,
    ⟨1, 1, zeroByte ⟨2, 0, 0, 0, 0⟩ shared 1 2 Nat.two_pos⟩]

/-- The two bytes of two senders are those of the two chunks that both declare. -/
theorem returned_from_two_senders :
    ∃ (data : ℕ → Bytes) (used : ℕ → Arrival), [0, 0] = data 0 ++ data 1 ∧
      ∀ i < 2, used i ∈ twoSenders ∧ (used i).Carries shared i (data i) := by
  obtain ⟨id, earlier, recent, mine, split, -, n, data, used, -, whole, carries, declared, -⟩ :=
    returned_from_chunks 60 [twoSenders[0]] twoSenders[1] [0, 0] (by decide +kernel)
  have among : ∀ a ∈ recent ++ [twoSenders[1]], a ∈ twoSenders := by
    intro a member
    rcases List.mem_append.mp member with before | last
    · have first : a ∈ [twoSenders[0]] := split ▸ List.mem_append_right earlier before
      exact List.mem_singleton.mp first ▸ List.mem_cons_self
    · exact List.mem_cons_of_mem _ last
  have both : ∀ a ∈ twoSenders, a.Declares 2 := by
    intro a member
    rcases List.mem_pair.mp member with rfl | rfl <;> rfl
  obtain ⟨rfl, -⟩ := declared 2 fun a member _ => both a (among a member)
  obtain ⟨info, chunked, rfl⟩ := mine
  cases chunked
  refine ⟨data, used, whole.trans ?_,
    fun i small => ⟨among _ (carries i small).1, (carries i small).2⟩⟩
  exact congrArg (data 0 ++ ·) (List.append_nil _)

/-- Some bytes are the data of chunks `0` to `n - 1` of a transfer from one sender who declares the
total `n`. -/
def OfOneSender (arrivals : List Arrival) (id : UUID) (bytes : Bytes) : Prop :=
  ∃ (n : ℕ) (sender : UUID) (data : ℕ → Bytes), bytes = ((List.range n).map data).flatten ∧
    ∀ i < n, ∃ a ∈ arrivals, a.Says sender n ∧ a.Carries id i (data i)

theorem OfOneSender.exists_chunks {arrivals : List Arrival} {id : UUID} {bytes : Bytes}
    (whole : OfOneSender arrivals id bytes) (nonempty : bytes ≠ []) :
    ∃ n sender, 1 ≤ n ∧ ∀ i < n, ∃ a ∈ arrivals, a.envelope.header.senderId = sender ∧
      a.envelope.chunkInfo.map ChunkInfo.totalChunks = some n ∧
      a.envelope.chunkInfo.map ChunkInfo.chunkIndex = some i := by
  obtain ⟨n, sender, data, rfl, each⟩ := whole
  refine ⟨n, sender, ?_, fun i small => ?_⟩
  · rcases Nat.eq_zero_or_pos n with rfl | positive
    · exact absurd rfl nonempty
    · exact positive
  · obtain ⟨a, among, ⟨sent, declared⟩, info, _, chunked, -, index_eq, -⟩ := each i small
    exact ⟨a, among, sent, declared, by rw [chunked, Option.map_some, index_eq]⟩

/-- Chunks of two senders, or of two totals, are put together. -/
theorem mixed_chunks_returned :
    ((init 60).returned [twoSenders[0]] twoSenders[1] = .ok (some [0, 0]) ∧
      ¬OfOneSender twoSenders shared [0, 0]) ∧
    (init 60).returned [twoTotals[0]] twoTotals[1] = .ok (some [0, 0]) ∧
      ¬OfOneSender twoTotals shared [0, 0] := by
  refine ⟨⟨by decide +kernel, ?_⟩, by decide +kernel, ?_⟩
  · intro whole
    -- The first chunk names a sender that the second one does not have.
    obtain ⟨n, sender, positive, each⟩ := whole.exists_chunks (by decide)
    obtain ⟨a, first, rfl, declared, index_eq⟩ := each 0 positive
    rcases List.mem_pair.mp first with rfl | rfl
    · obtain rfl : 2 = n := Option.some.inj declared
      obtain ⟨b, second, sent, -, index_eq⟩ := each 1 (by decide)
      rcases List.mem_pair.mp second with rfl | rfl
      · exact absurd index_eq (by decide)
      · exact absurd sent (by decide)
    · exact absurd index_eq (by decide)
  · intro whole
    obtain ⟨n, sender, positive, each⟩ := whole.exists_chunks (by decide)
    -- The first chunk declares three chunks, which the second one does not.
    obtain ⟨a, first, -, declared, index_eq⟩ := each 0 positive
    rcases List.mem_pair.mp first with rfl | rfl
    · obtain rfl : 3 = n := Option.some.inj declared
      obtain ⟨b, second, -, declared, index_eq⟩ := each 1 (by decide)
      rcases List.mem_pair.mp second with rfl | rfl
      · exact absurd index_eq (by decide)
      · exact absurd declared (by decide)
    · exact absurd index_eq (by decide)

/-! ### Transfers that are delivered again -/

/-- Every envelope for a transfer is one of its chunks: it declares the total, and has an index in
range and data. -/
def ChunksOf (id : UUID) (total : ℕ) (arrivals : List Arrival) : Prop :=
  ∀ a ∈ arrivals, ∀ info, a.envelope.chunkInfo = some info → info.transferId = id →
    info.totalChunks = total ∧ info.chunkIndex < total ∧
      a.envelope.payload.dataBase64?.isSome = true

/-- When the chunks of a transfer arrive, and their indices. -/
def deliveriesOf (id : UUID) (arrivals : List Arrival) : List (Collector.Delivery ℚ) :=
  arrivals.filterMap fun a => (a.envelope.chunkInfo.filter fun info => info.transferId = id).map
    fun info => ⟨a.now, a.stamp, info.chunkIndex⟩

/-- Nothing is kept for a transfer. -/
def Forgotten (r : ChunkReassembler) (id : UUID) : Prop :=
  id ∉ r.chunks.keys ∧ id ∉ r.receivedIndices.keys ∧ id ∉ r.totalChunks.keys ∧
    id ∉ r.timestamps.keys

/-- The bytes of a transfer are returned at most once, and when they have been, nothing is kept for
it any more. -/
def CompletesOnce (timeoutSeconds : ℚ) (id : UUID) (arrivals : List Arrival) : Prop :=
  ∀ before a after bytes, arrivals = before ++ a :: after → a.For id →
    (init timeoutSeconds).returned before a = .ok (some bytes) →
      (∀ among rest, after = among ++ rest →
        ((init timeoutSeconds).afterArrivals (before ++ a :: among)).Forgotten id) ∧
      ∀ among b rest, after = among ++ b :: rest → b.For id → ∀ bytes,
        (init timeoutSeconds).returned (before ++ a :: among) b ≠ .ok (some bytes)

theorem Represents.forgotten_iff {r : ChunkReassembler} {c : Collector UUID ℚ Bytes} {id : UUID}
    (held : r.Represents c) : r.Forgotten id ↔ c id = none := by
  have totals : id ∈ r.totalChunks.keys ↔ (c id).isSome = true := by
    rw [← Dict.contains_iff, Dict.contains, held.totals]
  unfold Forgotten
  rw [← Dict.get?_eq_none_iff, ← Dict.get?_eq_none_iff, totals, ← Dict.get?_eq_none_iff,
    held.chunks, held.received, held.timestamps]
  cases c id <;> simp

theorem represents_afterArrivals (timeoutSeconds : ℚ) (arrivals : List Arrival) :
    ((init timeoutSeconds).afterArrivals arrivals).Represents
      (Collector.run timeoutSeconds (offered arrivals)) := by
  rw [afterArrivals_eq, ← offers_map]
  exact represents_ingestEach timeoutSeconds (arrivals.map Arrival.ingestion)

/-- An offer among those of some arrivals is that of one of them. -/
theorem exists_split_cons {arrivals : List Arrival} {earlier later : List (Offer UUID ℚ Bytes)}
    {offer : Offer UUID ℚ Bytes} (split : offered arrivals = earlier ++ offer :: later) :
    ∃ before a after, arrivals = before ++ a :: after ∧ offered before = earlier ∧
      a.ingestion.offer? = some offer ∧ offered after = later := by
  obtain ⟨before, rest, rfl, rfl, others⟩ := exists_split split
  obtain ⟨skipped, a, after, rfl, nothing, made, rfl⟩ := List.filterMap_eq_cons_iff.mp others
  refine ⟨before ++ skipped, a, after, (List.append_assoc ..).symm, ?_, made, rfl⟩
  rw [offered_append, offered, offered, List.filterMap_eq_nil_iff.mpr nothing, List.append_nil]

theorem for_of_part {a : Arrival} {offer : Offer UUID ℚ Bytes} {part : Part UUID Bytes}
    (made : a.ingestion.offer? = some offer) (some_part : offer.part? = some part) :
    a.For part.id := by
  obtain ⟨-, rfl⟩ := Ingestion.offer?_eq_some_iff.mp made
  obtain ⟨info, _, chunked, own, -⟩ := Arrival.part?_ingestion_iff.mp some_part
  exact ⟨info, chunked, own⟩

theorem completesOnce_iff_atMostOnce (timeoutSeconds : ℚ) (id : UUID) (arrivals : List Arrival) :
    CompletesOnce timeoutSeconds id arrivals ↔
      Collector.AtMostOnce timeoutSeconds id (offered arrivals) := by
  have forgotten_iff (before : List Arrival) :
      ((init timeoutSeconds).afterArrivals before).Forgotten id ↔
        Collector.run timeoutSeconds (offered before) id = none :=
    (represents_afterArrivals timeoutSeconds before).forgotten_iff
  constructor
  -- Arrivals and the offers they make are split at the same places.
  · rintro once earlier offer later part split some_part rfl some_whole
    obtain ⟨before, a, after, rfl, rfl, made, rfl⟩ := exists_split_cons split
    obtain ⟨whole, returns⟩ := Option.ne_none_iff_exists'.mp some_whole
    obtain ⟨forgotten, silent⟩ := once before a after _ rfl (for_of_part made some_part)
      (returned_eq_ok_iff.mpr ⟨offer, whole, made, returns, rfl⟩)
    constructor
    · intro among rest split
      obtain ⟨among, rest, rfl, rfl, rfl⟩ := exists_split split
      rw [← offered_cons among made, ← offered_append, ← forgotten_iff]
      exact forgotten among rest rfl
    · intro among later rest part' split some_part' own
      obtain ⟨among, b, rest, rfl, rfl, made', rfl⟩ := exists_split_cons split
      by_contra some_whole
      obtain ⟨whole, returns⟩ := Option.ne_none_iff_exists'.mp some_whole
      rw [← offered_cons among made, ← offered_append] at returns
      exact silent among b rest rfl (own ▸ for_of_part made' some_part') _
        (returned_eq_ok_iff.mpr ⟨later, whole, made', returns, rfl⟩)
  · rintro once before a after bytes rfl mine whole
    obtain ⟨offer, contents, made, returns, -⟩ := returned_eq_ok_iff.mp whole
    obtain ⟨part, some_part, -⟩ := Collector.of_step_eq_some returns
    have own := id_eq_of_for mine made some_part
    obtain ⟨forgotten, silent⟩ := once (offered before) offer (offered after) part
      (by rw [offered_append, offered_cons after made]) some_part own (by simp [returns])
    constructor
    · rintro among rest rfl
      rw [forgotten_iff, offered_append, offered_cons among made]
      exact forgotten (offered among) (offered rest) (offered_append ..)
    · rintro among b rest rfl mine' bytes whole'
      obtain ⟨later, contents', made', returns', -⟩ := returned_eq_ok_iff.mp whole'
      obtain ⟨part', some_part', -⟩ := Collector.of_step_eq_some returns'
      have own' := id_eq_of_for mine' made' some_part'
      have nothing := silent (offered among) later (offered rest) part'
        (by rw [offered_append, offered_cons rest made']) some_part' own'
      rw [← offered_cons among made, ← offered_append, returns'] at nothing
      cases nothing

/-- The chunks of a transfer are delivered to the collector when they arrive. -/
theorem deliveries_offered {id : UUID} {total : ℕ} {arrivals : List Arrival}
    (chunks : ChunksOf id total arrivals) :
    Collector.deliveries id (offered arrivals) = deliveriesOf id arrivals := by
  rw [Collector.deliveries, offered, List.filterMap_filterMap, deliveriesOf]
  apply List.filterMap_congr
  intro a member
  -- An arrival without chunk info makes no offer, and one of another transfer no delivery.
  cases chunked : a.envelope.chunkInfo with
  | none =>
    have silent : a.ingestion.offer? = none := by
      rw [Ingestion.offer?, Arrival.ingestion, Ingestion.of, chunked, Option.map_none]
    rw [silent]
    rfl
  | some info =>
    have made : a.ingestion.offer? = some ⟨a.now, a.stamp, a.ingestion.part?⟩ := by
      rw [Ingestion.offer?, Arrival.ingestion, Ingestion.of, chunked, Option.map_some]
    rw [made, Option.bind_some, Option.filter_some]
    by_cases own : info.transferId = id
    · obtain ⟨-, -, present⟩ := chunks a member info chunked own
      obtain ⟨text, data⟩ := Option.isSome_iff_exists.mp present
      obtain ⟨bytes, decodes⟩ := Option.isSome_iff_exists.mp text.decodes
      have some_part := Arrival.part?_ingestion_iff.mpr
        ⟨info, text, chunked, own, rfl, rfl, data, Base64.decode_of_strict decodes⟩
      rw [if_pos (decide_eq_true own), Option.map_some]
      rw [Collector.delivery?, some_part, Option.filter_some, if_pos (decide_eq_true rfl),
        Option.map_some]
    · rw [if_neg (mt of_decide_eq_true own), Option.map_none, Collector.delivery?_eq_none_iff]
      intro part some_part same
      exact own (same ▸ (id_eq_of_for ⟨info, chunked, rfl⟩ made some_part).symm)

theorem steady_offered {id : UUID} {total : ℕ} {arrivals : List Arrival}
    (chunks : ChunksOf id total arrivals) : Collector.Steady id total (offered arrivals) := by
  intro offer member part some_part own
  obtain ⟨a, among, made⟩ := mem_offered_iff.mp member
  obtain ⟨-, rfl⟩ := Ingestion.offer?_eq_some_iff.mp made
  obtain ⟨info, _, chunked, same, index_eq, total_eq, -⟩ := Arrival.part?_ingestion_iff.mp some_part
  obtain ⟨rfl, inside, -⟩ := chunks a among info chunked (same.trans own)
  exact ⟨total_eq.symm, index_eq ▸ inside⟩

theorem ordered_offered {arrivals : List Arrival}
    (clock : arrivals.Pairwise fun a b => a.now ≤ b.now) :
    (offered arrivals).Pairwise fun a b => a.now ≤ b.now := by
  rw [offered, List.pairwise_filterMap]
  refine clock.imp fun order offer made offer' made' => ?_
  obtain ⟨-, rfl⟩ := Ingestion.offer?_eq_some_iff.mp made
  obtain ⟨-, rfl⟩ := Ingestion.offer?_eq_some_iff.mp made'
  exact order

/-- The bytes of a transfer are returned at most once, and then nothing is kept for it, exactly if
no chunk of it arrives after an attempt has brought all its chunks. -/
theorem completesOnce_iff (timeoutSeconds : ℚ) (id : UUID) (total : ℕ) (positive : 1 ≤ total)
    (arrivals : List Arrival) (chunks : ChunksOf id total arrivals)
    (clock : arrivals.Pairwise fun a b => a.now ≤ b.now) :
    CompletesOnce timeoutSeconds id arrivals ↔
      Collector.NothingAfter timeoutSeconds total (deliveriesOf id arrivals) := by
  rw [completesOnce_iff_atMostOnce, ← deliveries_offered chunks]
  exact Collector.atMostOnce_iff positive (steady_offered chunks) (ordered_offered clock)

/-- A transfer of one chunk that arrives twice. -/
def repeated : List Arrival :=
  [⟨0, 0, zeroByte ⟨2, 0, 0, 0, 0⟩ shared 0 1 (by decide)⟩,
    ⟨1, 1, zeroByte ⟨2, 0, 0, 0, 0⟩ shared 0 1 (by decide)⟩]

/-- It is returned twice. -/
theorem not_completesOnce_repeated :
    (init 60).returned [] repeated[0] = .ok (some [0]) ∧
      (init 60).returned [repeated[0]] repeated[1] = .ok (some [0]) ∧
        ¬CompletesOnce 60 shared repeated := by
  have first : (init 60).returned [] repeated[0] = .ok (some [0]) := by decide +kernel
  have second : (init 60).returned [repeated[0]] repeated[1] = .ok (some [0]) := by decide +kernel
  refine ⟨first, second, fun once => ?_⟩
  have silent := (once [] repeated[0] [repeated[1]] [0] rfl ⟨_, rfl, rfl⟩ first).2
  exact silent [] repeated[1] [] rfl ⟨_, rfl, rfl⟩ [0] second

/-- A transfer of two chunks: the second comes first, and comes again before the other. -/
def duplicated : List Arrival :=
  [⟨0, 0, zeroByte ⟨2, 0, 0, 0, 0⟩ shared 1 2 Nat.two_pos⟩,
    ⟨1, 1, zeroByte ⟨2, 0, 0, 0, 0⟩ shared 1 2 Nat.two_pos⟩,
    ⟨2, 2, zeroByte ⟨2, 0, 0, 0, 0⟩ shared 0 2 Nat.two_pos⟩]

theorem chunksOf_duplicated : ChunksOf shared 2 duplicated := by
  intro a member info chunked own
  simp only [duplicated, List.mem_cons, List.not_mem_nil, or_false] at member
  rcases member with rfl | rfl | rfl
  all_goals
    cases chunked
    exact ⟨rfl, by decide, rfl⟩

/-- The transfer is returned once, with the last of its chunks. -/
theorem completesOnce_duplicated :
    (init 60).returned (duplicated.take 2) duplicated[2] = .ok (some [0, 0]) ∧
      CompletesOnce 60 shared duplicated := by
  refine ⟨by decide +kernel, (completesOnce_iff 60 shared 2 (by decide) duplicated
    chunksOf_duplicated (by decide)).mpr ?_⟩
  intro before delivery after split
  -- An attempt that has brought less than all three envelopes has not brought both indices.
  obtain _ | ⟨_, _ | ⟨_, _ | ⟨_, before⟩⟩⟩ := before
  · decide +kernel
  · cases split
    decide +kernel
  · cases split
    decide +kernel
  · cases before <;> cases split

end ChunkReassembler

end AgentTelepathy
