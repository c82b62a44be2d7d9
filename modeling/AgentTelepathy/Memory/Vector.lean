import AgentTelepathy.Foundation.Cosine
import AgentTelepathy.Foundation.Ieee
import AgentTelepathy.Foundation.Selection
import AgentTelepathy.Schemas.Envelope

/-!
# The vector bank

A bank keeps vectors under the ids of the messages that brought them, each with its
norm. A search compares the query with every vector of a norm other than zero, and
returns those of greatest similarity. It raises at the first vector whose length is
not that of the query.

The bank computes with any numbers, whatever their operations and comparisons are. Over
the real numbers the similarity is the cosine of the angle between the vectors. What
peers send are doubles, which may be infinite or not numbers, and computed with as such.
-/

namespace AgentTelepathy

open Foundation

/-- What a bank keeps of a vector. -/
structure Embedding (α : Type*) where
  vector : List α
  norm : α
  modelId : String
  rawTextFallback : Option String

structure VectorBank (α : Type*) where
  nodeId : String
  embeddings : Dict UUID (Embedding α)

/-- A search result: the id, the similarity and the text of a vector. -/
structure Hit (α : Type*) where
  payloadId : UUID
  similarity : α
  rawTextFallback : Option String

/-- The `sum` of an interpreter. CPython adds doubles one after the other up to 3.11, and later
compensates for what rounding loses; no sum of squares is negative either way. -/
class Summation (α : Type*) where
  sum : List α → α

/-- The `list.sort` of an interpreter for results by their similarity, greatest first. What it
makes of similarities that are in no order is left open. -/
class Sorting (α : Type*) [LT α] where
  bySimilarity : Selection.Descending fun h : Hit α => h.similarity

namespace VectorBank

section Storing

variable {α : Type*} [Summation α] [Mul α] (sqrt : α → α)

/-- A new bank. -/
def init (nodeId : String) : VectorBank α := ⟨nodeId, Dict.empty⟩

/-- `sum`. -/
def total (numbers : List α) : α := Summation.sum numbers

/-- `math.sqrt(sum(x * x for x in vector))`. -/
def norm (vector : List α) : α := sqrt (total (vector.map fun x => x * x))

/-- `store_vector(payload_id, vector, model_id, raw_text)`. -/
def storeVector (bank : VectorBank α) (payloadId : UUID) (vector : List α) (modelId : String)
    (rawText : Option String) : VectorBank α :=
  { bank with
    embeddings := bank.embeddings.set payloadId ⟨vector, norm sqrt vector, modelId, rawText⟩ }

/-! ### The cached norms -/

/-- A call of `store_vector`. -/
structure Storing (α : Type*) where
  payloadId : UUID
  vector : List α
  modelId : String
  rawText : Option String

/-- The bank after a call. -/
def store (sqrt : α → α) (bank : VectorBank α) (c : Storing α) : VectorBank α :=
  bank.storeVector sqrt c.payloadId c.vector c.modelId c.rawText

/-- The norm kept with a vector is its norm. -/
def Normed (sqrt : α → α) (bank : VectorBank α) : Prop :=
  ∀ id e, bank.embeddings.get? id = some e → e.norm = norm sqrt e.vector

variable {sqrt}

theorem normed_init (nodeId : String) : Normed sqrt (init nodeId : VectorBank α) := nofun

theorem Normed.storeVector {bank : VectorBank α} (normed : Normed sqrt bank) (payloadId : UUID)
    (vector : List α) (modelId : String) (rawText : Option String) :
    Normed sqrt (bank.storeVector sqrt payloadId vector modelId rawText) := by
  intro id e found
  rw [VectorBank.storeVector, Dict.get?_set] at found
  split_ifs at found
  · obtain rfl := Option.some.inj found
    rfl
  · exact normed id e found

theorem Normed.foldl_store {bank : VectorBank α} (normed : Normed sqrt bank)
    (calls : List (Storing α)) : Normed sqrt (calls.foldl (store sqrt) bank) := by
  induction calls generalizing bank with
  | nil => exact normed
  | cons c calls ih => exact ih (normed.storeVector _ _ _ _)

/-- What is stored after some calls was there before, or one of them stored it. -/
theorem mem_of_foldl_store {bank : VectorBank α} {calls : List (Storing α)} {id : UUID}
    {e : Embedding α} (found : (calls.foldl (store sqrt) bank).embeddings.get? id = some e) :
    bank.embeddings.get? id = some e ∨ ∃ c ∈ calls, c.payloadId = id ∧ c.vector = e.vector := by
  induction calls generalizing bank with
  | nil => exact .inl found
  | cons c calls ih =>
    rcases ih found with before | ⟨later, member, same⟩
    · rw [store, storeVector, Dict.get?_set] at before
      split_ifs at before with here
      · obtain rfl := Option.some.inj before
        exact .inr ⟨c, List.mem_cons_self, here.symm, rfl⟩
      · exact .inl before
    · exact .inr ⟨later, List.mem_cons_of_mem c member, same⟩

end Storing

/-! ### Searching -/

section Searching

variable {α : Type*} [Summation α] [Zero α] [Mul α] [Div α] [BEq α] (sqrt : α → α)

/-- `sum(a * b for a, b in zip(query_vector, stored_vector))`. -/
def dot (queryVector storedVector : List α) : α :=
  total (List.zipWith (· * ·) queryVector storedVector)

/-- The text of the `ValueError`. -/
def mismatchMessage (query : ℕ) (pid : UUID) (stored : ℕ) : String :=
  "Dimension mismatch: query is " ++ toString query ++ "d, stored vector '" ++ pid.toText ++
    "' is " ++ toString stored ++ "d."

/-- The result for a vector. -/
def hit (queryVector : List α) (item : UUID × Embedding α) : Hit α :=
  ⟨item.1, dot queryVector item.2.vector / (norm sqrt queryVector * item.2.norm),
    item.2.rawTextFallback⟩

/-- The loop of `search`, or the text of the exception that ends it. -/
def collect (queryVector : List α) : List (UUID × Embedding α) → Except String (List (Hit α))
  | [] => .ok []
  | item :: rest =>
    -- A vector of norm zero is skipped before its length is looked at.
    if item.2.norm == 0 then collect queryVector rest
    else if item.2.vector.length ≠ queryVector.length then
      .error (mismatchMessage queryVector.length item.1 item.2.vector.length)
    -- The product of norms that are not zero might still be rounded to zero.
    else if norm sqrt queryVector * item.2.norm == 0 then .error "float division by zero"
    else (collect queryVector rest).map (hit sqrt queryVector item :: ·)

/-- The vectors that a search compares with. -/
def compared (bank : VectorBank α) : List (UUID × Embedding α) :=
  bank.embeddings.items.filter fun item => !(item.2.norm == 0)

/-- The results for them. -/
def hits (bank : VectorBank α) (queryVector : List α) : List (Hit α) :=
  bank.compared.map (hit sqrt queryVector)

/-- The vectors of another length than the query, of those that are compared. -/
def mismatched (bank : VectorBank α) (queryVector : List α) : List (UUID × Embedding α) :=
  bank.compared.filter fun item => item.2.vector.length ≠ queryVector.length

variable {sqrt}

/-- The loop raises at the first vector of another length than the query, of those with a norm
other than zero. If there is none, it collects all of them. -/
theorem collect_eq {queryVector : List α} {items : List (UUID × Embedding α)}
    (divides : ∀ item ∈ items, (item.2.norm == 0) = false →
      (norm sqrt queryVector * item.2.norm == 0) = false) :
    collect sqrt queryVector items =
      match (items.filter fun item => !(item.2.norm == 0)).filter
        fun item => item.2.vector.length ≠ queryVector.length with
      | [] => .ok ((items.filter fun item => !(item.2.norm == 0)).map (hit sqrt queryVector))
      | item :: _ =>
        .error (mismatchMessage queryVector.length item.1 item.2.vector.length) := by
  induction items with
  | nil => rfl
  | cons item items ih =>
    have rest := ih fun other member => divides other (List.mem_cons_of_mem item member)
    rw [collect, rest]
    by_cases zero : (item.2.norm == 0) = true
    · simp [zero]
    · have nonzero := Bool.eq_false_of_not_eq_true zero
      have divisor := divides item List.mem_cons_self nonzero
      by_cases differs : item.2.vector.length ≠ queryVector.length
      · simp [nonzero, differs]
      · rw [not_not] at differs
        simp only [nonzero, divisor, differs, List.filter_cons, Bool.not_false, if_true]
        -- What the rest of the loop returns or raises decides.
        cases (items.filter fun item => !(item.2.norm == 0)).filter
          fun item => item.2.vector.length ≠ queryVector.length <;> simp [Except.map]

/-- `list[:stop]`. -/
def slice {β : Type*} (l : List β) (stop : ℤ) : List β :=
  -- A negative bound counts from the end.
  if 0 ≤ stop then l.take stop.toNat else l.take (l.length - stop.natAbs)

variable (sqrt) [LT α] [Sorting α]

/-- `search(query_vector, top_k)`. -/
def search (bank : VectorBank α) (queryVector : List α) (topK : ℤ) :
    Except String (List (Hit α)) :=
  if bank.embeddings.items.isEmpty then .ok []
  else if norm sqrt queryVector == 0 then .ok []
  else (collect sqrt queryVector bank.embeddings.items).map fun results =>
    slice (Sorting.bySimilarity.sort results) topK

variable {sqrt}

theorem slice_natCast {β : Type*} (l : List β) (stop : ℕ) : slice l stop = l.take stop := by
  simp [slice]

/-- A search by a query of a norm other than zero raises about the first vector of another
length, or sorts and cuts off the results. -/
theorem search_eq (bank : VectorBank α) {queryVector : List α}
    (nonzero : (norm sqrt queryVector == 0) = false)
    (divides : ∀ item ∈ bank.embeddings.items, (item.2.norm == 0) = false →
      (norm sqrt queryVector * item.2.norm == 0) = false) (topK : ℕ) :
    bank.search sqrt queryVector topK =
      match bank.mismatched queryVector with
      | [] => .ok ((Sorting.bySimilarity.sort (bank.hits sqrt queryVector)).take topK)
      | item :: _ =>
        .error (mismatchMessage queryVector.length item.1 item.2.vector.length) := by
  rw [search, nonzero, if_neg Bool.false_ne_true, collect_eq divides, mismatched, hits, compared]
  split_ifs with empty
  · have none : Sorting.bySimilarity.sort ([] : List (Hit α)) = [] :=
      (Sorting.bySimilarity.perm []).eq_nil
    rw [List.isEmpty_iff.mp empty]
    simp [none]
  · split <;> simp [Except.map, slice_natCast]

end Searching

/-! ### Over the real numbers -/

section Exact

noncomputable instance : Summation ℝ := ⟨List.sum⟩

noncomputable instance : Sorting ℝ := ⟨Selection.byMerging _⟩

variable {bank : VectorBank ℝ} {queryVector : List ℝ}

/-- Whether a vector is not the zero vector. -/
noncomputable def nonZero (vector : List ℝ) : Bool := vector.any (· ≠ 0)

theorem total_eq_sum (numbers : List ℝ) : total numbers = numbers.sum := rfl

theorem norm_ne_zero_iff (vector : List ℝ) : norm Real.sqrt vector ≠ 0 ↔ nonZero vector = true := by
  rw [norm, total_eq_sum, Ne, Cosine.sqrt_eq_zero_iff, nonZero]
  simp

/-- The similarity of a result is the cosine of the angle between query and vector. -/
theorem similarity_hit {item : UUID × Embedding ℝ}
    (norm_eq : item.2.norm = norm Real.sqrt item.2.vector)
    (length_eq : item.2.vector.length = queryVector.length) :
    (hit Real.sqrt queryVector item).similarity =
      Cosine.cosine queryVector.length queryVector item.2.vector := by
  rw [Cosine.cosine_eq rfl length_eq, hit, norm_eq, norm, norm, dot, total_eq_sum, total_eq_sum,
    total_eq_sum]

theorem compared_eq (normed : Normed Real.sqrt bank) :
    bank.compared = bank.embeddings.items.filter fun item => nonZero item.2.vector := by
  apply List.filter_congr
  intro item member
  have stored := normed item.1 item.2 (Dict.get?_eq_some_iff.mpr member)
  rw [stored, Bool.eq_iff_iff, ← norm_ne_zero_iff, Bool.not_eq_true', beq_eq_false_iff_ne]

/-- `results` are the entries of greatest cosine with the query, of the vectors that
are not zero: `topK` of them, or all. -/
structure TopK (bank : VectorBank ℝ) (queryVector : List ℝ) (topK : ℕ) (results : List (Hit ℝ)) :
    Prop where
  length_eq : results.length =
    min topK (bank.embeddings.items.countP fun item => nonZero item.2.vector)
  distinct : (results.map Hit.payloadId).Nodup
  sorted : results.Pairwise fun a b => b.similarity ≤ a.similarity
  current : ∀ r ∈ results, ∃ e, bank.embeddings.get? r.payloadId = some e ∧
    nonZero e.vector = true ∧ r.rawTextFallback = e.rawTextFallback ∧
    r.similarity = Cosine.cosine queryVector.length queryVector e.vector ∧
    r.similarity ∈ Set.Icc (-1) 1
  complete : ∀ id e, bank.embeddings.get? id = some e → nonZero e.vector = true →
    id ∉ results.map Hit.payloadId →
    ∀ r ∈ results, Cosine.cosine queryVector.length queryVector e.vector ≤ r.similarity

/-- Results of greatest similarity are those of greatest cosine. -/
theorem topK_of_greatest {topK : ℕ} {results : List (Hit ℝ)} (normed : Normed Real.sqrt bank)
    (lengths : ∀ item ∈ bank.compared, item.2.vector.length = queryVector.length)
    (greatest : Selection.Greatest Hit.similarity topK (bank.hits Real.sqrt queryVector)
      results) :
    TopK bank queryVector topK results := by
  have compared := compared_eq normed
  -- A vector that is compared gives a result with the cosine as similarity.
  have cosine : ∀ item ∈ bank.compared, (hit Real.sqrt queryVector item).similarity =
      Cosine.cosine queryVector.length queryVector item.2.vector := by
    intro item member
    have stored : item ∈ bank.embeddings.items := List.mem_of_mem_filter member
    exact similarity_hit (normed item.1 item.2 (Dict.get?_eq_some_iff.mpr stored))
      (lengths item member)
  refine ⟨?_, ?_, greatest.sorted.imp not_lt.mp, ?_, ?_⟩
  · rw [greatest.length_eq, hits, List.length_map, compared, List.countP_eq_length_filter]
  · apply greatest.nodup_map
    rw [hits, List.map_map]
    exact bank.embeddings.nodupKeys.sublist (List.filter_sublist.map _)
  · intro r member
    obtain ⟨item, there, rfl⟩ := List.mem_map.mp (greatest.mem member)
    have similarity := cosine item there
    rw [compared] at there
    obtain ⟨stored, nonzero⟩ := List.mem_filter.mp there
    refine ⟨item.2, Dict.get?_eq_some_iff.mpr stored, nonzero, rfl, similarity, ?_⟩
    rw [similarity]
    exact Cosine.cosine_mem_Icc _ _ _
  · intro id e found nonzero omitted r selected
    have there : (id, e) ∈ bank.compared := by
      rw [compared]
      exact List.mem_filter.mpr ⟨Dict.get?_eq_some_iff.mp found, nonzero⟩
    rw [← cosine (id, e) there]
    refine not_lt.mp (greatest.complete _ (List.mem_map_of_mem there) ?_ r selected)
    intro kept
    exact omitted (List.mem_map_of_mem kept)

/-- A call keeps its vector with the norm of that vector, whatever was there before. -/
theorem stored_norm (bank : VectorBank ℝ) (c : Storing ℝ) :
    ∃ e, (store Real.sqrt bank c).embeddings.get? c.payloadId = some e ∧ e.vector = c.vector ∧
      e.norm = ‖Cosine.toEuclidean c.vector.length c.vector‖ := by
  refine ⟨_, Dict.get?_set_self _ _ _, rfl, ?_⟩
  rw [Cosine.norm_toEuclidean rfl, norm, total_eq_sum]

/-- In every bank that calls of `store_vector` make, every norm is that of its vector
and stays so when a vector is replaced, and a search by a vector other than zero, whose
length is that of all vectors other than zero, returns those of greatest cosine. -/
theorem search_topK (nodeId : String) (calls : List (Storing ℝ)) {queryVector : List ℝ}
    (nonzero : nonZero queryVector = true)
    (lengths : ∀ id e, (calls.foldl (store Real.sqrt) (init nodeId)).embeddings.get? id = some e →
      nonZero e.vector = true → e.vector.length = queryVector.length) (topK : ℕ) :
    (∀ id e, (calls.foldl (store Real.sqrt) (init nodeId)).embeddings.get? id = some e →
      e.norm = ‖Cosine.toEuclidean e.vector.length e.vector‖) ∧
    (∀ c, ∃ e, (store Real.sqrt (calls.foldl (store Real.sqrt) (init nodeId)) c).embeddings.get?
        c.payloadId = some e ∧ e.vector = c.vector ∧
      e.norm = ‖Cosine.toEuclidean c.vector.length c.vector‖) ∧
    ∃ results,
      (calls.foldl (store Real.sqrt) (init nodeId)).search Real.sqrt queryVector topK =
        .ok results ∧
      TopK (calls.foldl (store Real.sqrt) (init nodeId)) queryVector topK results := by
  have normed : Normed Real.sqrt (calls.foldl (store Real.sqrt) (init nodeId)) :=
    (normed_init nodeId).foldl_store calls
  generalize calls.foldl (store Real.sqrt) (init nodeId) = bank at normed lengths ⊢
  refine ⟨?_, stored_norm bank, ?_⟩
  · intro id e found
    rw [normed id e found, Cosine.norm_toEuclidean rfl, norm, total_eq_sum]
  · have agree : ∀ item ∈ bank.compared, item.2.vector.length = queryVector.length := by
      intro item member
      rw [compared_eq normed] at member
      obtain ⟨stored, other⟩ := List.mem_filter.mp member
      exact lengths item.1 item.2 (Dict.get?_eq_some_iff.mpr stored) other
    have agreed : bank.mismatched queryVector = [] := by
      rw [mismatched, List.filter_eq_nil_iff]
      intro item member
      simpa using agree item member
    have other : norm Real.sqrt queryVector ≠ 0 := (norm_ne_zero_iff _).mpr nonzero
    have answer := search_eq bank (beq_eq_false_iff_ne.mpr other) (fun item _ compared =>
      beq_eq_false_iff_ne.mpr (mul_ne_zero other (beq_eq_false_iff_ne.mp compared))) topK
    rw [agreed] at answer
    exact ⟨_, answer, topK_of_greatest normed agree
      (Sorting.bySimilarity.greatest_take (.of_linearOrder _ _) topK)⟩

/-- Three vectors under two ids: the first is replaced, and the second is zero. -/
def replacing : List (Storing ℝ) :=
  [⟨UUID.nil, [3, 4], "model", none⟩, ⟨⟨1, 0, 0, 0, 0⟩, [0, 0], "model", none⟩,
    ⟨UUID.nil, [0, 2], "model", some "north"⟩]

theorem search_topK_replacing :
    ∃ results,
      (replacing.foldl (store Real.sqrt) (init "a")).search Real.sqrt [1, 1] (5 : ℕ) =
        .ok results ∧
      TopK (replacing.foldl (store Real.sqrt) (init "a")) [1, 1] 5 results := by
  refine (search_topK "a" replacing (by simp [nonZero]) ?_ 5).2.2
  intro id e found _
  rcases mem_of_foldl_store found with absent | ⟨c, member, -, same⟩
  · cases absent
  · simp only [replacing, List.mem_cons, List.not_mem_nil, or_false] at member
    rw [← same]
    rcases member with rfl | rfl | rfl <;> rfl

end Exact

/-! ### Vectors from peers -/

section Peers

open scoped Foundation.Ieee

variable [Summation Float64] {queryVector : List Float64}

/-- `_handle_vector_sync`. -/
def handleVectorSync (bank : VectorBank Float64) (envelope : TPCPEnvelope) : VectorBank Float64 :=
  match envelope.payload with
  | .vectorEmbedding p =>
    bank.storeVector Float64.sqrt envelope.header.messageId p.vector p.modelId p.rawTextFallback
  | _ => bank

/-- The bank of a node that has received some envelopes. -/
def ofEnvelopes (nodeId : String) (envelopes : List TPCPEnvelope) : VectorBank Float64 :=
  envelopes.foldl handleVectorSync (init nodeId)

theorem normed_ofEnvelopes (nodeId : String) (envelopes : List TPCPEnvelope) :
    Normed Float64.sqrt (ofEnvelopes nodeId envelopes) := by
  induction envelopes using List.reverseRecOn with
  | nil => exact normed_init nodeId
  | append_singleton envelopes envelope ih =>
    rw [ofEnvelopes, List.foldl_append, List.foldl_cons, List.foldl_nil, handleVectorSync]
    split
    · exact ih.storeVector _ _ _ _
    · exact ih

/-- What a search answers: an exception about the first vector of another length than the query, of
those with a norm other than zero. If there is none, it returns as many results as it was asked
for, or all, and those of greatest similarity unless some similarity is not a number. -/
def Answers (bank : VectorBank Float64) (queryVector : List Float64) (topK : ℕ)
    (answer : Except String (List (Hit Float64))) : Prop :=
  match bank.mismatched queryVector with
  | [] => ∃ results, answer = .ok results ∧
      Selection.Selected topK (bank.hits Float64.sqrt queryVector) results ∧
      ((∀ h ∈ bank.hits Float64.sqrt queryVector, h.similarity ≠ .nan) →
        Selection.Greatest Hit.similarity topK (bank.hits Float64.sqrt queryVector) results)
  | item :: _ =>
    answer = .error (mismatchMessage queryVector.length item.1 item.2.vector.length)

variable [Sorting Float64]

/-- Where the norms are roots, no division is by zero, so the search answers. -/
theorem answers_search {bank : VectorBank Float64} (normed : Normed Float64.sqrt bank)
    (nonzero : (norm Float64.sqrt queryVector == 0) = false) (topK : ℕ) :
    Answers bank queryVector topK (bank.search Float64.sqrt queryVector topK) := by
  have divides : ∀ item ∈ bank.embeddings.items, (item.2.norm == 0) = false →
      (norm Float64.sqrt queryVector * item.2.norm == 0) = false := by
    intro item member compared
    rw [normed item.1 item.2 (Dict.get?_eq_some_iff.mpr member)] at compared ⊢
    exact Float64.mul_sqrt_ne_zero nonzero compared
  rw [search_eq bank nonzero divides, Answers]
  cases bank.mismatched queryVector with
  | nil =>
    refine ⟨_, rfl, Sorting.bySimilarity.selected_take topK _, fun numbers => ?_⟩
    -- Similarities that are numbers are compared like their places in the order.
    have ordered : Selection.Ordered Hit.similarity (bank.hits Float64.sqrt queryVector) :=
      .of_rank fun a first b second => Float64.less_iff_rank (numbers a first) (numbers b second)
    exact Sorting.bySimilarity.greatest_take ordered topK
  | cons => rfl

/-- A vector of another length than the query ends every search by it. -/
theorem search_of_mismatched {bank : VectorBank Float64} {id : UUID} {e : Embedding Float64}
    (normed : Normed Float64.sqrt bank) (nonzero : (norm Float64.sqrt queryVector == 0) = false)
    (found : bank.embeddings.get? id = some e) (compared : (e.norm == 0) = false)
    (differs : e.vector.length ≠ queryVector.length) (topK : ℕ) :
    ∃ pid stored, bank.search Float64.sqrt queryVector topK =
      .error (mismatchMessage queryVector.length pid stored) := by
  have there : (id, e) ∈ bank.mismatched queryVector := by
    simp [mismatched, VectorBank.compared, Dict.get?_eq_some_iff.mp found, compared, differs]
  have answers := answers_search normed nonzero topK
  rw [Answers] at answers
  split at answers
  · next none =>
    rw [none] at there
    cases there
  · next item rest _ => exact ⟨item.1, item.2.vector.length, answers⟩

/-- After any envelopes, a search by a query of a norm other than zero raises an exception about the
first vector of another length, of those that are compared. If there is none, it returns results,
and those of greatest similarity unless some similarity is not a number. One more vector of another
length makes it raise. -/
theorem search_of_ingested (nodeId : String) (envelopes : List TPCPEnvelope)
    (nonzero : (norm Float64.sqrt queryVector == 0) = false) (topK : ℕ) :
    Answers (ofEnvelopes nodeId envelopes) queryVector topK
      ((ofEnvelopes nodeId envelopes).search Float64.sqrt queryVector topK) ∧
    ∀ (envelope : TPCPEnvelope) (p : VectorEmbeddingPayload),
      envelope.payload = .vectorEmbedding p → (norm Float64.sqrt p.vector == 0) = false →
      p.dimensions ≠ queryVector.length →
      ∃ pid stored,
        (ofEnvelopes nodeId (envelopes ++ [envelope])).search Float64.sqrt queryVector topK =
          .error (mismatchMessage queryVector.length pid stored) := by
  refine ⟨answers_search (normed_ofEnvelopes nodeId envelopes) nonzero topK, ?_⟩
  intro envelope p payload compared differs
  have normed := normed_ofEnvelopes nodeId (envelopes ++ [envelope])
  rw [ofEnvelopes, List.foldl_append, List.foldl_cons, List.foldl_nil, handleVectorSync,
    payload] at normed ⊢
  exact search_of_mismatched normed nonzero (Dict.get?_set_self _ _ _) compared
    (by rwa [p.length_eq]) topK

end Peers

section Models

open scoped Foundation.Ieee

/-- The sum as CPython 3.11 computes it, and a stable sort. -/
instance : Summation Float64 := ⟨fun numbers => numbers.foldl (· + ·) 0⟩

instance : Sorting Float64 := ⟨Selection.byMerging _⟩

theorem unknown_model : knownModels.lookup "model" = none := by decide

/-- An embedding of a model that is not known. -/
def embedding (messageId : UUID) (vector : List Float64) (positive : 0 < vector.length) :
    TPCPEnvelope where
  header :=
    { messageId
      timestamp := ⟨2026, 3, 1, 12, 0, 0, 0, DateTime.valid_noon⟩
      senderId := ⟨1, 0, 0, 0, 0⟩
      receiverId := UUID.nil
      intent := .stateSyncVector
      ttl := 30
      protocolVersion := protocolVersion }
  payload := .vectorEmbedding
    { modelId := "model"
      dimensions := vector.length
      vector
      rawTextFallback := none
      positive
      length_eq := rfl
      known := by simp [unknown_model] }
  signature := none
  ackInfo := none
  chunkInfo := none

/-- A query, and vectors of two models. -/
def query : List Float64 := [Float64.ofInt 1, Float64.ofInt 0]

def flat : List TPCPEnvelope :=
  [embedding UUID.nil [Float64.ofInt 1, Float64.ofInt 1] (by decide),
    embedding ⟨1, 0, 0, 0, 0⟩ [Float64.ofInt 2, Float64.ofInt 1] (by decide)]

def solid : TPCPEnvelope :=
  embedding ⟨2, 0, 0, 0, 0⟩ [Float64.ofInt 0, Float64.ofInt 0, Float64.ofInt 1] (by decide)

theorem norm_query : (norm Float64.sqrt query == 0) = false := by decide +kernel

theorem search_of_ingested_models :
    (∃ results, (ofEnvelopes "a" flat).search Float64.sqrt query (1 : ℕ) = .ok results ∧
      Selection.Greatest Hit.similarity 1 ((ofEnvelopes "a" flat).hits Float64.sqrt query)
        results) ∧
    ∃ pid stored, (ofEnvelopes "a" (flat ++ [solid])).search Float64.sqrt query (1 : ℕ) =
      .error (mismatchMessage 2 pid stored) := by
  obtain ⟨answers, raises⟩ := search_of_ingested "a" flat norm_query 1
  have agreed : (ofEnvelopes "a" flat).mismatched query = [] :=
    List.isEmpty_iff.mp (by decide +kernel)
  have numbers : ∀ h ∈ (ofEnvelopes "a" flat).hits Float64.sqrt query, h.similarity ≠ .nan := by
    decide +kernel
  rw [Answers, agreed] at answers
  obtain ⟨results, answer, -, greatest⟩ := answers
  exact ⟨⟨results, answer, greatest numbers⟩,
    raises solid _ rfl (by decide +kernel) (by decide)⟩

/-- Embeddings of two models make a search raise. -/
theorem search_not_total :
    ¬ ∀ (envelopes : List TPCPEnvelope) (queryVector : List Float64) (topK : ℕ),
      (norm Float64.sqrt queryVector == 0) = false →
      ∃ results, (ofEnvelopes "a" envelopes).search Float64.sqrt queryVector topK =
        .ok results := by
  intro total
  obtain ⟨results, returned⟩ := total (flat ++ [solid]) query 1 norm_query
  have raises : ((ofEnvelopes "a" (flat ++ [solid])).search Float64.sqrt query
      (1 : ℕ)).toOption.isSome = false := by
    decide +kernel
  rw [returned] at raises
  cases raises

end Models

end VectorBank

end AgentTelepathy
