import AgentTelepathy.Memory.Gossip

/-!
# Streams of readings

Readings come from sources, one after the other, each with a value and a stamp that
does not decrease. They are stored in a map under a key of their source, by one writer.
The map then shows the latest reading of every source, and no reading touches the entry
of another source, exactly when different sources have different keys and no reading
beats a later one of its source and stamp by the text of its value.
-/

namespace AgentTelepathy

open Foundation

/-- A reading of a source. -/
structure Reading (σ : Type*) where
  source : σ
  value : Json
  stamp : ℤ
deriving DecidableEq

namespace Reading

variable {σ : Type*} (key : σ → String) (writerId : String)

/-- The record of a reading. -/
def record (r : Reading σ) : Record := ⟨r.value, r.stamp, writerId⟩

/-- A map after a reading is stored. -/
def store (m : LWWMap) (r : Reading σ) : LWWMap :=
  m.set (key r.source) r.value (some r.stamp) (some writerId)

/-- A map after readings are stored in order. -/
def storeAll (m : LWWMap) (readings : List (Reading σ)) : LWWMap :=
  readings.foldl (store key writerId) m

/-- A new map after readings are stored in order. -/
def shown (nodeId : String) (readings : List (Reading σ)) : LWWMap :=
  storeAll key writerId (LWWMap.init nodeId) readings

/-- The map shows the latest reading of every source, and a reading leaves the entries
of other sources alone. -/
structure Faithful (nodeId : String) (readings : List (Reading σ)) : Prop where
  latest : ∀ before r after, readings = before ++ r :: after →
    (∀ q ∈ after, q.source ≠ r.source) →
    ∃ v, (shown key writerId nodeId readings).get (key r.source) = some v ∧ Json.Same v r.value
  separate : ∀ before r after, readings = before ++ r :: after →
    ∀ q ∈ readings, q.source ≠ r.source →
      (shown key writerId nodeId (before ++ [r])).state.get? (key q.source) =
        (shown key writerId nodeId before).state.get? (key q.source)

/-- Sources have keys of their own, and no reading of the stamp of the latest reading of
its source has a greater text than that. -/
structure Clear (readings : List (Reading σ)) : Prop where
  injective : ∀ q ∈ readings, ∀ r ∈ readings, key q.source = key r.source → q.source = r.source
  decided : ∀ before r after, readings = before ++ r :: after →
    (∀ q ∈ after, q.source ≠ r.source) →
    ∀ q ∈ before, q.source = r.source → q.stamp = r.stamp →
      Record.dumps q.value ≤ Record.dumps r.value

variable {key writerId} {readings before after : List (Reading σ)} {q r : Reading σ}

/-- No tie at all is decided for the earlier reading. -/
theorem clear_of_pairwise
    (injective : ∀ q ∈ readings, ∀ r ∈ readings, key q.source = key r.source → q.source = r.source)
    (decided : readings.Pairwise fun q r => q.source = r.source → q.stamp = r.stamp →
      Record.dumps q.value ≤ Record.dumps r.value) : Clear key readings := by
  refine ⟨injective, ?_⟩
  rintro before r after rfl - q member same tie
  exact (List.pairwise_append.mp decided).2.2 q member r List.mem_cons_self same tie

/-! ### What the map holds -/

/-- What was written by readings. -/
def writes (key : σ → String) (writerId : String) (readings : List (Reading σ)) : List Write :=
  readings.map fun r => (key r.source, r.record writerId)

theorem holds_storeAll {m : LWWMap} {history : List Write} (holds : Gossip.Holds history m)
    (readings : List (Reading σ)) :
    Gossip.Holds (history ++ writes key writerId readings) (storeAll key writerId m readings) := by
  induction readings generalizing history m with
  | nil => simpa [writes, storeAll] using holds
  | cons r readings ih =>
    have first : Gossip.Holds (history ++ [(key r.source, r.record writerId)])
        (store key writerId m r) := by
      refine holds.set ?_ (Gossip.holds_singleton_write _ _)
      intro w member
      rw [List.mem_singleton.mp member]
    have rest := ih first
    rwa [List.append_assoc, List.singleton_append] at rest

variable (key writerId) in
theorem holds_shown (nodeId : String) (readings : List (Reading σ)) :
    Gossip.Holds (writes key writerId readings) (shown key writerId nodeId readings) :=
  holds_storeAll (Gossip.holds_init nodeId) readings

theorem mem_writesTo {k : String} {e : Record} :
    e ∈ Gossip.writesTo (writes key writerId readings) k ↔
      ∃ q ∈ readings, key q.source = k ∧ q.record writerId = e := by
  simp [Gossip.writesTo, writes]

/-- A key that no reading has shows nothing. -/
theorem get?_shown_eq_none (nodeId : String) {k : String}
    (unread : ∀ q ∈ readings, key q.source ≠ k) :
    (shown key writerId nodeId readings).state.get? k = none := by
  have holds := holds_shown key writerId nodeId readings k
  cases entry : (shown key writerId nodeId readings).state.get? k with
  | none => rfl
  | some e =>
    rw [entry] at holds
    obtain ⟨q, member, same, -⟩ := mem_writesTo.mp holds.1
    exact absurd same (unread q member)

variable (key writerId) in
/-- A key that readings have shows a greatest one of them. -/
theorem exists_shown (nodeId : String) (member : r ∈ readings) :
    ∃ q ∈ readings, key q.source = key r.source ∧
      (shown key writerId nodeId readings).state.get? (key r.source) = some (q.record writerId) ∧
      ∀ p ∈ readings, key p.source = key r.source →
        Record.rank (p.record writerId) ≤ Record.rank (q.record writerId) := by
  have holds := holds_shown key writerId nodeId readings (key r.source)
  have written : r.record writerId ∈
      Gossip.writesTo (writes key writerId readings) (key r.source) :=
    mem_writesTo.mpr ⟨r, member, rfl, rfl⟩
  cases entry : (shown key writerId nodeId readings).state.get? (key r.source) with
  | none =>
    rw [entry] at holds
    exact absurd written (holds ▸ Set.notMem_empty _)
  | some e =>
    rw [entry] at holds
    obtain ⟨q, there, same, rfl⟩ := mem_writesTo.mp holds.1
    refine ⟨q, there, same, rfl, fun p member here => ?_⟩
    exact holds.2 _ (mem_writesTo.mpr ⟨p, member, here, rfl⟩)

/-- Readings of one writer rank by their stamps, and those of one stamp by their texts. -/
theorem rank_le_iff : Record.rank (q.record writerId) ≤ Record.rank (r.record writerId) ↔
    q.stamp < r.stamp ∨ q.stamp = r.stamp ∧ Record.dumps q.value ≤ Record.dumps r.value := by
  rw [Record.rank, Record.rank, Prod.Lex.toLex_le_toLex, Prod.Lex.toLex_le_toLex]
  simp [record]

/-! ### When the map is faithful -/

/-- The first reading with the key of a source would change the entry of any other
source with that key. -/
theorem Faithful.injective {nodeId : String} (faithful : Faithful key writerId nodeId readings)
    (first : q ∈ readings) (second : r ∈ readings) (same : key q.source = key r.source) :
    q.source = r.source := by
  by_contra differ
  obtain ⟨x, found⟩ : ∃ x, readings.find? (fun x => key x.source = key r.source) = some x := by
    apply Option.isSome_iff_exists.mp
    rw [List.find?_isSome]
    exact ⟨r, second, by simp⟩
  obtain ⟨here, before, after, split, earlier⟩ := List.find?_eq_some_iff_append.mp found
  have key_eq : key x.source = key r.source := of_decide_eq_true here
  obtain ⟨y, member, other, there⟩ : ∃ y ∈ readings, y.source ≠ x.source ∧
      key y.source = key r.source := by
    by_cases own : r.source = x.source
    · exact ⟨q, first, own ▸ differ, same⟩
    · exact ⟨r, second, own, rfl⟩
  have kept := faithful.separate before x after split y member other
  have nothing : (shown key writerId nodeId before).state.get? (key y.source) = none := by
    refine get?_shown_eq_none nodeId fun p member => ?_
    have unlike := earlier p member
    rw [there]
    simpa using unlike
  obtain ⟨z, -, -, entry, -⟩ := exists_shown key writerId nodeId
    (List.mem_append_right before (List.mem_singleton.mpr (rfl : x = x)))
  rw [key_eq, ← there, kept, nothing] at entry
  cases entry

/-- A reading changes no entry under another key. -/
theorem get?_shown_append (nodeId : String) (before : List (Reading σ)) {k : String}
    (other : k ≠ key r.source) :
    (shown key writerId nodeId (before ++ [r])).state.get? k =
      (shown key writerId nodeId before).state.get? k := by
  rw [shown, storeAll, List.foldl_append, List.foldl_cons, List.foldl_nil, store, LWWMap.get?_set,
    if_neg other]
  rfl

section Ordered

variable (ordered : readings.Pairwise fun q r => q.stamp ≤ r.stamp)
include ordered

/-- No reading of a source is stamped later than its latest one. -/
theorem stamp_le_of_latest (split : readings = before ++ r :: after)
    (latest : ∀ q ∈ after, q.source ≠ r.source) (member : q ∈ readings)
    (same : q.source = r.source) : q.stamp ≤ r.stamp := by
  subst split
  rcases List.mem_append.mp member with earlier | later
  · exact (List.pairwise_append.mp ordered).2.2 q earlier r List.mem_cons_self
  · rcases List.mem_cons.mp later with rfl | later
    · exact le_rfl
    · exact absurd same (latest q later)

/-- Where sources have keys of their own, the latest reading of a source is shown
exactly when none of its stamp has a greater text. -/
theorem latest_iff (nodeId : String)
    (injective : ∀ q ∈ readings, ∀ r ∈ readings, key q.source = key r.source → q.source = r.source)
    (split : readings = before ++ r :: after) (latest : ∀ q ∈ after, q.source ≠ r.source) :
    (∃ v, (shown key writerId nodeId readings).get (key r.source) = some v ∧ Json.Same v r.value) ↔
      ∀ q ∈ before, q.source = r.source → q.stamp = r.stamp →
        Record.dumps q.value ≤ Record.dumps r.value := by
  have member : r ∈ readings := split ▸ List.mem_append_right before List.mem_cons_self
  obtain ⟨e, there, same, entry, greatest⟩ := exists_shown key writerId nodeId member
  have source := injective e there r member same
  have bound := stamp_le_of_latest ordered split latest there source
  -- The entry is of the stamp of the latest reading, and not below it.
  have above := rank_le_iff.mp (greatest r member rfl)
  have stamp : e.stamp = r.stamp := by
    rcases above with below | ⟨equal, -⟩
    · exact absurd bound (not_le.mpr below)
    · exact equal.symm
  have text : Record.dumps r.value ≤ Record.dumps e.value := by
    rcases above with below | ⟨-, text⟩
    · exact absurd bound (not_le.mpr below)
    · exact text
  rw [LWWMap.get, entry]
  constructor
  · rintro ⟨v, value, shows⟩ q earlier own tie
    obtain rfl := Option.some.inj value
    have ranked := greatest q (split ▸ List.mem_append_left _ earlier) (own ▸ rfl)
    have texts : Record.dumps e.value = Record.dumps r.value :=
      JsonText.dumpsSorted_eq_iff.mpr shows
    rcases rank_le_iff.mp ranked with below | ⟨-, le⟩
    · exact absurd below (by rw [stamp, tie]; exact lt_irrefl _)
    · exact le.trans texts.le
  · intro decided
    refine ⟨e.value, rfl, JsonText.dumpsSorted_eq_iff.mp (le_antisymm ?_ text)⟩
    rw [split] at there
    rcases List.mem_append.mp there with earlier | later
    · exact decided e earlier source stamp
    · rcases List.mem_cons.mp later with rfl | later
      · exact le_rfl
      · exact absurd source (latest e later)

/-- Readings with stamps that do not decrease are shown faithfully exactly when their
sources have keys of their own and no tie of stamps is decided for an earlier reading. -/
theorem faithful_iff (nodeId : String) :
    Faithful key writerId nodeId readings ↔ Clear key readings := by
  constructor
  · intro faithful
    have injective : ∀ q ∈ readings, ∀ r ∈ readings,
        key q.source = key r.source → q.source = r.source :=
      fun q first r second => faithful.injective first second
    refine ⟨injective, fun before r after split latest => ?_⟩
    exact (latest_iff ordered nodeId injective split latest).mp
      (faithful.latest before r after split latest)
  · intro clear
    refine ⟨fun before r after split latest => ?_, fun before r after split q member other => ?_⟩
    · exact (latest_iff ordered nodeId clear.injective split latest).mpr
        (clear.decided before r after split latest)
    · have there : r ∈ readings := split ▸ List.mem_append_right before List.mem_cons_self
      exact get?_shown_append nodeId before fun same =>
        other (clear.injective q member r there same)

end Ordered

end Reading

end AgentTelepathy
