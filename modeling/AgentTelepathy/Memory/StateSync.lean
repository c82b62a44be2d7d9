import AgentTelepathy.Foundation.Comparison
import AgentTelepathy.Memory.Crdt
import AgentTelepathy.Schemas.Envelope

/-!
# State sync with unchecked records

A `CRDTSyncPayload` has any string-keyed JSON object as its state, and `merge` reads
its records as they are: a field can be missing, a timestamp can be any value and a
writer too. So `set` is modelled here on JSON values and can raise anywhere. A merge
works through the records in order and stops at the first one that raises.
-/

namespace AgentTelepathy

open Foundation

/-- A stored write as it arrived. Whatever was compared with the clock is a number. -/
structure RawRecord where
  value : Json
  timestamp : PyNumber
  writerId : Json
deriving DecidableEq

namespace RawRecord

/-- Whether a new record replaces an existing one; nothing where a comparison raises. -/
def supersedes (new existing : RawRecord) : Option Bool :=
  if new.timestamp.gt existing.timestamp then some true
  else if new.timestamp.eq existing.timestamp then
    match new.writerId.gt existing.writerId with
    | none => none
    | some true => some true
    | some false =>
      if new.writerId.eq existing.writerId then
        some (Record.dumps existing.value < Record.dumps new.value)
      else some false
  else some false

theorem supersedes_self (r : RawRecord) : r.supersedes r ≠ some true := by
  have notAbove := r.writerId.gt_self
  unfold supersedes
  rw [PyNumber.gt_self, if_neg Bool.false_ne_true]
  by_cases sameTime : r.timestamp.eq r.timestamp = true
  · rw [if_pos sameTime]
    cases compared : r.writerId.gt r.writerId with
    | none => simp
    | some above =>
      cases above with
      | true => exact absurd compared notAbove
      | false =>
        by_cases sameWriter : r.writerId.eq r.writerId = true <;> simp [sameWriter]
  · simp [sameTime]

/-- A record with an integer timestamp and a string writer. -/
def ofRecord (r : Record) : RawRecord := ⟨r.value, .int r.timestamp, .str r.writerId⟩

/-- Well-typed records compare as they do in the typed map. -/
theorem supersedes_ofRecord (new existing : Record) :
    (ofRecord new).supersedes (ofRecord existing) = some (new.supersedes existing) := by
  have later : (ofRecord new).timestamp.gt (ofRecord existing).timestamp =
      decide (new.timestamp > existing.timestamp) := PyNumber.gt_int _ _
  have tie : (ofRecord new).timestamp.eq (ofRecord existing).timestamp =
      decide (new.timestamp = existing.timestamp) := PyNumber.eq_int _ _
  have above : (ofRecord new).writerId.gt (ofRecord existing).writerId =
      some (decide (existing.writerId < new.writerId)) := by
    simp [ofRecord, Json.gt]
  have same : (ofRecord new).writerId.eq (ofRecord existing).writerId =
      decide (new.writerId = existing.writerId) := by
    simp [ofRecord, Json.eq]
  rw [supersedes, Record.supersedes, later, tie, above, same]
  simp only [decide_eq_true_eq]
  split_ifs <;> simp_all [ofRecord]

end RawRecord

/-- How a merge can raise. -/
inductive MergeError
  | keyError (field : String)
  | notSubscriptable
  | notComparable
  | database (message : String)
deriving DecidableEq

/-- A map as it is in memory, with what its database holds. -/
structure SharedMemory (σ : Type) where
  nodeId : String
  state : Dict String RawRecord
  logicalClock : PyNumber
  rows : σ
deriving DecidableEq

/-- `_persist_unlocked`: write a row, and the text of the exception if it raises. -/
abbrev Persist (σ : Type) := σ → String → RawRecord → σ × Option String

/-- A map without a database persists nothing. -/
def inMemory : Persist Unit := fun rows _ _ => (rows, none)

namespace SharedMemory

variable {σ : Type}

/-- A new map. -/
def init (nodeId : String) (rows : σ) : SharedMemory σ := ⟨nodeId, Dict.empty, .int 0, rows⟩

/-- The first part of `set`: advance the clock and complete the record. -/
def stamp (m : SharedMemory σ) (value timestamp writerId : Json) :
    Except MergeError (SharedMemory σ × RawRecord) :=
  match timestamp with
  | .null =>
    let clock := m.logicalClock.addOne
    .ok ({ m with logicalClock := clock }, ⟨value, clock, .str m.nodeId⟩)
  | timestamp =>
    match PyNumber.ofJson? timestamp with
    | none => .error .notComparable
    | some t =>
      .ok ({ m with logicalClock := m.logicalClock.max t },
        ⟨value, t, if writerId = .null then .str m.nodeId else writerId⟩)

/-- Store a record and write its row. -/
def write (persist : Persist σ) (m : SharedMemory σ) (key : String) (record : RawRecord) :
    SharedMemory σ × Option MergeError :=
  let (rows, raised) := persist m.rows key record
  ({ m with state := m.state.set key record, rows := rows }, raised.map .database)

/-- The second part of `set`: store the record unless the present one stands. -/
def store (persist : Persist σ) (m : SharedMemory σ) (key : String) (record : RawRecord) :
    SharedMemory σ × Option MergeError :=
  match m.state.get? key with
  | none => m.write persist key record
  | some existing =>
    match record.supersedes existing with
    | none => (m, some .notComparable)
    | some true => m.write persist key record
    | some false => (m, none)

/-- `set(key, value, timestamp, writer_id)`, with null for `None`. -/
def set (persist : Persist σ) (m : SharedMemory σ) (key : String)
    (value timestamp writerId : Json) : SharedMemory σ × Option MergeError :=
  match m.stamp value timestamp writerId with
  | .error error => (m, some error)
  | .ok (m, record) => m.store persist key record

/-- `record[field]`. -/
def field (record : Json) (name : String) : Except MergeError Json :=
  match record with
  | .obj members =>
    match members.lookup name with
    | some value => .ok value
    | none => .error (.keyError name)
  | _ => .error .notSubscriptable

/-- The arguments that `merge` takes from a record, in the order it reads them. -/
def arguments (record : Json) : Except MergeError (Json × Json × Json) := do
  let value ← field record "value"
  let timestamp ← field record "timestamp"
  let writerId ← field record "writer_id"
  return (value, timestamp, writerId)

/-- One round of the loop of `merge`. -/
def mergeRecord (persist : Persist σ) (m : SharedMemory σ) (item : String × Json) :
    SharedMemory σ × Option MergeError :=
  match arguments item.2 with
  | .error error => (m, some error)
  | .ok (value, timestamp, writerId) => m.set persist item.1 value timestamp writerId

/-- The loop of `merge`. -/
def mergeItems (persist : Persist σ) (m : SharedMemory σ) :
    List (String × Json) → SharedMemory σ × Option MergeError
  | [] => (m, none)
  | item :: rest =>
    match m.mergeRecord persist item with
    | (m, none) => m.mergeItems persist rest
    | (m, some error) => (m, some error)

/-- `merge(other_state)`. -/
def merge (persist : Persist σ) (m : SharedMemory σ) (otherState : Dict String Json) :
    SharedMemory σ × Option MergeError := m.mergeItems persist otherState.items

/-- `_handle_state_sync`. -/
def handleStateSync (persist : Persist σ) (m : SharedMemory σ) (payload : Payload) :
    SharedMemory σ × Option MergeError :=
  match payload with
  | .crdtSync p => if p.crdtType = "LWW-Map" then m.merge persist p.state else (m, none)
  | _ => (m, none)

/-- A number as the timestamp advances the clock to it, if it is greater. -/
theorem stamp_of_number {m : SharedMemory σ} {timestamp : Json} {t : PyNumber}
    (value writerId : Json) (number : PyNumber.ofJson? timestamp = some t) :
    m.stamp value timestamp writerId =
      .ok ({ m with logicalClock := m.logicalClock.max t },
        ⟨value, t, if writerId = .null then .str m.nodeId else writerId⟩) := by
  unfold stamp
  split
  · cases number
  · rw [number]

/-! ### Well-typed records -/

section Typed

variable {m : SharedMemory Unit} {typed typed' : LWWMap}

/-- A map without a database stands for one whose records have integer timestamps and
string writers. -/
structure Represents (m : SharedMemory Unit) (typed : LWWMap) : Prop where
  nodeId : m.nodeId = typed.nodeId
  clock : m.logicalClock = .int typed.logicalClock
  state : ∀ key, m.state.get? key = (typed.state.get? key).map RawRecord.ofRecord

theorem Represents.store (represents : Represents m typed) (key : String) (r : Record) :
    (m.store inMemory key (.ofRecord r)).2 = none ∧
      Represents (m.store inMemory key (.ofRecord r)).1 (typed.store key r).1 := by
  -- Writing the same record keeps the two memories together.
  have written : Represents (m.write inMemory key (.ofRecord r)).1
      { typed with state := typed.state.set key r } := by
    refine ⟨represents.nodeId, represents.clock, ?_⟩
    intro other
    change (m.state.set key (.ofRecord r)).get? other = _
    rw [Dict.get?_set, Dict.get?_set]
    split_ifs
    · rfl
    · exact represents.state other
  have entry := represents.state key
  unfold SharedMemory.store LWWMap.store
  cases present : typed.state.get? key with
  | none =>
    rw [present, Option.map_none] at entry
    rw [entry]
    exact ⟨rfl, written⟩
  | some existing =>
    rw [present, Option.map_some] at entry
    rw [entry]
    dsimp only
    rw [RawRecord.supersedes_ofRecord]
    cases r.supersedes existing with
    | true => exact ⟨rfl, written⟩
    | false => exact ⟨rfl, represents⟩

/-- On well-typed arguments `set` is the `set` of the typed map. -/
theorem Represents.set (represents : Represents m typed) (key : String) (value : Json)
    (timestamp : Option ℤ) (writerId : Option String) :
    (m.set inMemory key value (timestamp.elim .null .int) (writerId.elim .null .str)).2 = none ∧
      Represents
        (m.set inMemory key value (timestamp.elim .null .int) (writerId.elim .null .str)).1
        (typed.set key value timestamp writerId) := by
  -- Both memories move the clock alike, whether or not a timestamp is given.
  have stamped : ∃ between, m.stamp value (timestamp.elim .null .int) (writerId.elim .null .str) =
      .ok (between, .ofRecord (typed.stamp value timestamp writerId).2) ∧
        Represents between (typed.stamp value timestamp writerId).1 := by
    cases timestamp with
    | none =>
      have clock : m.logicalClock.addOne = .int (typed.logicalClock + 1) := by
        rw [represents.clock]
        rfl
      refine ⟨{ m with logicalClock := m.logicalClock.addOne }, ?_, represents.nodeId, clock,
        represents.state⟩
      change Except.ok (_, RawRecord.mk value m.logicalClock.addOne (.str m.nodeId)) = _
      rw [clock, represents.nodeId]
      rfl
    | some t =>
      have clock : m.logicalClock.max (.int t) = .int (max typed.logicalClock t) := by
        rw [represents.clock, PyNumber.max_int]
      refine ⟨{ m with logicalClock := m.logicalClock.max (.int t) }, ?_, represents.nodeId, clock,
        represents.state⟩
      rw [Option.elim, stamp_of_number (t := .int t) _ _ rfl, represents.nodeId]
      cases writerId <;> rfl
  obtain ⟨between, stamped, represents'⟩ := stamped
  unfold SharedMemory.set
  rw [stamped]
  exact represents'.store key _

/-- A well-typed record has its three members. -/
theorem arguments_of_ofJson? {record : Json} {r : Record} (read : Record.ofJson? record = some r) :
    arguments record = .ok (r.value, .int r.timestamp, .str r.writerId) := by
  unfold Record.ofJson? at read
  split at read
  · rename_i value timestamp writerId hasValue hasTimestamp hasWriter
    cases read
    cases record with
    | obj members =>
      have lookups : members.lookup "value" = some value ∧
          members.lookup "timestamp" = some (.int timestamp) ∧
          members.lookup "writer_id" = some (.str writerId) := ⟨hasValue, hasTimestamp, hasWriter⟩
      simp [arguments, field, lookups, bind, Except.bind, pure, Except.pure]
    | _ => cases hasValue
  · cases read

/-- Merging well-typed records is the `merge` of the typed map. -/
theorem Represents.mergeItems (represents : Represents m typed) {items : List (String × Json)}
    (merged : typed.merge items = some typed') :
    ∃ m', m.mergeItems inMemory items = (m', none) ∧ Represents m' typed' := by
  -- The induction is on the items, as the merge takes them one after another.
  induction items generalizing m typed with
  | nil =>
    cases merged
    exact ⟨m, rfl, represents⟩
  | cons item rest ih =>
    obtain ⟨between, first, others⟩ := Option.bind_eq_some_iff.mp merged
    obtain ⟨r, read, rfl⟩ := Option.map_eq_some_iff.mp first
    have performed := represents.set item.1 r.value (some r.timestamp) (some r.writerId)
    have same : m.mergeRecord inMemory item =
        m.set inMemory item.1 r.value (.int r.timestamp) (.str r.writerId) := by
      rw [mergeRecord, arguments_of_ofJson? read]
    obtain ⟨m', merged', represents'⟩ := ih performed.2 others
    refine ⟨m', ?_, represents'⟩
    rw [SharedMemory.mergeItems, same]
    split
    · rename_i step eq
      change m.set inMemory item.1 r.value (.int r.timestamp) (.str r.writerId) = _ at eq
      have here := congrArg Prod.fst eq
      change _ = step at here
      rw [← here]
      exact merged'
    · rename_i step error eq
      have raised := performed.1
      change (m.set inMemory item.1 r.value (.int r.timestamp) (.str r.writerId)).2 = none
        at raised
      rw [eq] at raised
      cases raised

end Typed

/-! ### What one record can change -/

section Steps

variable {persist : Persist σ} {m m' : SharedMemory σ} {key other : String}
  {value timestamp writerId : Json} {record : RawRecord} {item : String × Json}
  {raised : Option MergeError}

/-- A record is written, or the entry stands, or a comparison raised. -/
theorem store_cases (persist : Persist σ) (m : SharedMemory σ) (key : String)
    (record : RawRecord) :
    m.store persist key record = m.write persist key record ∨
      m.store persist key record = (m, none) ∨
      m.store persist key record = (m, some .notComparable) := by
  unfold store
  split
  · exact .inl rfl
  · split
    · exact .inr (.inr rfl)
    · exact .inl rfl
    · exact .inr (.inl rfl)

/-- The first part of `set` changes the clock only. -/
theorem stamp_eq {result : SharedMemory σ × RawRecord}
    (stamped : m.stamp value timestamp writerId = .ok result) :
    result.1 = { m with logicalClock := result.1.logicalClock } := by
  unfold stamp at stamped
  split at stamped
  · cases stamped
    rfl
  · split at stamped
    · cases stamped
    · cases stamped
      rfl

/-- What a `set` leaves alone: the entries of other keys, and if it raises before the
database is asked, all entries and the rows. -/
structure Confined (m m' : SharedMemory σ) (key : String) (raised : Option MergeError) :
    Prop where
  nodeId : m'.nodeId = m.nodeId
  others : ∀ other ≠ key, m'.state.get? other = m.state.get? other
  refused : ∀ error, raised = some error → (∀ message, error ≠ .database message) →
    m'.state = m.state ∧ m'.rows = m.rows

theorem confined_write (persist : Persist σ) (m : SharedMemory σ) (key : String)
    (record : RawRecord) :
    Confined m (m.write persist key record).1 key (m.write persist key record).2 where
  nodeId := rfl
  others other ne := Dict.get?_set_of_ne ne
  refused error raised notDatabase := by
    obtain ⟨message, -, rfl⟩ := Option.map_eq_some_iff.mp raised
    exact absurd rfl (notDatabase message)

theorem confined_set (persist : Persist σ) (m : SharedMemory σ) (key : String)
    (value timestamp writerId : Json) :
    Confined m (m.set persist key value timestamp writerId).1 key
      (m.set persist key value timestamp writerId).2 := by
  unfold set
  cases stamped : m.stamp value timestamp writerId with
  | error error => exact ⟨rfl, fun _ _ => rfl, fun _ _ _ => ⟨rfl, rfl⟩⟩
  | ok result =>
    have same := stamp_eq stamped
    obtain ⟨between, record⟩ := result
    dsimp only at same ⊢
    rcases store_cases persist between key record with eq | eq | eq <;> rw [eq]
    · obtain ⟨nodeId, others, refused⟩ := confined_write persist between key record
      rw [same] at nodeId others refused
      exact ⟨by rw [same]; exact nodeId, by rw [same]; exact others, by rw [same]; exact refused⟩
    · rw [same]
      exact ⟨rfl, fun _ _ => rfl, fun _ _ _ => ⟨rfl, rfl⟩⟩
    · rw [same]
      exact ⟨rfl, fun _ _ => rfl, fun _ _ _ => ⟨rfl, rfl⟩⟩

theorem confined_mergeRecord (persist : Persist σ) (m : SharedMemory σ) (item : String × Json) :
    Confined m (m.mergeRecord persist item).1 item.1 (m.mergeRecord persist item).2 := by
  unfold mergeRecord
  split
  · exact ⟨rfl, fun _ _ => rfl, fun _ _ _ => ⟨rfl, rfl⟩⟩
  · exact confined_set persist m item.1 _ _ _

/-- A merge leaves alone the keys it has no record for. -/
theorem get?_mergeItems (persist : Persist σ) (m : SharedMemory σ) {items : List (String × Json)}
    (absent : ∀ item ∈ items, item.1 ≠ other) :
    (m.mergeItems persist items).1.state.get? other = m.state.get? other := by
  induction items generalizing m with
  | nil => rfl
  | cons item rest ih =>
    have first := (confined_mergeRecord persist m item).others other
      (Ne.symm (absent item List.mem_cons_self))
    rw [mergeItems]
    split
    · rename_i between eq
      rw [eq] at first
      rw [ih between fun later member => absent later (List.mem_cons_of_mem _ member)]
      exact first
    · rename_i between error eq
      rw [eq] at first
      exact first

end Steps

/-! ### Where a merge stops -/

/-- A merge that returns has merged every record, one after the other. -/
theorem mergeItems_append {persist : Persist σ} {m m' : SharedMemory σ}
    {before after : List (String × Json)} (merged : m.mergeItems persist before = (m', none)) :
    m.mergeItems persist (before ++ after) = m'.mergeItems persist after := by
  induction before generalizing m with
  | nil =>
    cases merged
    rfl
  | cons item rest ih =>
    rw [List.cons_append, mergeItems]
    rw [mergeItems] at merged
    split
    · rename_i between eq
      rw [eq] at merged
      exact ih merged
    · rename_i between error eq
      rw [eq] at merged
      cases merged

/-- A merge merges all its records, or all before the first one that raises. -/
theorem mergeItems_cases (persist : Persist σ) (m : SharedMemory σ)
    (items : List (String × Json)) :
    (m.mergeItems persist items).2 = none ∨
      ∃ before item after m₁ error, items = before ++ item :: after ∧
        m.mergeItems persist before = (m₁, none) ∧
        (m₁.mergeRecord persist item).2 = some error ∧
        m.mergeItems persist items = m₁.mergeRecord persist item := by
  induction items generalizing m with
  | nil => exact .inl rfl
  | cons item rest ih =>
    rw [mergeItems]
    split
    · rename_i between eq
      rcases ih between with returned | ⟨before, failing, after, m₁, error, rfl, merged, raised,
        rest⟩
      · exact .inl returned
      · refine .inr ⟨item :: before, failing, after, m₁, error, rfl, ?_, raised, rest⟩
        rw [mergeItems, eq]
        exact merged
    · rename_i between error eq
      exact .inr ⟨[], item, rest, m, error, rfl, rfl, by rw [eq], eq.symm⟩

/-- A merge that returns can be cut at every record. -/
theorem mergeItems_split {persist : Persist σ} {m m' : SharedMemory σ}
    {before after : List (String × Json)}
    (merged : m.mergeItems persist (before ++ after) = (m', none)) :
    ∃ m₀, m.mergeItems persist before = (m₀, none) ∧ m₀.mergeItems persist after = (m', none) := by
  rcases mergeItems_cases persist m before with
    returned | ⟨first, item, rest, m₁, error, rfl, merged', raised, stopped⟩
  · refine ⟨(m.mergeItems persist before).1, Prod.ext rfl returned, ?_⟩
    rw [← mergeItems_append (Prod.ext rfl returned)]
    exact merged
  · -- A record that raises would have stopped the whole merge.
    rw [List.append_assoc, List.cons_append, mergeItems_append merged', mergeItems] at merged
    split at merged
    · rename_i between eq
      rw [eq] at raised
      cases raised
    · cases merged

/-- The keys of a state are distinct. -/
theorem key_ne_of_split {state : Dict String Json} {before after : List (String × Json)}
    {item : String × Json} (split : state.items = before ++ item :: after) :
    ∀ later ∈ after, later.1 ≠ item.1 := by
  have distinct := state.nodupKeys
  rw [split, List.map_append, List.map_cons] at distinct
  have tail := (List.nodup_append.mp distinct).2.1
  intro later member same
  exact (List.nodup_cons.mp tail).1 (same ▸ List.mem_map_of_mem member)

theorem key_ne_of_split_left {state : Dict String Json} {before after : List (String × Json)}
    {item : String × Json} (split : state.items = before ++ item :: after) :
    ∀ earlier ∈ before, earlier.1 ≠ item.1 ∧ ∀ later ∈ after, earlier.1 ≠ later.1 := by
  have distinct := state.nodupKeys
  rw [split, List.map_append, List.map_cons] at distinct
  have apart := (List.nodup_append.mp distinct).2.2
  intro earlier member
  have first := List.mem_map_of_mem (f := Prod.fst) member
  refine ⟨apart _ first _ List.mem_cons_self, ?_⟩
  intro later member'
  exact apart _ first _ (List.mem_cons_of_mem _ (List.mem_map_of_mem member'))

/-- A state sync that returns has merged every record of the payload, each after the
ones before it. One that raises has merged the records before the first one whose
`set` raises; no record after it is merged, and its own changes no other entry, and
no entry and no row at all unless it was the database that refused it. -/
theorem state_sync_stops {persist : Persist σ} {m m' : SharedMemory σ} {p : CRDTSyncPayload}
    {raised : Option MergeError} (lwwMap : p.crdtType = "LWW-Map")
    (synced : m.handleStateSync persist (.crdtSync p) = (m', raised)) :
    (raised = none → ∀ before item after, p.state.items = before ++ item :: after →
      ∃ m₀, m.mergeItems persist before = (m₀, none) ∧
        (m₀.mergeRecord persist item).2 = none ∧
        m'.state.get? item.1 = (m₀.mergeRecord persist item).1.state.get? item.1) ∧
    ∀ error, raised = some error → ∃ before item after m₁,
      p.state.items = before ++ item :: after ∧
      m.mergeItems persist before = (m₁, none) ∧
      m₁.mergeRecord persist item = (m', some error) ∧
      (∀ later ∈ after, m'.state.get? later.1 = m.state.get? later.1) ∧
      (∀ other ≠ item.1, m'.state.get? other = m₁.state.get? other) ∧
      ((∀ message, error ≠ .database message) → m'.state = m₁.state ∧ m'.rows = m₁.rows) := by
  have merged : m.mergeItems persist p.state.items = (m', raised) := by
    rw [handleStateSync, if_pos lwwMap] at synced
    exact synced
  constructor
  -- The items before and after the one in question leave its key alone.
  · rintro rfl before item after split
    rw [split] at merged
    obtain ⟨m₀, first, rest⟩ := mergeItems_split merged
    refine ⟨m₀, first, ?_⟩
    rw [mergeItems] at rest
    split at rest
    · rename_i between eq
      have kept := get?_mergeItems persist between (key_ne_of_split split)
      rw [rest] at kept
      exact ⟨by rw [eq], by rw [eq]; exact kept⟩
    · cases rest
  · rintro error rfl
    -- The merge raised, so it stopped at an item, and the later ones were not reached.
    rcases mergeItems_cases persist m p.state.items with
      returned | ⟨before, item, after, m₁, error', split, first, -, stopped⟩
    · rw [merged] at returned
      cases returned
    · rw [merged] at stopped
      have confined := confined_mergeRecord persist m₁ item
      rw [← stopped] at confined
      refine ⟨before, item, after, m₁, split, first, stopped.symm, ?_, confined.others,
        confined.refused error rfl⟩
      intro later member
      rw [confined.others _ (key_ne_of_split split later member)]
      have untouched := get?_mergeItems persist m fun earlier before =>
        (key_ne_of_split_left split earlier before).2 later member
      rw [first] at untouched
      exact untouched

/-- A database that keeps what is written to it. -/
def logRows : Persist (List (String × RawRecord)) :=
  fun rows key record => (rows ++ [(key, record)], none)

/-- A payload with a good record and one without a timestamp. -/
def halfGood : CRDTSyncPayload where
  crdtType := "LWW-Map"
  state := Dict.ofItems [("a", Record.toJson ⟨.int 1, 5, "w"⟩),
    ("b", .obj [("value", .int 2), ("writer_id", .str "w")])]
  vectorClock := Dict.empty

/-- The second record stops the merge. -/
theorem state_sync_stops_halfGood :
    ∃ m' m₁ : SharedMemory (List (String × RawRecord)),
      (init "n" []).handleStateSync logRows (.crdtSync halfGood) =
        (m', some (.keyError "timestamp")) ∧
      m'.state = m₁.state ∧ m'.rows = m₁.rows := by
  have synced : (init "n" []).handleStateSync logRows (.crdtSync halfGood) =
      (_, some (.keyError "timestamp")) := Prod.ext rfl (by decide)
  obtain ⟨before, item, after, m₁, -, -, -, -, -, refused⟩ :=
    (state_sync_stops rfl synced).2 (.keyError "timestamp") rfl
  exact ⟨_, m₁, synced, refused (by simp)⟩

/-- The good record stays merged, with the clock and the row it brought. -/
theorem state_sync_not_atomic :
    ((init "n" []).handleStateSync logRows (.crdtSync halfGood)).2 =
        some (.keyError "timestamp") ∧
      ((init "n" []).handleStateSync logRows (.crdtSync halfGood)).1.state.get? "a" =
        some ⟨.int 1, .int 5, .str "w"⟩ ∧
      ((init "n" []).handleStateSync logRows (.crdtSync halfGood)).1.logicalClock = .int 5 ∧
      ((init "n" []).handleStateSync logRows (.crdtSync halfGood)).1.rows =
        [("a", ⟨.int 1, .int 5, .str "w"⟩)] := by
  refine ⟨by decide, by decide, by decide, by decide⟩

end SharedMemory

end AgentTelepathy
