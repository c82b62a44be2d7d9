import AgentTelepathy.Memory.StateSync

/-!
# Records that merge as they are

`merge` calls the entry point of local writes, which takes a null timestamp for a new
local write and a null writer for the node itself. So a record with a null member is
stored as something that occurs in no state, and differently by every node and every
time. Records without null members are stored literally or not at all: a second merge
of them changes nothing, and the id of the node does not matter.
-/

namespace AgentTelepathy

open Foundation

namespace SharedMemory

variable {σ : Type} {persist : Persist σ} {m m' n : SharedMemory σ} {item : String × Json}
  {items : List (String × Json)} {state : Dict String Json} {r : RawRecord}

/-! ### Reading records -/

theorem field_eq_ok_iff {record value : Json} {name : String} :
    field record name = .ok value ↔ record.get? name = some value := by
  cases record with
  | obj members =>
    have get? : (Json.obj members).get? name = members.lookup name := rfl
    rw [field, get?]
    cases members.lookup name <;> simp
  | _ => simp [field, Json.get?]

/-- The arguments of a record are its three members. -/
theorem arguments_eq_ok_iff {record value timestamp writerId : Json} :
    arguments record = .ok (value, timestamp, writerId) ↔
      record.get? "value" = some value ∧ record.get? "timestamp" = some timestamp ∧
        record.get? "writer_id" = some writerId := by
  rw [← field_eq_ok_iff, ← field_eq_ok_iff, ← field_eq_ok_iff, arguments]
  cases field record "value" with
  | error error => simp [bind, Except.bind]
  | ok v =>
    cases field record "timestamp" with
    | error error => simp [bind, Except.bind]
    | ok t =>
      cases field record "writer_id" with
      | error error => simp [bind, Except.bind]
      | ok w => simp [bind, Except.bind, pure, Except.pure]

/-- The record has all members, and its timestamp is null or a number. -/
def Mergeable (record : Json) : Prop :=
  ∃ value timestamp writerId, record.get? "value" = some value ∧
    record.get? "timestamp" = some timestamp ∧ record.get? "writer_id" = some writerId ∧
    (timestamp = .null ∨ ∃ t, PyNumber.ofJson? timestamp = some t)

/-- Neither the timestamp nor the writer of the record is null. -/
def NonNull (record : Json) : Prop :=
  record.get? "timestamp" ≠ some .null ∧ record.get? "writer_id" ≠ some .null

/-- The record stands literally in a JSON value. -/
structure LiteralIn (r : RawRecord) (record : Json) : Prop where
  value : record.get? "value" = some r.value
  timestamp : record.get? "timestamp" = some r.timestamp.toJson
  writerId : record.get? "writer_id" = some r.writerId

/-- A record that does not raise at once has its members and a usable timestamp. -/
theorem mergeable_of_mergeRecord (merged : (m.mergeRecord persist item).2 = none) :
    Mergeable item.2 := by
  unfold mergeRecord at merged
  split at merged
  · cases merged
  · rename_i value timestamp writerId read
    obtain ⟨hasValue, hasTimestamp, hasWriter⟩ := arguments_eq_ok_iff.mp read
    refine ⟨value, timestamp, writerId, hasValue, hasTimestamp, hasWriter, ?_⟩
    unfold set stamp at merged
    split at merged
    · cases merged
    · rename_i stamped
      split at stamped
      · exact .inl rfl
      · split at stamped
        · cases stamped
        · rename_i t number
          exact .inr ⟨t, number⟩

/-- A mergeable record without nulls is a literal record. -/
theorem exists_literal (mergeable : Mergeable item.2) (nonNull : NonNull item.2) :
    ∃ r, LiteralIn r item.2 ∧ r.writerId ≠ .null := by
  obtain ⟨value, timestamp, writerId, hasValue, hasTimestamp, hasWriter, usable⟩ := mergeable
  rcases usable with rfl | ⟨t, number⟩
  · exact absurd hasTimestamp nonNull.1
  · refine ⟨⟨value, t, writerId⟩, ⟨hasValue, ?_, hasWriter⟩, ?_⟩
    · rw [hasTimestamp, PyNumber.ofJson?_eq_some_iff.mp number]
    · rintro rfl
      exact nonNull.2 hasWriter

/-- Merging a literal record advances the clock and stores the record as it is. -/
theorem mergeRecord_of_literal (literal : LiteralIn r item.2) (writer : r.writerId ≠ .null) :
    m.mergeRecord persist item =
      { m with logicalClock := m.logicalClock.max r.timestamp }.store persist item.1 r := by
  have read := arguments_eq_ok_iff.mpr ⟨literal.value, literal.timestamp, literal.writerId⟩
  have stamped := stamp_of_number (m := m) r.value r.writerId
    (PyNumber.ofJson?_toJson r.timestamp)
  rw [if_neg writer] at stamped
  rw [mergeRecord, read]
  simp only [set, stamped]

/-! ### Records that are stored literally -/

/-- What a merge of a state must not do: invent a write, change anything when it is
repeated, or depend on the id of the node. -/
structure Faithful (persist : Persist σ) (m m' : SharedMemory σ) (state : Dict String Json) :
    Prop where
  literal : ∀ key r, m'.state.get? key = some r →
    m.state.get? key = some r ∨ ∃ record, state.get? key = some record ∧ LiteralIn r record
  settled : (m'.merge persist state).1 = m'
  independent : ∀ nodeId, { m with nodeId := nodeId }.merge persist state =
    ({ m' with nodeId := nodeId }, none)

/-- A record that would change nothing: the entry of its key stands and the clock is
not behind its timestamp. -/
structure Settles (m : SharedMemory σ) (key : String) (r : RawRecord) : Prop where
  stands : ∃ existing, m.state.get? key = some existing ∧ r.supersedes existing ≠ some true
  clock : r.timestamp.gt m.logicalClock = false

theorem mergeRecord_of_settles (persist : Persist σ) (literal : LiteralIn r item.2)
    (writer : r.writerId ≠ .null)
    (settles : Settles m item.1 r) : (m.mergeRecord persist item).1 = m := by
  obtain ⟨existing, present, stands⟩ := settles.stands
  have clock : m.logicalClock.max r.timestamp = m.logicalClock := by
    rw [PyNumber.max, settles.clock, if_neg Bool.false_ne_true]
  rw [mergeRecord_of_literal literal writer, clock, store, present]
  dsimp only
  split
  · rfl
  · contradiction
  · rfl

/-- A literal record that was merged settles. -/
theorem settles_of_mergeRecord (literal : LiteralIn r item.2) (writer : r.writerId ≠ .null)
    (merged : m.mergeRecord persist item = (m', none)) : Settles m' item.1 r := by
  rw [mergeRecord_of_literal literal writer] at merged
  have written (clock : PyNumber)
      (eq : { m with logicalClock := clock }.write persist item.1 r = (m', none)) :
      (∃ existing, m'.state.get? item.1 = some existing ∧ r.supersedes existing ≠ some true) ∧
        m'.logicalClock = clock := by
    obtain rfl := (Prod.ext_iff.mp eq).1
    exact ⟨⟨r, Dict.get?_set_self _ _ _, r.supersedes_self⟩, rfl⟩
  have clock {c : PyNumber} (same : c = m.logicalClock.max r.timestamp) :
      r.timestamp.gt c = false := by
    rw [same]
    exact PyNumber.gt_max_right _ _
  -- The record is stored if there is none, or if it supersedes the one that stands.
  unfold store at merged
  split at merged
  · obtain ⟨stands, same⟩ := written _ merged
    exact ⟨stands, clock same⟩
  · rename_i existing present
    split at merged
    · cases merged
    · obtain ⟨stands, same⟩ := written _ merged
      exact ⟨stands, clock same⟩
    · rename_i stands
      cases merged
      exact ⟨⟨existing, present, by rw [stands]; simp⟩, clock rfl⟩

/-- A settled record stays settled while literal records of other keys are merged. -/
theorem Settles.mergeRecord {key : String} {other : RawRecord} (settles : Settles m key other)
    (persist : Persist σ) (literal : LiteralIn r item.2) (writer : r.writerId ≠ .null)
    (ne : key ≠ item.1) :
    Settles (m.mergeRecord persist item).1 key other := by
  have confined := confined_mergeRecord persist m item
  have clock : (m.mergeRecord persist item).1.logicalClock =
      m.logicalClock.max r.timestamp := by
    rw [mergeRecord_of_literal literal writer]
    rcases store_cases persist { m with logicalClock := m.logicalClock.max r.timestamp } item.1 r
      with eq | eq | eq <;> rw [eq]
    rfl
  refine ⟨?_, ?_⟩
  · rw [confined.others key ne]
    exact settles.stands
  · rw [clock]
    exact PyNumber.gt_max_of_gt settles.clock

/-- A literal record leaves an entry or stores itself. -/
theorem get?_mergeRecord_of_literal (persist : Persist σ) (literal : LiteralIn r item.2)
    (writer : r.writerId ≠ .null) :
    (m.mergeRecord persist item).1.state.get? item.1 = m.state.get? item.1 ∨
      (m.mergeRecord persist item).1.state.get? item.1 = some r := by
  rw [mergeRecord_of_literal literal writer]
  rcases store_cases persist { m with logicalClock := m.logicalClock.max r.timestamp } item.1 r
    with eq | eq | eq <;> rw [eq]
  · exact .inr (Dict.get?_set_self _ _ _)
  · exact .inl rfl
  · exact .inl rfl

/-- The node's id plays no part in merging a literal record. -/
theorem mergeRecord_withNodeId (persist : Persist σ) (literal : LiteralIn r item.2)
    (writer : r.writerId ≠ .null) (nodeId : String) :
    { m with nodeId := nodeId }.mergeRecord persist item =
      ({ (m.mergeRecord persist item).1 with nodeId := nodeId },
        (m.mergeRecord persist item).2) := by
  rw [mergeRecord_of_literal literal writer, mergeRecord_of_literal literal writer]
  unfold store
  dsimp only
  split
  · rfl
  · split <;> rfl

/-- The records of a list are literal. -/
def AllLiteral (items : List (String × Json)) : Prop :=
  ∀ item ∈ items, ∃ r, LiteralIn r item.2 ∧ r.writerId ≠ .null

/-- Merging settled records again changes nothing. -/
theorem mergeItems_of_settled
    (settled : ∀ item ∈ items, ∃ r, LiteralIn r item.2 ∧ r.writerId ≠ .null ∧
      Settles m item.1 r) : (m.mergeItems persist items).1 = m := by
  induction items with
  | nil => rfl
  | cons item rest ih =>
    obtain ⟨r, literal, writer, settles⟩ := settled item List.mem_cons_self
    have same := mergeRecord_of_settles persist literal writer settles
    rw [mergeItems]
    split
    · rename_i between eq
      rw [eq] at same
      subst same
      exact ih fun later member => settled later (List.mem_cons_of_mem _ member)
    · rename_i between error eq
      rw [eq] at same
      exact same

/-- A settled record stays settled while literal records of other keys are merged. -/
theorem Settles.mergeItems {key : String} (settles : Settles m key r) (persist : Persist σ)
    (all : AllLiteral items)
    (absent : ∀ item ∈ items, item.1 ≠ key) :
    Settles (m.mergeItems persist items).1 key r := by
  induction items generalizing m with
  | nil => exact settles
  | cons item rest ih =>
    obtain ⟨s, literal, writer⟩ := all item List.mem_cons_self
    have first := settles.mergeRecord persist literal writer
      (Ne.symm (absent item List.mem_cons_self))
    rw [SharedMemory.mergeItems]
    split
    · rename_i between eq
      rw [eq] at first
      exact ih first (fun later member => all later (List.mem_cons_of_mem _ member))
        fun later member => absent later (List.mem_cons_of_mem _ member)
    · rename_i between error eq
      rw [eq] at first
      exact first

/-- Literal records with distinct keys settle when they are merged. -/
theorem settled_of_mergeItems (all : AllLiteral items) (distinct : (items.map Prod.fst).Nodup)
    (merged : m.mergeItems persist items = (m', none)) :
    ∀ item ∈ items, ∃ r, LiteralIn r item.2 ∧ r.writerId ≠ .null ∧ Settles m' item.1 r := by
  induction items generalizing m with
  | nil =>
    intro item member
    cases member
  | cons item rest ih =>
    have allRest : AllLiteral rest := fun later member => all later (List.mem_cons_of_mem _ member)
    rw [List.map_cons, List.nodup_cons] at distinct
    rw [mergeItems] at merged
    split at merged
    · rename_i between eq
      intro other member
      rcases List.mem_cons.mp member with rfl | later
      · obtain ⟨r, literal, writer⟩ := all other List.mem_cons_self
        have settles := settles_of_mergeRecord literal writer eq
        have kept := settles.mergeItems persist allRest fun item member same =>
          distinct.1 (same ▸ List.mem_map_of_mem member)
        rw [merged] at kept
        exact ⟨r, literal, writer, kept⟩
      · exact ih allRest distinct.2 merged other later
    · cases merged

/-- What is stored after literal records were merged was stored before, or is one of them. -/
theorem literal_of_mergeItems (all : AllLiteral items) {key : String}
    (stored : (m.mergeItems persist items).1.state.get? key = some r) :
    m.state.get? key = some r ∨ ∃ item ∈ items, item.1 = key ∧ LiteralIn r item.2 := by
  induction items generalizing m with
  | nil => exact .inl stored
  | cons item rest ih =>
    obtain ⟨s, literal, writer⟩ := all item List.mem_cons_self
    -- What the first record leaves under the key.
    have first (here : (m.mergeRecord persist item).1.state.get? key = some r) :
        m.state.get? key = some r ∨ item.1 = key ∧ LiteralIn r item.2 := by
      by_cases same : key = item.1
      · subst same
        rcases get?_mergeRecord_of_literal (m := m) persist literal writer with
          eq | eq
        · exact .inl (eq.symm.trans here)
        · obtain rfl := Option.some.inj (eq.symm.trans here)
          exact .inr ⟨rfl, literal⟩
      · exact .inl (((confined_mergeRecord persist m item).others key same).symm.trans here)
    have found (here : (m.mergeRecord persist item).1.state.get? key = some r) :
        m.state.get? key = some r ∨ ∃ i ∈ item :: rest, i.1 = key ∧ LiteralIn r i.2 :=
      (first here).imp_right fun here => ⟨item, List.mem_cons_self, here⟩
    rw [mergeItems] at stored
    split at stored
    · rename_i between eq
      rw [eq] at found
      rcases ih (fun later member => all later (List.mem_cons_of_mem _ member)) stored with
        before | ⟨later, member, here⟩
      · exact found before
      · exact .inr ⟨later, List.mem_cons_of_mem _ member, here⟩
    · rename_i between error eq
      rw [eq] at found
      exact found stored

/-- The node's id plays no part in merging literal records. -/
theorem mergeItems_withNodeId (persist : Persist σ) (all : AllLiteral items) (nodeId : String) :
    { m with nodeId := nodeId }.mergeItems persist items =
      ({ (m.mergeItems persist items).1 with nodeId := nodeId },
        (m.mergeItems persist items).2) := by
  induction items generalizing m with
  | nil => rfl
  | cons item rest ih =>
    obtain ⟨s, literal, writer⟩ := all item List.mem_cons_self
    have first := mergeRecord_withNodeId (m := m) persist literal writer nodeId
    rw [mergeItems, mergeItems, first]
    cases eq : m.mergeRecord persist item with
    | mk between raised =>
      cases raised with
      | none => exact ih fun later member => all later (List.mem_cons_of_mem _ member)
      | some error => rfl

/-! ### Records with null members -/

/-- In memory, a mergeable record of a new key is stored, and under the id of the
node if its timestamp or writer is null. -/
theorem mergeRecord_of_absent {m : SharedMemory Unit} (mergeable : Mergeable item.2)
    (absent : m.state.get? item.1 = none) :
    ∃ m' r, m.mergeRecord inMemory item = (m', none) ∧ m'.nodeId = m.nodeId ∧
      m'.state.get? item.1 = some r ∧ (¬ NonNull item.2 → r.writerId = .str m.nodeId) := by
  obtain ⟨value, timestamp, writerId, hasValue, hasTimestamp, hasWriter, usable⟩ := mergeable
  -- A writer that is null is replaced by the id of this node.
  have stamped : ∃ between r, m.stamp value timestamp writerId = .ok (between, r) ∧
      (¬ NonNull item.2 → r.writerId = .str m.nodeId) := by
    rcases usable with rfl | ⟨t, number⟩
    · exact ⟨_, _, rfl, fun _ => rfl⟩
    · refine ⟨_, _, stamp_of_number value writerId number, fun null => ?_⟩
      have isNull : writerId = .null := by
        by_contra present
        refine null ⟨?_, ?_⟩
        · rw [hasTimestamp]
          rintro same
          cases same
          cases number
        · rw [hasWriter]
          exact fun same => present (Option.some.inj same)
      exact if_pos isNull
  obtain ⟨between, r, stamped, writer⟩ := stamped
  have same := stamp_eq stamped
  dsimp only at same
  have absent' : between.state.get? item.1 = none := by
    rw [same]
    exact absent
  refine ⟨{ between with state := between.state.set item.1 r }, r, ?_, ?_, ?_, writer⟩
  · rw [mergeRecord, arguments_eq_ok_iff.mpr ⟨hasValue, hasTimestamp, hasWriter⟩]
    simp only [set, stamped, store, absent']
    rfl
  · rw [same]
  · exact Dict.get?_set_self _ _ _

/-- In memory, mergeable records of new keys merge, and every one with a null member
is stored under the id of the node. -/
theorem mergeItems_of_absent {m : SharedMemory Unit} (mergeable : ∀ item ∈ items, Mergeable item.2)
    (distinct : (items.map Prod.fst).Nodup) (absent : ∀ item ∈ items, m.state.get? item.1 = none) :
    ∃ m', m.mergeItems inMemory items = (m', none) ∧
      ∀ item ∈ items, ¬ NonNull item.2 →
        ∃ r, m'.state.get? item.1 = some r ∧ r.writerId = .str m.nodeId := by
  induction items generalizing m with
  | nil => exact ⟨m, rfl, fun item member => by cases member⟩
  | cons item rest ih =>
    rw [List.map_cons, List.nodup_cons] at distinct
    obtain ⟨between, r, first, nodeId, entry, writer⟩ :=
      mergeRecord_of_absent (mergeable item List.mem_cons_self) (absent item List.mem_cons_self)
    -- No later item has this key, so its record stands to the end.
    have others : ∀ later ∈ rest, later.1 ≠ item.1 := fun later member same =>
      distinct.1 (same ▸ List.mem_map_of_mem member)
    have confined := confined_mergeRecord inMemory m item
    rw [first] at confined
    obtain ⟨m', merged, nulls⟩ := ih (m := between)
      (fun later member => mergeable later (List.mem_cons_of_mem _ member)) distinct.2
      fun later member => (confined.others _ (others later member)).trans
        (absent later (List.mem_cons_of_mem _ member))
    refine ⟨m', ?_, ?_⟩
    · rw [mergeItems, first]
      exact merged
    · intro other member null
      rcases List.mem_cons.mp member with rfl | later
      · have kept := get?_mergeItems inMemory between others
        rw [merged] at kept
        exact ⟨r, kept.trans entry, writer null⟩
      · rw [← nodeId]
        exact nulls other later null

/-- For a state, every merge that returns, into every map, invents no write, changes
nothing when it is repeated and does not depend on the id of the node exactly when no
record of the state has a null timestamp or writer, or when one of them always raises. -/
theorem merge_faithful_iff (state : Dict String Json) :
    (∀ (σ : Type) (persist : Persist σ) (m m' : SharedMemory σ),
      m.merge persist state = (m', none) → Faithful persist m m' state) ↔
      (∀ item ∈ state.items, NonNull item.2) ∨ ∃ item ∈ state.items, ¬ Mergeable item.2 := by
  constructor
  · intro faithful
    by_contra failing
    obtain ⟨hasNull, mergeable⟩ := not_or.mp failing
    have mergeable' : ∀ item ∈ state.items, Mergeable item.2 := fun item member =>
      Classical.byContradiction fun un => mergeable ⟨item, member, un⟩
    obtain ⟨item, hasNull⟩ := Classical.not_forall.mp hasNull
    obtain ⟨member, null⟩ := Classical.not_imp.mp hasNull
    -- Two nodes with different ids merge the state into empty maps.
    have empty (nodeId : String) := mergeItems_of_absent (m := init nodeId ()) mergeable'
      state.nodupKeys fun _ _ => rfl
    obtain ⟨m', merged, nulls⟩ := empty "a"
    obtain ⟨n', merged', nulls'⟩ := empty "b"
    have same := (faithful Unit inMemory _ _ merged).independent "b"
    have same' : n' = { m' with nodeId := "b" } := by
      have both : (n', (none : Option MergeError)) = ({ m' with nodeId := "b" }, none) :=
        merged'.symm.trans same
      exact (Prod.ext_iff.mp both).1
    obtain ⟨r, entry, writer⟩ := nulls item member null
    obtain ⟨r', entry', writer'⟩ := nulls' item member null
    have one : r = r' := by
      rw [same'] at entry'
      exact Option.some.inj (entry.symm.trans entry')
    rw [one, writer'] at writer
    exact absurd writer (by simp [init])
  · intro condition σ persist m m' merged
    have nonNull : ∀ item ∈ state.items, NonNull item.2 := by
      rcases condition with nonNull | ⟨item, member, unmergeable⟩
      · exact nonNull
      · -- Such a merge raises at this record, if not before.
        obtain ⟨before, after, split⟩ := List.append_of_mem member
        rw [merge, split] at merged
        obtain ⟨m₀, -, rest⟩ := mergeItems_split merged
        rw [mergeItems] at rest
        split at rest
        · rename_i between eq
          exact absurd (mergeable_of_mergeRecord (by rw [eq])) unmergeable
        · cases rest
    have all : AllLiteral state.items := by
      intro item member
      obtain ⟨before, after, split⟩ := List.append_of_mem member
      have merged' := merged
      rw [merge, split] at merged'
      obtain ⟨m₀, -, rest⟩ := mergeItems_split merged'
      rw [mergeItems] at rest
      split at rest
      · rename_i between eq
        exact exists_literal (mergeable_of_mergeRecord (by rw [eq])) (nonNull item member)
      · cases rest
    have result : (m.mergeItems persist state.items).1 = m' := by
      rw [show m.mergeItems persist state.items = (m', none) from merged]
    refine ⟨?_, ?_, ?_⟩
    · intro key r stored
      rw [← result] at stored
      rcases literal_of_mergeItems all stored with before | ⟨item, member, rfl, literal⟩
      · exact .inl before
      · exact .inr ⟨item.2, Dict.get?_eq_some_iff.mpr member, literal⟩
    · exact mergeItems_of_settled (settled_of_mergeItems all state.nodupKeys merged)
    · intro nodeId
      have same := mergeItems_withNodeId (m := m) persist all nodeId
      rw [show m.mergeItems persist state.items = (m', none) from merged] at same
      exact same

/-- A state whose only record has a null timestamp. -/
def unstamped : Dict String Json :=
  Dict.ofItems [("x", .obj [("value", .int 1), ("timestamp", .null), ("writer_id", .str "w")])]

/-- The record is stored under a stamp that it does not have, under another one when it
is merged again, and under another writer by another node. -/
theorem merge_invents :
    ∃ a a' b : SharedMemory Unit, (init "a" ()).merge inMemory unstamped = (a, none) ∧
      a.state.get? "x" = some ⟨.int 1, .int 1, .str "a"⟩ ∧
      (∀ record, unstamped.get? "x" = some record →
        ¬ LiteralIn ⟨.int 1, .int 1, .str "a"⟩ record) ∧
      a.merge inMemory unstamped = (a', none) ∧
      a'.state.get? "x" = some ⟨.int 1, .int 2, .str "a"⟩ ∧
      (init "b" ()).merge inMemory unstamped = (b, none) ∧
      b.state.get? "x" = some ⟨.int 1, .int 1, .str "b"⟩ := by
  refine ⟨_, _, _, Prod.ext rfl (by decide), by decide, ?_, Prod.ext rfl (by decide), by decide,
    Prod.ext rfl (by decide), by decide⟩
  intro record present literal
  have timestamp := literal.timestamp
  have only : record = .obj [("value", .int 1), ("timestamp", .null), ("writer_id", .str "w")] :=
    Option.some.inj (present.symm.trans (by decide))
  rw [only] at timestamp
  exact absurd timestamp (by decide)

end SharedMemory

end AgentTelepathy
