import Mathlib.Data.Prod.Lex
import AgentTelepathy.Foundation.Comparison
import AgentTelepathy.Foundation.JsonRoundTrip

/-!
# Python objects and their JSON texts

`json.dumps` writes the members of a dictionary in the order of its keys as objects. A
typed emitter writes them as they stand, writes null for a float that is not finite, and
has other names for some keys. What it wrote reads back as JSON data, whose sorted text is
in the order of the names. The two texts of an object agree exactly if all of its floats
are finite and the keys of each dictionary stand in the order of their names.
-/

namespace Foundation

/-! ### Keys -/

/-- A dictionary key that `json.dumps` writes. -/
inductive PyKey
  | none
  | number (x : PyNumber)
  | str (s : String)
deriving DecidableEq

namespace PyKey

/-- The name that `json.dumps` writes for a key. -/
def dumps : PyKey → String
  | .none => "null"
  | .number (.bool b) => if b then "true" else "false"
  | .number (.int n) => String.ofList (JsonText.intText n)
  | .number (.float f) => String.ofList (Float64.repr f)
  | .str s => s

/-- The name that the emitter writes for a key: `str(key)`, but for Booleans. -/
def emit : PyKey → String
  | .none => "None"
  | .number (.float (.infinite neg)) => if neg then "-inf" else "inf"
  | .number (.float .nan) => "nan"
  | k => k.dumps

/-- `j < k`; nothing where it raises. -/
def lt? : PyKey → PyKey → Option Bool
  | .number x, .number y => some (y.gt x)
  | .str s, .str t => some (s < t)
  | _, _ => Option.none

/-- `j != k`. -/
def differs : PyKey → PyKey → Bool
  | .none, .none => false
  | .number x, .number y => !x.eq y
  | .str s, .str t => s ≠ t
  | _, _ => true

/-- A key with one name: not `None` and not a float that is not finite. -/
def Plain : PyKey → Prop
  | .none => False
  | .number (.float (.infinite _)) => False
  | .number (.float .nan) => False
  | _ => True

/-- Two keys are in the order of their names. -/
def Aligned (j k : PyKey) : Prop :=
  j.lt? k = some true ∧ j.dumps < k.dumps ∨ k.lt? j = some true ∧ k.dumps < j.dumps

variable {j k : PyKey}

theorem Aligned.symm (aligned : j.Aligned k) : k.Aligned j := Or.symm aligned

theorem Aligned.ne (aligned : j.Aligned k) : j.dumps ≠ k.dumps := by
  rcases aligned with ⟨-, below⟩ | ⟨-, below⟩
  · exact below.ne
  · exact below.ne'

theorem emit_of_plain (plain : k.Plain) : k.emit = k.dumps := by
  unfold Plain at plain
  split at plain
  · exact plain.elim
  · exact plain.elim
  · exact plain.elim
  · unfold emit
    split <;> simp_all

/-- The name that `json.dumps` has for a number that is not finite is not a name of the
emitter. -/
theorem emit_number_ne (x : PyNumber) {f : Float64}
    (special : f = .nan ∨ ∃ neg, f = .infinite neg) :
    (number x).emit ≠ (number (.float f)).dumps := by
  intro same
  have texts : (number x).emit.toList = Float64.repr f := by
    rw [same, dumps, String.toList_ofList]
  cases x with
  | bool b =>
    rcases special with rfl | ⟨neg, rfl⟩
    · exact absurd texts (by cases b <;> decide)
    · exact absurd texts (by cases b <;> cases neg <;> decide)
  | int n =>
    rw [emit, dumps, String.toList_ofList] at texts
    · exact Float64.repr_ne_signed_digits f _ _ texts.symm
    · nofun
    · nofun
    · nofun
  | float g =>
    cases g with
    | finite b =>
      rw [emit, dumps, String.toList_ofList] at texts
      · obtain rfl := Float64.repr_injective texts
        rcases special with special | ⟨neg, special⟩ <;> cases special
      · nofun
      · nofun
      · nofun
    | infinite neg' =>
      rcases special with rfl | ⟨neg, rfl⟩
      · exact absurd texts (by cases neg' <;> decide)
      · exact absurd texts (by cases neg' <;> cases neg <;> decide)
    | nan =>
      rcases special with rfl | ⟨neg, rfl⟩
      · exact absurd texts (by decide)
      · exact absurd texts (by cases neg <;> decide)

/-- A key is plain if a key that compares with it has its name in `json.dumps` as its
name in the emitter. -/
theorem plain_of_emit_eq (comparable : (j.lt? k).isSome) (same : j.emit = k.dumps) :
    k.Plain := by
  cases j with
  | none => cases comparable
  | str s =>
    cases k with
    | str t => trivial
    | _ => cases comparable
  | number x =>
    cases k with
    | number y =>
      cases y with
      | float f =>
        cases f with
        | finite b => trivial
        | infinite neg => exact absurd same (emit_number_ne x (.inr ⟨neg, rfl⟩))
        | nan => exact absurd same (emit_number_ne x (.inl rfl))
      | _ => trivial
    | _ => cases comparable

theorem plain_of_emit_self (same : k.emit = k.dumps) : k.Plain := by
  cases k with
  | none => exact absurd same (by decide)
  | str s => trivial
  | number x => exact plain_of_emit_eq (j := .number x) rfl same

/-- Keys compare in both orders or in none. -/
theorem lt?_symm (comparable : (j.lt? k).isSome) : (k.lt? j).isSome := by
  cases j with
  | none => cases comparable
  | _ => cases k <;> first | rfl | cases comparable

/-- What is below what: a number a greater one, or a string a later one. -/
theorem lt?_cases (below : j.lt? k = some true) :
    (∃ x y, j = .number x ∧ k = .number y ∧ x.value.lt y.value = true) ∨
      ∃ s t, j = .str s ∧ k = .str t ∧ s < t := by
  unfold lt? at below
  split at below
  · exact .inl ⟨_, _, rfl, rfl, Option.some.inj below⟩
  · exact .inr ⟨_, _, rfl, rfl, of_decide_eq_true (Option.some.inj below)⟩
  · cases below

/-- `<` is strict. -/
theorem not_lt?_of_lt? (below : j.lt? k = some true) : k.lt? j ≠ some true := by
  rcases lt?_cases below with ⟨x, y, rfl, rfl, less⟩ | ⟨s, t, rfl, rfl, less⟩
  · have strict := Number.not_lt_of_lt less (Number.lt_self x.value)
    simp [lt?, PyNumber.gt, strict]
  · simp [lt?, not_lt.mpr less.le]

/-- The value of a number that is a plain key. -/
theorem value_of_plain {x : PyNumber} (plain : (number x).Plain) : ∃ q, x.value = .rat q := by
  cases x with
  | float f =>
    cases f with
    | finite b => exact ⟨_, rfl⟩
    | infinite neg => exact plain.elim
    | nan => exact plain.elim
  | bool b => exact ⟨_, rfl⟩
  | int n => exact ⟨_, rfl⟩

/-- Different plain keys of one type are in an order. -/
theorem lt?_total (hj : j.Plain) (hk : k.Plain) (comparable : (j.lt? k).isSome)
    (different : j.differs k = true) : j.lt? k = some true ∨ k.lt? j = some true := by
  cases j with
  | none => cases comparable
  | str s =>
    cases k with
    | str t =>
      have ne : s ≠ t := by simpa [differs] using different
      simpa [lt?] using lt_or_gt_of_ne ne
    | _ => cases comparable
  | number x =>
    cases k with
    | number y =>
      obtain ⟨p, hp⟩ := value_of_plain hj
      obtain ⟨q, hq⟩ := value_of_plain hk
      have ne : p ≠ q := by simpa [differs, PyNumber.eq, Number.eq, hp, hq] using different
      simpa [lt?, PyNumber.gt, Number.lt, hp, hq] using lt_or_gt_of_ne ne
    | _ => cases comparable

end PyKey

/-- `sorted` on the items of a dictionary, which compares their keys by `<`. Where two keys
are in no order, as not-a-number is with any number, it still permutes the items. -/
structure KeySort where
  sort : List (PyKey × Json) → List (PyKey × Json)
  perm : ∀ items, (sort items).Perm items
  ascending : ∀ items,
    items.Pairwise (fun p q => p.1.lt? q.1 = some true ∨ q.1.lt? p.1 = some true) →
      (sort items).Pairwise fun p q => p.1.lt? q.1 = some true

namespace KeySort

/-- A rank of numbers that goes up with `<`. -/
def numberRank : Number → ℕ ×ₗ ℚ
  | .infinite neg => toLex (if neg then 0 else 2, 0)
  | .rat q => toLex (1, q)
  | .nan => toLex (3, 0)

theorem numberRank_lt {x y : Number} (below : x.lt y = true) : numberRank x < numberRank y := by
  cases x with
  | nan => cases below
  | infinite neg =>
    cases y with
    | nan => cases below
    | infinite neg' =>
      obtain ⟨rfl, rfl⟩ : neg = true ∧ neg' = false := by simpa [Number.lt] using below
      exact Prod.Lex.toLex_lt_toLex.mpr (by simp)
    | rat q =>
      cases neg with
      | true => exact Prod.Lex.toLex_lt_toLex.mpr (by simp)
      | false => cases below
  | rat p =>
    cases y with
    | nan => cases below
    | infinite neg =>
      cases neg with
      | true => cases below
      | false => exact Prod.Lex.toLex_lt_toLex.mpr (by simp)
    | rat q =>
      have less : p < q := by simpa [Number.lt] using below
      exact Prod.Lex.toLex_lt_toLex.mpr (.inr ⟨rfl, less⟩)

/-- A rank of keys that goes up with `<`. -/
def rank : PyKey → (ℕ ×ₗ ℚ) ×ₗ String
  | .none => toLex (toLex (4, 0), "")
  | .number x => toLex (numberRank x.value, "")
  | .str s => toLex (toLex (5, 0), s)

theorem rank_lt {j k : PyKey} (below : j.lt? k = some true) : rank j < rank k := by
  rcases PyKey.lt?_cases below with ⟨x, y, rfl, rfl, less⟩ | ⟨s, t, rfl, rfl, less⟩
  · exact Prod.Lex.toLex_lt_toLex.mpr (.inl (numberRank_lt less))
  · exact Prod.Lex.toLex_lt_toLex.mpr (.inr ⟨rfl, less⟩)

/-- Sorting by rank is a way to sort. -/
def byRank : KeySort where
  sort items := items.insertionSort fun p q => rank p.1 ≤ rank q.1
  perm items := List.perm_insertionSort _ items
  ascending items total := by
    have : IsTrans (PyKey × Json) fun p q => rank p.1 ≤ rank q.1 := ⟨fun _ _ _ => le_trans⟩
    have : Std.Total fun p q : PyKey × Json => rank p.1 ≤ rank q.1 := ⟨fun _ _ => le_total _ _⟩
    have ranked :=
      List.pairwise_insertionSort (fun p q : PyKey × Json => rank p.1 ≤ rank q.1) items
    have perm := List.perm_insertionSort (fun p q : PyKey × Json => rank p.1 ≤ rank q.1) items
    have total' := (perm.pairwise_iff fun h => Or.symm h).mpr total
    refine (ranked.and total').imp fun h => h.2.resolve_right fun above => ?_
    exact absurd (rank_lt above) (not_lt.mpr h.1)

end KeySort

/-! ### Objects -/

/-- A Python object that `json.dumps` writes. -/
inductive PyObject
  | none
  | bool (b : Bool)
  | int (n : ℤ)
  | float (f : Float64)
  | str (s : String)
  | list (items : List PyObject)
  | tuple (items : List PyObject)
  | dict (items : List (PyKey × PyObject))

namespace PyObject

mutual

/-- No dictionary in the object has two equal keys. -/
def Proper : PyObject → Prop
  | .list items => ProperItems items
  | .tuple items => ProperItems items
  | .dict items => items.Pairwise (fun p q => p.1.differs q.1 = true) ∧ ProperMembers items
  | _ => True

/-- The same for every item. -/
def ProperItems : List PyObject → Prop
  | [] => True
  | o :: items => Proper o ∧ ProperItems items

/-- The same for every value. -/
def ProperMembers : List (PyKey × PyObject) → Prop
  | [] => True
  | (_, o) :: items => Proper o ∧ ProperMembers items

end

mutual

/-- The value whose text, members as they stand, is `json.dumps(o, sort_keys=True)`;
nothing where keys of different types are compared. -/
def dumps (sorted : KeySort) : PyObject → Option Json
  | .none => some .null
  | .bool b => some (.bool b)
  | .int n => some (.int n)
  | .float f => some (.float f)
  | .str s => some (.str s)
  | .list items => (dumpsItems sorted items).map .arr
  | .tuple items => (dumpsItems sorted items).map .arr
  | .dict items =>
    if (items.map Prod.fst).Pairwise fun j k => (j.lt? k).isSome then
      (dumpsMembers sorted items).map fun members =>
        .obj ((sorted.sort members).map fun p => (p.1.dumps, p.2))
    else Option.none

/-- The items of an array. -/
def dumpsItems (sorted : KeySort) : List PyObject → Option (List Json)
  | [] => some []
  | o :: items => do
    let v ← dumps sorted o
    let l ← dumpsItems sorted items
    return v :: l

/-- The values of an object. -/
def dumpsMembers (sorted : KeySort) : List (PyKey × PyObject) → Option (List (PyKey × Json))
  | [] => some []
  | (k, o) :: items => do
    let v ← dumps sorted o
    let l ← dumpsMembers sorted items
    return (k, v) :: l

end

mutual

/-- The value whose text the emitter writes. -/
def emit : PyObject → Json
  | .none => .null
  | .bool b => .bool b
  | .int n => .int n
  | .float (.finite b) => .float (.finite b)
  | .float _ => .null
  | .str s => .str s
  | .list items => .arr (emitItems items)
  | .tuple items => .arr (emitItems items)
  | .dict items => .obj (emitMembers items)

/-- The items of an emitted array. -/
def emitItems : List PyObject → List Json
  | [] => []
  | o :: items => emit o :: emitItems items

/-- The members of an emitted object. -/
def emitMembers : List (PyKey × PyObject) → List (String × Json)
  | [] => []
  | (k, o) :: items => (k.emit, emit o) :: emitMembers items

end

/-! ### Objects that come back as they were signed -/

mutual

/-- All floats are finite, and the keys of every dictionary are plain and in the order of
their names. -/
def Portable : PyObject → Prop
  | .float f => ∃ b, f = .finite b
  | .list items => PortableItems items
  | .tuple items => PortableItems items
  | .dict items =>
    (∀ k ∈ items.map Prod.fst, k.Plain) ∧ (items.map Prod.fst).Pairwise PyKey.Aligned ∧
      PortableMembers items
  | _ => True

/-- The same for every item. -/
def PortableItems : List PyObject → Prop
  | [] => True
  | o :: items => Portable o ∧ PortableItems items

/-- The same for every value. -/
def PortableMembers : List (PyKey × PyObject) → Prop
  | [] => True
  | (_, o) :: items => Portable o ∧ PortableMembers items

end

end PyObject

/-! ### Reading -/

namespace Json

mutual

/-- What reading the text of a value gives: of the members of one name, the last. -/
def merged : Json → Json
  | .arr items => .arr (mergedItems items)
  | .obj members => .obj (Dict.ofItems (mergedMembers members)).items
  | v => v

/-- The items of an array. -/
def mergedItems : List Json → List Json
  | [] => []
  | v :: items => merged v :: mergedItems items

/-- The members of an object, each with its value. -/
def mergedMembers : List (String × Json) → List (String × Json)
  | [] => []
  | (k, v) :: members => (k, merged v) :: mergedMembers members

end

theorem keys_mergedMembers (l : List (String × Json)) :
    (mergedMembers l).map Prod.fst = l.map Prod.fst := by
  induction l with
  | nil => rfl
  | cons p l ih => rw [mergedMembers, List.map_cons, List.map_cons, ih]

mutual

/-- A value without repeated names is read as it is. -/
theorem merged_of_distinct : ∀ v : Json, v.Distinct → v.merged = v
  | .arr l, h => congrArg Json.arr (mergedItems_of_distinct l h)
  | .obj l, h => by
    rw [merged, mergedMembers_of_distinct l h.2, Dict.items_ofItems h.1]
  | .null, _ | .bool _, _ | .int _, _ | .float _, _ | .str _, _ => rfl

theorem mergedItems_of_distinct : ∀ l : List Json, DistinctItems l → mergedItems l = l
  | [], _ => rfl
  | v :: l, h => by rw [mergedItems, merged_of_distinct v h.1, mergedItems_of_distinct l h.2]

theorem mergedMembers_of_distinct :
    ∀ l : List (String × Json), DistinctMembers l → mergedMembers l = l
  | [], _ => rfl
  | (_, v) :: l, h => by
    rw [mergedMembers, merged_of_distinct v h.1, mergedMembers_of_distinct l h.2]

end

/-- Members in strict order of their names are sorted. -/
theorem eq_sortByKey {l m : List (String × Json)} (perm : l.Perm m)
    (ascending : l.Pairwise fun p q => p.1 < q.1) : l = sortByKey m := by
  have distinct : (l.map Prod.fst).Nodup := List.pairwise_map.mpr (ascending.imp LT.lt.ne)
  refine List.Perm.eq_of_pairwise ?_ (ascending.imp LT.lt.le) (pairwise_sortByKey m)
    (perm.trans (perm_sortByKey m).symm)
  intro p q hp hq below above
  rw [(perm_sortByKey m).mem_iff, ← perm.mem_iff] at hq
  exact List.inj_on_of_nodup_map distinct hp hq (le_antisymm below above)

/-- Sorted members with distinct names are in strict order. -/
theorem sortByKey_strict {l : List (String × Json)} (distinct : (l.map Prod.fst).Nodup) :
    (sortByKey l).Pairwise fun p q => p.1 < q.1 := by
  have names : ((sortByKey l).map Prod.fst).Nodup :=
    ((perm_sortByKey l).map Prod.fst).nodup_iff.mpr distinct
  exact (pairwise_sortByKey l).and (List.pairwise_map.mp names) |>.imp
    fun h => lt_of_le_of_ne h.1 h.2

end Json

/-! ### One dictionary -/

namespace KeySort

/-- A key with the value that `json.dumps` writes and the value that is read, sorted. -/
abbrev Entry := PyKey × Json × Json

variable (sorted : KeySort) {entries : List Entry}

/-- The items of a dictionary as `json.dumps` sorts them. -/
abbrev written (entries : List Entry) : List (PyKey × Json) :=
  sorted.sort (entries.map fun e => (e.1, e.2.1))

theorem perm_written (entries : List Entry) :
    (sorted.written entries).Perm (entries.map fun e => (e.1, e.2.1)) := sorted.perm _

/-- What holds of any two keys in either order holds of the sorted ones. -/
theorem pairwise_written {R : PyKey → PyKey → Prop} (symm : ∀ {j k}, R j k → R k j) :
    (sorted.written entries).Pairwise (fun p q => R p.1 q.1) ↔
      (entries.map Prod.fst).Pairwise R := by
  rw [(sorted.perm_written entries).pairwise_iff fun h => symm h, List.pairwise_map,
    List.pairwise_map]

/-- Keys that stand in the order of their names come out in it. -/
theorem ascending_written (aligned : (entries.map Prod.fst).Pairwise PyKey.Aligned) :
    (sorted.written entries).Pairwise fun p q => p.1.dumps < q.1.dumps := by
  have inOrder := sorted.ascending (entries.map fun e => (e.1, e.2.1))
    (List.pairwise_map.mpr ((List.pairwise_map.mp aligned).imp fun h => h.imp And.left And.left))
  have names := (sorted.pairwise_written PyKey.Aligned.symm).mpr aligned
  refine (inOrder.and names).imp fun h => ?_
  rcases h.2 with ⟨-, less⟩ | ⟨above, -⟩
  · exact less
  · exact absurd above (PyKey.not_lt?_of_lt? h.1)

/-- Plain keys that come out in the order of their names stand in it. -/
theorem aligned_of_ascending (plain : ∀ k ∈ entries.map Prod.fst, k.Plain)
    (different : (entries.map Prod.fst).Pairwise fun j k => j.differs k = true)
    (comparable : (entries.map Prod.fst).Pairwise fun j k => (j.lt? k).isSome)
    (ascending : (sorted.written entries).Pairwise fun p q => p.1.dumps < q.1.dumps) :
    (entries.map Prod.fst).Pairwise PyKey.Aligned := by
  have total : (entries.map Prod.fst).Pairwise
      fun j k => j.lt? k = some true ∨ k.lt? j = some true :=
    (different.and comparable).imp_of_mem fun hj hk h =>
      PyKey.lt?_total (plain _ hj) (plain _ hk) h.2 h.1
  have inOrder := sorted.ascending (entries.map fun e => (e.1, e.2.1))
    (List.pairwise_map.mpr (List.pairwise_map.mp total))
  exact (sorted.pairwise_written PyKey.Aligned.symm).mp
    ((inOrder.and ascending).imp fun h => .inl h)

/-- All keys are plain if every name that is written is the emitter's name of a key. -/
theorem plain_of_names (comparable : (entries.map Prod.fst).Pairwise fun j k => (j.lt? k).isSome)
    (names : ∀ k ∈ entries.map Prod.fst, ∃ j ∈ entries.map Prod.fst, j.emit = k.dumps) :
    ∀ k ∈ entries.map Prod.fst, k.Plain := by
  intro k hk
  obtain ⟨j, hj, same⟩ := names k hk
  rcases eq_or_ne j k with rfl | ne
  · exact PyKey.plain_of_emit_self same
  · have : Std.Symm fun j k : PyKey => (j.lt? k).isSome = true := ⟨fun _ _ => PyKey.lt?_symm⟩
    exact PyKey.plain_of_emit_eq (comparable.forall hj hk ne) same

/-- The members that are written of a dictionary. -/
abbrev members (entries : List Entry) : List (String × Json) :=
  (sorted.written entries).map fun p => (p.1.dumps, p.2)

theorem perm_members (entries : List Entry) :
    (sorted.members entries).Perm (entries.map fun e => (e.1.dumps, e.2.1)) := by
  have perm := (sorted.perm_written entries).map fun p => (p.1.dumps, p.2)
  rwa [List.map_map] at perm

/-- The members that are read of a dictionary, sorted. -/
abbrev read (entries : List Entry) : List (String × Json) :=
  Json.sortByKey (Dict.ofItems (entries.map fun e => (e.1.emit, e.2.2))).items

theorem nodup_read (entries : List Entry) : ((read entries).map Prod.fst).Nodup :=
  ((Json.perm_sortByKey _).map Prod.fst).nodup_iff.mpr (Dict.nodupKeys _)

/-- Entries with plain keys and distinct names are all read. -/
theorem read_of_plain (plain : ∀ k ∈ entries.map Prod.fst, k.Plain)
    (distinct : (entries.map fun e => e.1.dumps).Nodup) :
    read entries = Json.sortByKey (entries.map fun e => (e.1.dumps, e.2.2)) := by
  have names : (entries.map fun e => (e.1.emit, e.2.2)) =
      entries.map fun e => (e.1.dumps, e.2.2) :=
    List.map_congr_left fun e member => by
      rw [PyKey.emit_of_plain (plain _ (List.mem_map_of_mem member))]
  rw [read, names, Dict.items_ofItems]
  rw [List.map_map]
  exact distinct

/-- What is written of a dictionary is what is read, sorted, exactly if its keys are plain
and in the order of their names, and its values are. -/
theorem members_eq_read_iff
    (different : (entries.map Prod.fst).Pairwise fun j k => j.differs k = true)
    (comparable : (entries.map Prod.fst).Pairwise fun j k => (j.lt? k).isSome) :
    sorted.members entries = read entries ↔
      (∀ k ∈ entries.map Prod.fst, k.Plain) ∧
        (entries.map Prod.fst).Pairwise PyKey.Aligned ∧ ∀ e ∈ entries, e.2.1 = e.2.2 := by
  constructor
  · intro same
    have perm := sorted.perm_members entries
    have plain := plain_of_names comparable fun k hk => by
      obtain ⟨e, he, rfl⟩ := List.mem_map.mp hk
      have written := perm.mem_iff.mpr (List.mem_map_of_mem he)
      rw [same, (Json.perm_sortByKey _).mem_iff] at written
      obtain ⟨f, hf, eq⟩ := List.mem_map.mp (Dict.mem_of_mem_items_ofItems written)
      exact ⟨f.1, List.mem_map_of_mem hf, congrArg Prod.fst eq⟩
    -- No name is read twice, so none was written twice.
    have distinct : (entries.map fun e => e.1.dumps).Nodup := by
      have names := (perm.map Prod.fst).nodup_iff.mp (same ▸ nodup_read entries)
      rwa [List.map_map] at names
    rw [read_of_plain plain distinct] at same
    refine ⟨plain, ?_, ?_⟩
    · have names : ((entries.map fun e => (e.1.dumps, e.2.2)).map Prod.fst).Nodup := by
        rwa [List.map_map]
      have strict : (sorted.members entries).Pairwise fun p q => p.1 < q.1 :=
        same ▸ Json.sortByKey_strict names
      exact sorted.aligned_of_ascending plain different comparable
        (List.pairwise_map (f := fun p : PyKey × Json => (p.1.dumps, p.2))|>.mp strict)
    · intro e he
      have written := perm.mem_iff.mpr (List.mem_map_of_mem he)
      rw [same, (Json.perm_sortByKey _).mem_iff] at written
      obtain ⟨f, hf, eq⟩ := List.mem_map.mp written
      obtain rfl := List.inj_on_of_nodup_map distinct hf he (congrArg Prod.fst eq)
      exact (congrArg Prod.snd eq).symm
  · rintro ⟨plain, aligned, values⟩
    have distinct : (entries.map fun e => e.1.dumps).Nodup :=
      List.pairwise_map.mpr ((List.pairwise_map.mp aligned).imp PyKey.Aligned.ne)
    have same : (entries.map fun e => (e.1.dumps, e.2.1)) =
        entries.map fun e => (e.1.dumps, e.2.2) :=
      List.map_congr_left fun e member => by rw [values e member]
    rw [read_of_plain plain distinct, ← same]
    exact Json.eq_sortByKey (sorted.perm_members entries)
      (List.pairwise_map.mpr (sorted.ascending_written aligned))

end KeySort

/-! ### Whole objects -/

namespace PyObject

open Json (sortItems sortMembers sortByKey mergedItems mergedMembers sortMembers_eq_map)

variable {sorted : KeySort}

theorem sortKeys_merged_obj (l : List (String × Json)) :
    (Json.obj l).merged.sortKeys =
      .obj (sortByKey (Dict.ofItems (sortMembers (mergedMembers l))).items) := by
  have commutes := Dict.items_ofItems_map (f := id) Json.sortKeys (l := mergedMembers l)
    fun _ _ _ _ same => same
  rw [Json.merged, Json.sortKeys, sortMembers_eq_map, sortMembers_eq_map]
  exact congrArg (fun l => Json.obj (sortByKey l)) commutes.symm

mutual

/-- What `json.dumps` writes of an object is what is read of it, sorted, exactly if the
object is portable. -/
theorem dumps_eq_iff : ∀ (o : PyObject) {t : Json}, o.Proper → o.dumps sorted = some t →
    (t = o.emit.merged.sortKeys ↔ o.Portable)
  | .none, t, _, dumped => by
    cases dumped
    exact iff_of_true rfl trivial
  | .bool b, t, _, dumped => by
    cases dumped
    exact iff_of_true rfl trivial
  | .int n, t, _, dumped => by
    cases dumped
    exact iff_of_true rfl trivial
  | .str s, t, _, dumped => by
    cases dumped
    exact iff_of_true rfl trivial
  | .float f, t, _, dumped => by
    cases dumped
    cases f with
    | finite b => exact iff_of_true rfl ⟨b, rfl⟩
    | infinite neg | nan =>
      -- Such a float is read as null.
      refine iff_of_false (fun same => ?_) fun finite => ?_
      · change Json.float _ = Json.null at same
        cases same
      · obtain ⟨b, same⟩ := finite
        cases same
  | .list items, t, proper, dumped => by
    obtain ⟨l, written, rfl⟩ := Option.map_eq_some_iff.mp dumped
    rw [emit, Json.merged, Json.sortKeys, Json.arr.injEq]
    exact dumpsItems_eq_iff items proper written
  | .tuple items, t, proper, dumped => by
    obtain ⟨l, written, rfl⟩ := Option.map_eq_some_iff.mp dumped
    rw [emit, Json.merged, Json.sortKeys, Json.arr.injEq]
    exact dumpsItems_eq_iff items proper written
  | .dict items, t, proper, dumped => by
    rw [dumps] at dumped
    split_ifs at dumped with comparable
    obtain ⟨members, members_eq, rfl⟩ := Option.map_eq_some_iff.mp dumped
    obtain ⟨entries, written, keys, read, values⟩ := exists_entries items proper.2 members_eq
    have different : (items.map Prod.fst).Pairwise fun j k => j.differs k = true :=
      List.pairwise_map.mpr proper.1
    rw [emit, sortKeys_merged_obj, ← read, ← written, Json.obj.injEq, Portable, ← values, ← keys]
    rw [← keys] at comparable different
    exact sorted.members_eq_read_iff different comparable

theorem dumpsItems_eq_iff : ∀ (items : List PyObject) {l : List Json}, ProperItems items →
    dumpsItems sorted items = some l →
      (l = sortItems (mergedItems (emitItems items)) ↔ PortableItems items)
  | [], l, _, dumped => by
    cases dumped
    exact iff_of_true rfl trivial
  | o :: items, l, proper, dumped => by
    obtain ⟨v, head, dumped⟩ := Option.bind_eq_some_iff.mp dumped
    obtain ⟨l, tail, dumped⟩ := Option.bind_eq_some_iff.mp dumped
    cases dumped
    rw [emitItems, mergedItems, sortItems, List.cons.injEq]
    exact and_congr (dumps_eq_iff o proper.1 head) (dumpsItems_eq_iff items proper.2 tail)

/-- The items of a dictionary with what is written and what is read of each. -/
theorem exists_entries : ∀ (items : List (PyKey × PyObject)) {members : List (PyKey × Json)},
    ProperMembers items → dumpsMembers sorted items = some members →
      ∃ entries : List KeySort.Entry, entries.map (fun e => (e.1, e.2.1)) = members ∧
        entries.map Prod.fst = items.map Prod.fst ∧
        entries.map (fun e => (e.1.emit, e.2.2)) =
          sortMembers (mergedMembers (emitMembers items)) ∧
        ((∀ e ∈ entries, e.2.1 = e.2.2) ↔ PortableMembers items)
  | [], members, _, dumped => by
    cases dumped
    exact ⟨[], rfl, rfl, rfl, iff_of_true (List.forall_mem_nil _) trivial⟩
  | (k, o) :: items, members, proper, dumped => by
    obtain ⟨v, head, dumped⟩ := Option.bind_eq_some_iff.mp dumped
    obtain ⟨l, tail, dumped⟩ := Option.bind_eq_some_iff.mp dumped
    cases dumped
    obtain ⟨entries, written, keys, read, values⟩ := exists_entries items proper.2 tail
    refine ⟨(k, v, o.emit.merged.sortKeys) :: entries, ?_, ?_, ?_, ?_⟩
    · rw [List.map_cons, written]
    · rw [List.map_cons, List.map_cons, keys]
    · rw [List.map_cons, read, emitMembers, mergedMembers, sortMembers]
    · rw [List.forall_mem_cons, PortableMembers]
      exact and_congr (dumps_eq_iff o proper.1 head) values

end

/-! ### Dictionaries with string keys -/

/-- A dictionary of named members. -/
def record (members : List (String × PyObject)) : PyObject :=
  .dict (members.map fun p => (.str p.1, p.2))

theorem properMembers_iff {l : List (PyKey × PyObject)} :
    ProperMembers l ↔ ∀ p ∈ l, p.2.Proper := by
  induction l with
  | nil => simp [ProperMembers]
  | cons p l ih => rw [ProperMembers, List.forall_mem_cons, ih]

theorem portableMembers_iff {l : List (PyKey × PyObject)} :
    PortableMembers l ↔ ∀ p ∈ l, p.2.Portable := by
  induction l with
  | nil => simp [PortableMembers]
  | cons p l ih => rw [PortableMembers, List.forall_mem_cons, ih]

variable {members : List (String × PyObject)}

theorem proper_record (distinct : (members.map Prod.fst).Nodup)
    (values : ∀ p ∈ members, p.2.Proper) : (record members).Proper := by
  refine ⟨List.pairwise_map.mpr ((List.pairwise_map.mp distinct).imp fun ne => ?_),
    properMembers_iff.mpr (List.forall_mem_map.mpr values)⟩
  simpa [PyKey.differs] using ne

/-- The names of members are always in order. -/
theorem portable_record_iff (distinct : (members.map Prod.fst).Nodup) :
    (record members).Portable ↔ ∀ p ∈ members, p.2.Portable := by
  have plain : ∀ k ∈ (members.map fun p => (PyKey.str p.1, p.2)).map Prod.fst, k.Plain := by
    rw [List.map_map]
    exact List.forall_mem_map.mpr fun _ _ => trivial
  have aligned : ((members.map fun p => (PyKey.str p.1, p.2)).map Prod.fst).Pairwise
      PyKey.Aligned := by
    rw [List.map_map, List.pairwise_map]
    refine (List.pairwise_map.mp distinct).imp fun ne => ?_
    simpa [PyKey.Aligned, PyKey.lt?, PyKey.dumps] using lt_or_gt_of_ne ne
  have values : PortableMembers (members.map fun p => (PyKey.str p.1, p.2)) ↔
      ∀ p ∈ members, p.2.Portable := portableMembers_iff.trans List.forall_mem_map
  exact ⟨fun h => values.mp h.2.2, fun h => ⟨plain, aligned, values.mpr h⟩⟩

/-- What is read of a dictionary with distinct names. -/
theorem merged_emit_record (distinct : (members.map Prod.fst).Nodup) :
    (record members).emit.merged = .obj (members.map fun p => (p.1, p.2.emit.merged)) := by
  have read (l : List (String × PyObject)) :
      mergedMembers (emitMembers (l.map fun p => (.str p.1, p.2))) =
        l.map fun p => (p.1, p.2.emit.merged) := by
    induction l with
    | nil => rfl
    | cons p l ih => rw [List.map_cons, emitMembers, mergedMembers, ih, List.map_cons]; rfl
  rw [record, emit, Json.merged, read, Dict.items_ofItems]
  rwa [List.map_map]

end PyObject

/-- A Python object that can be built. -/
structure PyData where
  object : PyObject
  proper : object.Proper

end Foundation
