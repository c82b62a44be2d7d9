import Mathlib.Data.List.Sort
import Mathlib.Data.String.Basic
import AgentTelepathy.Foundation.Binary64

/-!
# JSON values

A JSON value keeps its object members in the order a program holds them.
Sorting the members of every object by key gives one representative for all
orders, and two values are the same when their representatives are equal. For
objects with distinct keys this is equality as maps, key by key.
-/

namespace Foundation

/-- A JSON value, with integers and floats kept apart as Python does. -/
inductive Json where
  | null
  | bool (b : Bool)
  | int (n : ℤ)
  | float (f : Float64)
  | str (s : String)
  | arr (items : List Json)
  | obj (members : List (String × Json))

namespace Json

/-! ### Equality is decidable -/

mutual

/-- Boolean equality of values. -/
def same : Json → Json → Bool
  | .null, .null => true
  | .bool a, .bool b => a = b
  | .int m, .int n => m = n
  | .float f, .float g => f = g
  | .str s, .str t => s = t
  | .arr l, .arr m => sameItems l m
  | .obj l, .obj m => sameMembers l m
  | _, _ => false

/-- Boolean equality of item lists. -/
def sameItems : List Json → List Json → Bool
  | [], [] => true
  | v :: l, w :: m => same v w && sameItems l m
  | _, _ => false

/-- Boolean equality of member lists. -/
def sameMembers : List (String × Json) → List (String × Json) → Bool
  | [], [] => true
  | (j, v) :: l, (k, w) :: m => j = k && same v w && sameMembers l m
  | _, _ => false

end

mutual

theorem same_iff : ∀ v w : Json, same v w = true ↔ v = w
  | .null, w => by cases w <;> simp [same]
  | .bool a, w => by cases w <;> simp [same]
  | .int m, w => by cases w <;> simp [same]
  | .float f, w => by cases w <;> simp [same]
  | .str s, w => by cases w <;> simp [same]
  | .arr l, w => by
    cases w with
    | arr m => simpa [same] using sameItems_iff l m
    | _ => simp [same]
  | .obj l, w => by
    cases w with
    | obj m => simpa [same] using sameMembers_iff l m
    | _ => simp [same]

theorem sameItems_iff : ∀ l m : List Json, sameItems l m = true ↔ l = m
  | [], m => by cases m <;> simp [sameItems]
  | v :: l, m => by
    cases m with
    | nil => simp [sameItems]
    | cons w m => simp [sameItems, same_iff v w, sameItems_iff l m]

theorem sameMembers_iff : ∀ l m : List (String × Json), sameMembers l m = true ↔ l = m
  | [], m => by cases m <;> simp [sameMembers]
  | (j, v) :: l, m => by
    cases m with
    | nil => simp [sameMembers]
    | cons p m =>
      obtain ⟨k, w⟩ := p
      simp [sameMembers, same_iff v w, sameMembers_iff l m]

end

instance : DecidableEq Json := fun v w => decidable_of_iff _ (same_iff v w)

instance : Inhabited Json := ⟨.null⟩

/-- The value of a member; nothing for a value that is not an object. -/
def get? : Json → String → Option Json
  | .obj members, key => members.lookup key
  | _, _ => none

/-! ### Sorting object members -/

/-- Members in the order of their keys. -/
def sortByKey (members : List (String × Json)) : List (String × Json) :=
  members.insertionSort fun p q => p.1 ≤ q.1

theorem perm_sortByKey (members : List (String × Json)) : (sortByKey members).Perm members :=
  List.perm_insertionSort _ _

/-- Transitivity and totality of the key order are what sorting needs. -/
theorem pairwise_sortByKey (members : List (String × Json)) :
    (sortByKey members).Pairwise fun p q => p.1 ≤ q.1 :=
  haveI : IsTrans (String × Json) fun p q => p.1 ≤ q.1 := ⟨fun _ _ _ => le_trans⟩
  haveI : Std.Total fun p q : String × Json => p.1 ≤ q.1 := ⟨fun _ _ => le_total _ _⟩
  List.pairwise_insertionSort _ _

mutual

/-- Sort the members of every object by key. -/
def sortKeys : Json → Json
  | .arr items => .arr (sortItems items)
  | .obj members => .obj (sortByKey (sortMembers members))
  | v => v

/-- Sort the keys inside every item. -/
def sortItems : List Json → List Json
  | [] => []
  | v :: l => sortKeys v :: sortItems l

/-- Sort the keys inside every member's value. -/
def sortMembers : List (String × Json) → List (String × Json)
  | [] => []
  | (k, v) :: l => (k, sortKeys v) :: sortMembers l

end

theorem sortMembers_eq_map (l : List (String × Json)) :
    sortMembers l = l.map fun p => (p.1, sortKeys p.2) := by
  induction l with
  | nil => rfl
  | cons p l ih => rw [sortMembers, ih, List.map_cons]

/-- Two values are the same up to the order of object members. -/
def Same (v w : Json) : Prop := sortKeys v = sortKeys w

instance (v w : Json) : Decidable (Same v w) := inferInstanceAs (Decidable (_ = _))

@[refl] theorem Same.refl (v : Json) : Same v v := rfl

theorem Same.symm {v w : Json} (h : Same v w) : Same w v := Eq.symm h

private theorem perm_of_lookup {l m : List (String × Json)}
    (hl : (l.map Prod.fst).Nodup) (hm : (m.map Prod.fst).Nodup)
    (agree : ∀ p, p ∈ l ↔ p ∈ m) : l.Perm m :=
  (List.perm_ext_iff_of_nodup (List.Nodup.of_map _ hl) (List.Nodup.of_map _ hm)).mpr agree

private theorem sortMembers_keys (l : List (String × Json)) :
    (sortMembers l).map Prod.fst = l.map Prod.fst := by
  simp [sortMembers_eq_map]

/-- Objects with distinct keys whose members correspond up to sameness are the
same, in whatever order they list their members. -/
theorem same_obj_of_members {l m : List (String × Json)}
    (hl : (l.map Prod.fst).Nodup) (hm : (m.map Prod.fst).Nodup)
    (forth : ∀ k v, (k, v) ∈ l → ∃ w, (k, w) ∈ m ∧ Same v w)
    (back : ∀ k w, (k, w) ∈ m → ∃ v, (k, v) ∈ l ∧ Same v w) : Same (.obj l) (.obj m) := by
  have perm : (sortMembers l).Perm (sortMembers m) := by
    refine perm_of_lookup (by rwa [sortMembers_keys]) (by rwa [sortMembers_keys]) ?_
    rintro ⟨k, x⟩
    simp only [sortMembers_eq_map, List.mem_map, Prod.mk.injEq, Prod.exists]
    constructor
    · rintro ⟨k', v, member, rfl, rfl⟩
      obtain ⟨w, member', same⟩ := forth _ _ member
      exact ⟨_, w, member', rfl, same.symm⟩
    · rintro ⟨k', w, member, rfl, rfl⟩
      obtain ⟨v, member', same⟩ := back _ _ member
      exact ⟨_, v, member', rfl, same⟩
  have sorted := (perm_sortByKey _).trans (perm.trans (perm_sortByKey _).symm)
  refine congrArg Json.obj (List.Perm.eq_of_pairwise ?_ (pairwise_sortByKey _)
    (pairwise_sortByKey _) sorted)
  -- Two members with keys below each other have one key, hence are one member.
  rintro ⟨j, v⟩ ⟨k, w⟩ hv hw below above
  obtain rfl : j = k := le_antisymm below above
  rw [(perm_sortByKey _).mem_iff] at hv hw
  have inSorted := perm.mem_iff.mpr hw
  have one := List.inj_on_of_nodup_map (f := Prod.fst) (by rwa [sortMembers_keys]) hv inSorted rfl
  exact one

end Json

end Foundation
