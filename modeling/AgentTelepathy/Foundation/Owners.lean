import AgentTelepathy.Foundation.Dict

/-!
# Tables that name the owners of their entries

Owners are numbered in the order in which they come, each with a key. An owner that comes
puts its number into a table under its key, over what was there. Where entries are only
erased otherwise, each names an owner with its key, so an owner has no entry but the one
under its own key: another owner with that key takes it away, and so does whoever erases
the key.
-/

namespace Foundation

namespace Owners

variable {κ : Type*} {keys : List κ} {k : κ} {m n : ℕ}

/-- Owners in a list, with keys of theirs. -/
theorem getElem?_key {α : Type*} {key : α → κ} {owners : List α} {o : α}
    (here : owners[n]? = some o) : (owners.map key)[n]? = some (key o) := by
  rw [List.getElem?_map, here]
  rfl

/-- An owner that changes keeps its key. -/
theorem map_key_set {α : Type*} {key : α → κ} {owners : List α} {o p : α}
    (here : owners[n]? = some o) (same : key p = key o) :
    (owners.set n p).map key = owners.map key := by
  apply List.ext_getElem?
  intro m
  rw [List.map_set, List.getElem?_set]
  split_ifs with isN inside
  · rw [← isN, getElem?_key here, same]
  · -- Past the end of the list nothing is set.
    rw [List.getElem?_eq_none (isN ▸ Nat.le_of_not_lt inside)]
  · rfl

/-- Where keys are distinct, they tell owners apart. -/
theorem index_eq (distinct : keys.Nodup) (here : keys[m]? = some k) (there : keys[n]? = some k) :
    m = n := by
  have inside := (List.getElem?_eq_some_iff.mp here).1
  exact (List.getElem?_inj inside distinct).mp (here.trans there.symm)

variable [DecidableEq κ] {table : Dict κ ℕ}

/-- The entries of a table name owners with their keys. -/
def Named (table : Dict κ ℕ) (keys : List κ) : Prop :=
  ∀ k n, table.get? k = some n → keys[n]? = some k

theorem named_empty (keys : List κ) : Named Dict.empty keys := nofun

/-- A new owner. -/
theorem Named.come (named : Named table keys) (k : κ) :
    Named (table.set k keys.length) (keys ++ [k]) := by
  intro j n found
  rw [Dict.get?_set] at found
  split_ifs at found with new
  · -- The entry of the new owner, which comes last.
    obtain rfl := Option.some.inj found
    rw [new, List.getElem?_concat_length]
  · have named' := named j n found
    rwa [List.getElem?_append_left (List.getElem?_eq_some_iff.mp named').1]

theorem Named.erase (named : Named table keys) (k : κ) : Named (table.erase k) keys :=
  fun j n found => named j n (Dict.get?_of_get?_erase found)

/-- An owner has an entry exactly if the one under its key is its own. -/
theorem Named.exists_iff (named : Named table keys) (own : keys[n]? = some k) :
    (∃ j, table.get? j = some n) ↔ table.get? k = some n := by
  constructor
  · rintro ⟨j, found⟩
    obtain rfl := Option.some.inj (own.symm.trans (named j n found))
    exact found
  · exact fun found => ⟨k, found⟩

/-- What an owner has is its own, also after another one with another key has come. -/
theorem get?_come_iff (own : keys[n]? = some k) (j : κ) :
    (table.set j keys.length).get? k = some n ↔ table.get? k = some n ∧ k ≠ j := by
  have old : n < keys.length := (List.getElem?_eq_some_iff.mp own).1
  rw [Dict.get?_set]
  split_ifs with same
  · -- The number of the new owner is not that of an old one.
    exact iff_of_false (fun found => Nat.ne_of_gt old (Option.some.inj found)) fun both =>
      both.2 same
  · exact (and_iff_left same).symm

theorem get?_erase_iff (j : κ) :
    (table.erase j).get? k = some n ↔ table.get? k = some n ∧ k ≠ j := by
  rw [Dict.get?_erase]
  split_ifs with same
  · exact iff_of_false not_false fun both => both.2 same
  · exact (and_iff_left same).symm

end Owners

end Foundation
