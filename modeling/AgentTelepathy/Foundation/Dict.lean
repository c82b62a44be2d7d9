import Mathlib.Data.List.Nodup
import Mathlib.Data.List.Lookmap

/-!
# Insertion-ordered dictionaries

A dictionary is a list of items whose keys are pairwise distinct. Assigning to
a present key replaces its value where it stands, assigning to an absent key
appends the item, so iteration follows the order of first insertion. Key
distinctness is a field: a dictionary with two items under one key cannot be
built, and the lookup laws below need no side condition.
-/

namespace Foundation

universe u v

/-- An insertion-ordered dictionary from `κ` to `ν`. -/
structure Dict (κ : Type u) (ν : Type v) where
  /-- The items in the order of first insertion. -/
  items : List (κ × ν)
  /-- No key occurs twice. -/
  nodupKeys : (items.map Prod.fst).Nodup

namespace Dict

variable {κ : Type u} {ν : Type v}

@[ext] theorem ext {d e : Dict κ ν} (same : d.items = e.items) : d = e := by
  cases d
  cases e
  cases same
  rfl

instance [DecidableEq κ] [DecidableEq ν] : DecidableEq (Dict κ ν) := fun d e =>
  decidable_of_iff (d.items = e.items) ⟨ext, congrArg items⟩

/-- The dictionary without items. -/
def empty : Dict κ ν := ⟨[], List.nodup_nil⟩

/-- The keys in iteration order. -/
def keys (d : Dict κ ν) : List κ := d.items.map Prod.fst

/-- The number of items. -/
def size (d : Dict κ ν) : ℕ := d.items.length

variable [DecidableEq κ]

/-- The value stored under a key. -/
def get? (d : Dict κ ν) (k : κ) : Option ν := d.items.lookup k

/-- Whether a key is present. -/
def contains (d : Dict κ ν) (k : κ) : Bool := (d.get? k).isSome

private theorem map_replace_keys (l : List (κ × ν)) (k : κ) (v : ν) :
    (l.map fun p => if p.1 = k then (k, v) else p).map Prod.fst = l.map Prod.fst := by
  rw [List.map_map]
  refine List.map_congr_left fun p _ => ?_
  by_cases same : p.1 = k <;> simp [same]

/-- Assign a value to a key: in place when the key is present, else at the end. -/
def set (d : Dict κ ν) (k : κ) (v : ν) : Dict κ ν :=
  if present : k ∈ d.keys then
    ⟨d.items.map fun p => if p.1 = k then (k, v) else p, by
      rw [map_replace_keys]; exact d.nodupKeys⟩
  else
    ⟨d.items ++ [(k, v)], by
      rw [List.map_append, List.nodup_append]
      refine ⟨d.nodupKeys, by simp, ?_⟩
      rintro a member b last rfl
      obtain rfl : a = k := by simpa using last
      exact present member⟩

/-- Remove a key, if it is present. -/
def erase (d : Dict κ ν) (k : κ) : Dict κ ν :=
  ⟨d.items.filter fun p => p.1 ≠ k,
    d.nodupKeys.sublist ((List.filter_sublist (l := d.items)).map Prod.fst)⟩

/-- Remove every key of a list. -/
def eraseAll (d : Dict κ ν) (ks : List κ) : Dict κ ν := ks.foldl erase d

/-- Remove items from the front as long as they meet a condition. -/
def dropWhile (d : Dict κ ν) (p : κ × ν → Bool) : Dict κ ν :=
  ⟨d.items.dropWhile p, d.nodupKeys.sublist ((List.dropWhile_sublist p).map Prod.fst)⟩

/-- Keep the items that meet a condition. -/
def filter (d : Dict κ ν) (p : κ × ν → Bool) : Dict κ ν :=
  ⟨d.items.filter p, d.nodupKeys.sublist ((List.filter_sublist (l := d.items)).map Prod.fst)⟩

/-- Apply a function to every value. -/
def map {ω : Type*} (d : Dict κ ν) (f : ν → ω) : Dict κ ω :=
  ⟨d.items.map fun p => (p.1, f p.2), by
    rw [List.map_map]
    exact d.nodupKeys⟩

/-- The dictionary that assigning items in order builds; of a repeated key the
last value counts. -/
def ofItems (items : List (κ × ν)) : Dict κ ν := items.foldl (fun d p => d.set p.1 p.2) empty

/-! ### Lookup laws -/

omit [DecidableEq κ] in
private theorem eq_of_mem_items {l : List (κ × ν)} (nodup : (l.map Prod.fst).Nodup)
    {k : κ} {v w : ν} (hv : (k, v) ∈ l) (hw : (k, w) ∈ l) : v = w := by
  induction l with
  | nil => simp at hv
  | cons p l ih =>
    rw [List.map_cons, List.nodup_cons] at nodup
    rcases List.mem_cons.mp hv with rfl | hv' <;> rcases List.mem_cons.mp hw with hw' | hw'
    · exact (congrArg Prod.snd hw').symm
    · exact absurd (List.mem_map_of_mem hw') nodup.1
    · subst hw'
      exact absurd (List.mem_map_of_mem hv') nodup.1
    · exact ih nodup.2 hv' hw'

theorem get?_eq_some_iff {d : Dict κ ν} {k : κ} {v : ν} :
    d.get? k = some v ↔ (k, v) ∈ d.items := by
  have found {l : List (κ × ν)} {w : ν} : l.lookup k = some w → (k, w) ∈ l := by
    intro h
    obtain ⟨l₁, l₂, rfl, -⟩ := List.lookup_eq_some_iff.mp h
    simp
  refine ⟨found, fun member => ?_⟩
  cases hl : d.items.lookup k with
  | none =>
    have absent := List.lookup_eq_none_iff.mp hl (k, v) member
    simp at absent
  | some w =>
    rw [get?, hl, eq_of_mem_items d.nodupKeys member (found hl)]

theorem mem_keys_iff {d : Dict κ ν} {k : κ} : k ∈ d.keys ↔ ∃ v, d.get? k = some v := by
  simp [keys, get?_eq_some_iff]

theorem contains_iff {d : Dict κ ν} {k : κ} : d.contains k = true ↔ k ∈ d.keys := by
  rw [contains, Option.isSome_iff_exists, mem_keys_iff]

theorem get?_eq_none_iff {d : Dict κ ν} {k : κ} : d.get? k = none ↔ k ∉ d.keys := by
  rw [mem_keys_iff, Option.eq_none_iff_forall_ne_some, not_exists]

theorem contains_eq_false_iff {d : Dict κ ν} {k : κ} :
    d.contains k = false ↔ d.get? k = none := by
  rw [contains, Option.isSome_eq_false_iff, Option.isNone_iff_eq_none]

@[simp] theorem get?_empty (k : κ) : (empty : Dict κ ν).get? k = none := rfl

omit [DecidableEq κ] in
@[simp] theorem keys_empty : (empty : Dict κ ν).keys = [] := rfl

theorem keys_set (d : Dict κ ν) (k : κ) (v : ν) :
    (d.set k v).keys = if k ∈ d.keys then d.keys else d.keys ++ [k] := by
  unfold set
  split_ifs with present
  · exact map_replace_keys _ _ _
  · simp [keys]

theorem mem_keys_set {d : Dict κ ν} {k j : κ} {v : ν} :
    j ∈ (d.set k v).keys ↔ j = k ∨ j ∈ d.keys := by
  rw [keys_set]
  split_ifs with present
  · exact ⟨Or.inr, fun h => h.elim (fun same => same ▸ present) id⟩
  · rw [List.mem_append, List.mem_singleton, or_comm]

@[simp] theorem get?_set_self (d : Dict κ ν) (k : κ) (v : ν) : (d.set k v).get? k = some v := by
  rw [get?_eq_some_iff]
  unfold set
  split_ifs with present
  · obtain ⟨p, member, rfl⟩ := List.mem_map.mp present
    exact List.mem_map.mpr ⟨p, member, by simp⟩
  · simp

theorem get?_set_of_ne {d : Dict κ ν} {k j : κ} {v : ν} (ne : j ≠ k) :
    (d.set k v).get? j = d.get? j := by
  apply Option.ext
  intro w
  rw [get?_eq_some_iff, get?_eq_some_iff]
  unfold set
  split_ifs with present
  · simp only [List.mem_map]
    constructor
    · rintro ⟨p, member, changed⟩
      by_cases same : p.1 = k
      · rw [if_pos same] at changed
        exact absurd (congrArg Prod.fst changed).symm ne
      · rw [if_neg same] at changed
        exact changed ▸ member
    · intro member
      exact ⟨(j, w), member, if_neg ne⟩
  · simp [ne]

theorem get?_set (d : Dict κ ν) (k j : κ) (v : ν) :
    (d.set k v).get? j = if j = k then some v else d.get? j := by
  split_ifs with same
  · rw [same, get?_set_self]
  · exact get?_set_of_ne same

/-- The value that is assigned last counts. -/
theorem set_set (d : Dict κ ν) (k : κ) (v w : ν) : (d.set k v).set k w = d.set k w := by
  apply ext
  have stored : k ∈ (d.set k v).keys := mem_keys_set.mpr (.inl rfl)
  rw [set, dif_pos stored]
  unfold set
  split_ifs with present
  · dsimp only
    rw [List.map_map]
    apply List.map_congr_left
    intro p _
    by_cases same : p.1 = k
    · rw [Function.comp_apply, if_pos same, if_pos same, if_pos rfl]
    · rw [Function.comp_apply, if_neg same, if_neg same]
  · have others : (d.items.map fun p => if p.1 = k then (k, w) else p) = d.items := by
      conv_rhs => rw [← List.map_id d.items]
      apply List.map_congr_left
      intro p member
      have other : p.1 ≠ k := fun same => present (same ▸ List.mem_map_of_mem member)
      exact if_neg other
    dsimp only
    rw [List.map_append, others, List.map_singleton, if_pos rfl]

@[simp] theorem get?_erase_self (d : Dict κ ν) (k : κ) : (d.erase k).get? k = none := by
  rw [get?_eq_none_iff]
  simp [keys, erase]

theorem get?_erase_of_ne {d : Dict κ ν} {k j : κ} (ne : j ≠ k) :
    (d.erase k).get? j = d.get? j := by
  apply Option.ext
  intro w
  rw [get?_eq_some_iff, get?_eq_some_iff]
  simp [erase, ne]

theorem get?_erase (d : Dict κ ν) (k j : κ) :
    (d.erase k).get? j = if j = k then none else d.get? j := by
  split_ifs with same
  · rw [same, get?_erase_self]
  · exact get?_erase_of_ne same

/-- Removing a key only forgets: what is left was there. -/
theorem get?_of_get?_erase {d : Dict κ ν} {k j : κ} {v : ν}
    (h : (d.erase k).get? j = some v) : d.get? j = some v := by
  rw [get?_erase] at h
  split_ifs at h
  exact h

theorem get?_eraseAll (d : Dict κ ν) (ks : List κ) (j : κ) :
    (d.eraseAll ks).get? j = if j ∈ ks then none else d.get? j := by
  induction ks generalizing d with
  | nil => simp [eraseAll]
  | cons k ks ih =>
    change ((d.erase k).eraseAll ks).get? j = _
    rw [ih, get?_erase]
    by_cases later : j ∈ ks
    · rw [if_pos later, if_pos (List.mem_cons_of_mem k later)]
    · by_cases same : j = k
      · rw [if_neg later, if_pos same, if_pos (same ▸ List.mem_cons_self ..)]
      · rw [if_neg later, if_neg same, if_neg fun member =>
          (List.mem_cons.mp member).elim same later]

theorem get?_of_get?_dropWhile {d : Dict κ ν} {p : κ × ν → Bool} {k : κ} {v : ν}
    (h : (d.dropWhile p).get? k = some v) : d.get? k = some v := by
  rw [get?_eq_some_iff] at h ⊢
  exact (List.dropWhile_sublist p).subset h

theorem get?_filter_eq_some_iff {d : Dict κ ν} {p : κ × ν → Bool} {k : κ} {v : ν} :
    (d.filter p).get? k = some v ↔ d.get? k = some v ∧ p (k, v) = true := by
  rw [get?_eq_some_iff, get?_eq_some_iff, filter, List.mem_filter]

theorem get?_map {ω : Type*} (d : Dict κ ν) (f : ν → ω) (k : κ) :
    (d.map f).get? k = (d.get? k).map f := by
  apply Option.ext
  intro w
  have member : (k, w) ∈ (d.map f).items ↔ ∃ v, (k, v) ∈ d.items ∧ f v = w := by simp [map]
  rw [get?_eq_some_iff, member, Option.map_eq_some_iff]
  simp only [get?_eq_some_iff]

/-- An item that meets the condition is found as before. -/
theorem get?_filter_of_keeps {d : Dict κ ν} {p : κ × ν → Bool} {k : κ}
    (keeps : ∀ v, d.get? k = some v → p (k, v) = true) : (d.filter p).get? k = d.get? k := by
  apply Option.ext
  intro v
  rw [get?_filter_eq_some_iff]
  exact ⟨And.left, fun found => ⟨found, keeps v found⟩⟩

theorem items_set_of_notMem {d : Dict κ ν} {k : κ} {v : ν} (absent : k ∉ d.keys) :
    (d.set k v).items = d.items ++ [(k, v)] := by
  rw [set, dif_neg absent]

private theorem items_foldl_set {l : List (κ × ν)} {d : Dict κ ν}
    (nodup : ((d.items ++ l).map Prod.fst).Nodup) :
    (l.foldl (fun d p => d.set p.1 p.2) d).items = d.items ++ l := by
  induction l generalizing d with
  | nil => simp
  | cons p l ih =>
    have absent : p.1 ∉ d.keys := by
      rw [List.map_append, List.map_cons, List.nodup_append] at nodup
      intro present
      exact nodup.2.2 p.1 present p.1 List.mem_cons_self rfl
    have items : (d.set p.1 p.2).items = d.items ++ [p] := items_set_of_notMem absent
    rw [List.foldl_cons, ih (by simpa [items] using nodup), items, List.append_assoc]
    rfl

/-- A dictionary is built from its own items. -/
@[simp] theorem ofItems_items (d : Dict κ ν) : ofItems d.items = d := by
  apply ext
  exact (items_foldl_set (d := empty) (by simpa [empty] using d.nodupKeys)).trans
    (List.nil_append _)

/-- Items with distinct keys are those of the dictionary that they build. -/
theorem items_ofItems {l : List (κ × ν)} (nodup : (l.map Prod.fst).Nodup) : (ofItems l).items = l :=
  congrArg items (ofItems_items ⟨l, nodup⟩)

theorem mem_keys_ofItems {l : List (κ × ν)} {k : κ} :
    k ∈ (ofItems l).keys ↔ k ∈ l.map Prod.fst := by
  have loop (d : Dict κ ν) : k ∈ (l.foldl (fun d p => d.set p.1 p.2) d).keys ↔
      k ∈ d.keys ∨ k ∈ l.map Prod.fst := by
    induction l generalizing d with
    | nil => simp
    | cons p l ih => rw [List.foldl_cons, ih, mem_keys_set, List.map_cons, List.mem_cons, or_assoc,
        or_left_comm]
  simpa [ofItems] using loop empty

private theorem mem_of_mem_foldl_set {l : List (κ × ν)} {p : κ × ν} (d : Dict κ ν)
    (member : p ∈ (l.foldl (fun d p => d.set p.1 p.2) d).items) : p ∈ d.items ∨ p ∈ l := by
  induction l generalizing d with
  | nil => exact .inl member
  | cons q l ih =>
    rcases ih _ member with earlier | later
    · rw [← get?_eq_some_iff, get?_set] at earlier
      split_ifs at earlier with same
      · obtain rfl : q = p := Prod.ext same.symm (Option.some.inj earlier)
        exact .inr List.mem_cons_self
      · exact .inl (get?_eq_some_iff.mp earlier)
    · exact .inr (List.mem_cons_of_mem _ later)

/-- Every item comes from the list. -/
theorem mem_of_mem_items_ofItems {l : List (κ × ν)} {p : κ × ν} (member : p ∈ (ofItems l).items) :
    p ∈ l := (mem_of_mem_foldl_set empty member).resolve_left List.not_mem_nil

section Rename

variable {ι ω : Type*} [DecidableEq ι] {f : κ → ι} (g : ν → ω)

private theorem items_set_map {d : Dict κ ν} {e : Dict ι ω} {p : κ × ν}
    (same : e.items = d.items.map fun p => (f p.1, g p.2))
    (inj : ∀ k ∈ d.keys, f k = f p.1 → k = p.1) :
    (e.set (f p.1) (g p.2)).items = (d.set p.1 p.2).items.map fun p => (f p.1, g p.2) := by
  have present : f p.1 ∈ e.keys ↔ p.1 ∈ d.keys := by
    have keys : e.keys = d.keys.map f := by simp [Dict.keys, same, Function.comp_def]
    rw [keys]
    refine ⟨fun member => ?_, List.mem_map_of_mem⟩
    obtain ⟨k, member, named⟩ := List.mem_map.mp member
    exact inj k member named ▸ member
  unfold set
  by_cases old : p.1 ∈ d.keys
  · rw [dif_pos old, dif_pos (present.mpr old)]
    simp only [same, List.map_map, List.map_inj_left, Function.comp_apply]
    intro q member
    by_cases named : q.1 = p.1
    · rw [if_pos named, if_pos (congrArg f named)]
    · rw [if_neg named, if_neg fun equal => named (inj _ (List.mem_map_of_mem member) equal)]
  · rw [dif_neg old, dif_neg (mt present.mp old)]
    simp [same]

private theorem items_foldl_set_map {l : List (κ × ν)} {d : Dict κ ν} {e : Dict ι ω}
    (same : e.items = d.items.map fun p => (f p.1, g p.2))
    (inj : ∀ j k, j ∈ d.keys ∨ j ∈ l.map Prod.fst → k ∈ d.keys ∨ k ∈ l.map Prod.fst →
      f j = f k → j = k) :
    ((l.map fun p => (f p.1, g p.2)).foldl (fun e p => e.set p.1 p.2) e).items =
      (l.foldl (fun d p => d.set p.1 p.2) d).items.map fun p => (f p.1, g p.2) := by
  induction l generalizing d e with
  | nil => exact same
  | cons p l ih =>
    refine ih (items_set_map g same fun k member => ?_) fun j k hj hk => ?_
    · exact inj k p.1 (.inl member) (.inr List.mem_cons_self)
    · have within {k : κ} (member : k ∈ (d.set p.1 p.2).keys ∨ k ∈ l.map Prod.fst) :
          k ∈ d.keys ∨ k ∈ (p :: l).map Prod.fst := by
        rw [mem_keys_set] at member
        rw [List.map_cons, List.mem_cons]
        tauto
      exact inj j k (within hj) (within hk)

/-- Keys may be renamed and values changed before or after the dictionary is built,
as long as no two keys get one name. -/
theorem items_ofItems_map {l : List (κ × ν)}
    (inj : ∀ j ∈ l.map Prod.fst, ∀ k ∈ l.map Prod.fst, f j = f k → j = k) :
    (ofItems (l.map fun p => (f p.1, g p.2))).items =
      (ofItems l).items.map fun p => (f p.1, g p.2) :=
  items_foldl_set_map g rfl fun j k hj hk =>
    inj j (hj.resolve_left List.not_mem_nil) k (hk.resolve_left List.not_mem_nil)

end Rename

end Dict

end Foundation
