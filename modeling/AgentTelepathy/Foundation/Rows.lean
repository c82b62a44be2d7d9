import AgentTelepathy.Foundation.Dialect

/-!
# Values written alike

Two dialects write two values as one text exactly if the values agree: constructor by
constructor, with equal texts of numbers, and with strings that no escaping tells apart.
A record has its members in rows, some of which may be missing. It agrees with a complete
one if no row is missing and every row agrees.
-/

namespace Foundation

namespace JsonTree

variable {ν μ : Type*}

/-- The members that are present in the rows of a record. -/
def present (rows : List (String × Option (JsonTree ν))) : List (String × JsonTree ν) :=
  rows.filterMap fun row => row.2.map fun v => (row.1, v)

theorem keys_present_sublist (rows : List (String × Option (JsonTree ν))) :
    ((present rows).map Prod.fst).Sublist (rows.map Prod.fst) := by
  induction rows with
  | nil => exact List.Sublist.refl _
  | cons row rows ih =>
    obtain ⟨k, _ | v⟩ := row
    · exact ih.cons k
    · exact ih.cons_cons k

/-- If no row is missing, the rows are the members. -/
theorem rows_of_keys_present {rows : List (String × Option (JsonTree ν))}
    (all : (present rows).map Prod.fst = rows.map Prod.fst) :
    rows = (present rows).map fun p => (p.1, some p.2) := by
  induction rows with
  | nil => rfl
  | cons row rows ih =>
    obtain ⟨k, _ | v⟩ := row
    · have short := (keys_present_sublist rows).length_le
      have lengths := congrArg List.length all
      simp only [List.map_cons, List.length_cons, List.length_map] at lengths short
      change (present rows).length = rows.length + 1 at lengths
      omega
    · have rest := ih (List.cons.inj all).2
      exact congrArg _ rest

/-- Rows with distinct names are given by their cells. -/
theorem exists_cell {α : Type*} [Inhabited α] {rows : List (String × α)}
    (nodup : (rows.map Prod.fst).Nodup) :
    ∃ cell : String → α, rows = (rows.map Prod.fst).map fun k => (k, cell k) := by
  induction rows with
  | nil => exact ⟨fun _ => default, rfl⟩
  | cons row rows ih =>
    obtain ⟨k, a⟩ := row
    rw [List.map_cons, List.nodup_cons] at nodup
    obtain ⟨cell, rest⟩ := ih nodup.2
    refine ⟨Function.update cell k a, ?_⟩
    have kept : ∀ j ∈ rows.map Prod.fst, (j, Function.update cell k a j) = (j, cell j) := by
      intro j member
      have other : j ≠ k := fun same => nodup.1 (same ▸ member)
      rw [Function.update_of_ne other]
    rw [List.map_cons, List.map_cons, Function.update_self, List.map_congr_left kept, ← rest]

theorem present_map {β : Type*} (l : List β) {name : β → String}
    {cell : β → Option (JsonTree ν)} {value : β → JsonTree ν}
    (all : ∀ x ∈ l, cell x = some (value x)) :
    present (l.map fun x => (name x, cell x)) = l.map fun x => (name x, value x) := by
  induction l with
  | nil => rfl
  | cons x l ih =>
    obtain ⟨here, rest⟩ := List.forall_mem_cons.mp all
    rw [List.map_cons, List.map_cons, ← ih rest, here]
    rfl

/-- Members of one set with their keys in one order are equal lists. -/
theorem eq_of_perm_of_keys {σ : Type} {l m : List (σ × JsonTree ν σ)} (perm : l.Perm m)
    (keys : l.map Prod.fst = m.map Prod.fst) (nodup : (l.map Prod.fst).Nodup) : l = m := by
  induction l generalizing m with
  | nil => exact (List.nil_perm.mp perm).symm
  | cons p l ih =>
    cases m with
    | nil => cases keys
    | cons q m =>
      rw [List.map_cons, List.map_cons, List.cons.injEq] at keys
      rw [List.map_cons, List.nodup_cons] at nodup
      -- The first member of the one has the first key of the other.
      have first : p = q := by
        rcases List.mem_cons.mp (perm.mem_iff.mp List.mem_cons_self) with same | later
        · exact same
        · exact absurd (keys.2 ▸ List.mem_map_of_mem later) nodup.1
      subst first
      rw [ih ((List.perm_cons p).mp perm) keys.2 nodup.2]

end JsonTree

namespace Dialect

open JsonTree

variable {ν μ : Type*} (d : Dialect ν) (e : Dialect μ)

/-- The two dialects write the two values as one text. -/
def Agree (v : JsonTree ν) (w : JsonTree μ) : Prop :=
  sort d.form.code (v.map d.number) = sort e.form.code (w.map e.number) ∧
    v.Passes { string := Alike d.escaping e.escaping }

variable {d e}

theorem text_eq_iff_agree {v : JsonTree ν} {w : JsonTree μ} (hv : d.Words v) (hw : e.Words w) :
    d.text v = e.text w ↔ Agree d e v w := text_eq_iff hv hw

@[simp] theorem agree_null : Agree d e .null .null := ⟨rfl, trivial⟩

@[simp] theorem agree_bool_iff {a b : Bool} : Agree d e (.bool a) (.bool b) ↔ a = b :=
  ⟨fun agree => JsonTree.bool.inj agree.1, fun same => ⟨congrArg JsonTree.bool same, trivial⟩⟩

@[simp] theorem agree_num_iff {x : ν} {y : μ} :
    Agree d e (.num x) (.num y) ↔ d.number x = e.number y :=
  ⟨fun agree => JsonTree.num.inj agree.1, fun same => ⟨congrArg JsonTree.num same, trivial⟩⟩

/-- Only a string is written as a string. -/
theorem agree_str_iff {v : JsonTree ν} {s : String} :
    Agree d e v (.str s) ↔ v = .str s ∧ Alike d.escaping e.escaping s := by
  constructor
  · rintro ⟨same, strings⟩
    cases v with
    | str t =>
      obtain rfl := JsonTree.str.inj same
      exact ⟨rfl, strings⟩
    | null | bool | num | arr | obj => cases same
  · rintro ⟨rfl, alike⟩
    exact ⟨rfl, alike⟩

theorem agree_arr_iff {l : List (JsonTree ν)} {m : List (JsonTree μ)} :
    Agree d e (.arr l) (.arr m) ↔ List.Forall₂ (Agree d e) l m := by
  have items : Agree d e (.arr l) (.arr m) ↔
      sortItems d.form.code (mapItems d.number l) = sortItems e.form.code (mapItems e.number m) ∧
        ItemsPass { string := Alike d.escaping e.escaping } l :=
    and_congr ⟨JsonTree.arr.inj, congrArg JsonTree.arr⟩ Iff.rfl
  rw [items]
  clear items
  induction l generalizing m with
  | nil =>
    cases m with
    | nil => exact iff_of_true ⟨rfl, trivial⟩ .nil
    | cons w m => exact iff_of_false (fun h => by cases h.1) nofun
  | cons v l ih =>
    cases m with
    | nil => exact iff_of_false (fun h => by cases h.1) nofun
    | cons w m =>
      refine Iff.trans ?_ ((and_congr Iff.rfl ih).trans List.forall₂_cons.symm)
      rw [mapItems, mapItems, sortItems, sortItems, List.cons.injEq, ItemsPass, Agree]
      exact and_and_and_comm

/-- A value and what another dialect has for its numbers agree exactly on all their parts. -/
theorem agree_map_iff {g : ν → μ} {v : JsonTree ν} (distinct : v.Distinct) :
    Agree d e v (v.map g) ↔ v.Passes
      { number := fun x => d.number x = e.number (g x)
        string := Alike d.escaping e.escaping
        keys := SameOrder d.form.code e.form.code } := by
  rw [Agree, map_map,
    sort_map_eq_iff CodeUnits.code_injective CodeUnits.code_injective _ _ v distinct]
  exact Dialect.passes_and_strings_iff

/-! ### Objects -/

theorem agree_obj_iff {l : List (String × JsonTree ν)} {m : List (String × JsonTree μ)} :
    Agree d e (.obj l) (.obj m) ↔
      byCode d.form.code (l.map fun p => (p.1, sort d.form.code (p.2.map d.number))) =
        byCode e.form.code (m.map fun p => (p.1, sort e.form.code (p.2.map e.number))) ∧
      ∀ p ∈ l, Alike d.escaping e.escaping p.1 ∧
        p.2.Passes { string := Alike d.escaping e.escaping } := by
  have members : (JsonTree.obj l).Passes { string := Alike d.escaping e.escaping } ↔
      ∀ p ∈ l, Alike d.escaping e.escaping p.1 ∧
        p.2.Passes { string := Alike d.escaping e.escaping } :=
    (and_iff_right trivial).trans membersPass_iff
  rw [Agree, members, map, map, sort, sort, JsonTree.obj.injEq, sortMembers_eq_map,
    sortMembers_eq_map, mapMembers_eq_map, mapMembers_eq_map, List.map_map, List.map_map]
  rfl

/-- Objects that agree have the same keys. -/
theorem Agree.keys_perm {l : List (String × JsonTree ν)} {m : List (String × JsonTree μ)}
    (agree : Agree d e (.obj l) (.obj m)) : (l.map Prod.fst).Perm (m.map Prod.fst) := by
  obtain ⟨same, -⟩ := agree_obj_iff.mp agree
  have perm := (perm_byCode d.form.code _).symm.trans (same ▸ perm_byCode e.form.code _)
  have keys := perm.map Prod.fst
  rwa [List.map_map, List.map_map] at keys

/-- Related members of lists with equal keys are related with their keys. -/
theorem forall₂_of_keys {α β : Type*} {R S : String × α → String × β → Prop}
    {l : List (String × α)} {m : List (String × β)} (keys : l.map Prod.fst = m.map Prod.fst)
    (all : List.Forall₂ R l m) (step : ∀ p q, p.1 = q.1 → R p q → S p q) : List.Forall₂ S l m := by
  induction all with
  | nil => exact .nil
  | cons related _ ih =>
    rw [List.map_cons, List.map_cons, List.cons.injEq] at keys
    exact .cons (step _ _ keys.1 related) (ih keys.2)

theorem forall₂_and {α β : Type*} {R S : α → β → Prop} {l : List α} {m : List β} :
    List.Forall₂ (fun a b => R a b ∧ S a b) l m ↔ List.Forall₂ R l m ∧ List.Forall₂ S l m := by
  constructor
  · exact fun both => ⟨both.imp fun _ _ h => h.1, both.imp fun _ _ h => h.2⟩
  · rintro ⟨left, right⟩
    induction left with
    | nil => exact .nil
    | cons first _ ih =>
      obtain ⟨second, rest⟩ := List.forall₂_cons.mp right
      exact .cons ⟨first, second⟩ (ih rest)

/-- Complete records with their keys in one order agree member by member. -/
theorem agree_members_iff {l : List (String × JsonTree ν)} {m : List (String × JsonTree μ)}
    (keys : l.map Prod.fst = m.map Prod.fst) (nodup : (m.map Prod.fst).Nodup)
    (order : SameOrder d.form.code e.form.code (m.map Prod.fst))
    (plain : ∀ k ∈ m.map Prod.fst, Alike d.escaping e.escaping k) :
    Agree d e (.obj l) (.obj m) ↔ List.Forall₂ (fun p q => Agree d e p.2 q.2) l m := by
  let f (p : String × JsonTree ν) := (p.1, sort d.form.code (p.2.map d.number))
  let g (q : String × JsonTree μ) := (q.1, sort e.form.code (q.2.map e.number))
  have keysF : (l.map f).map Prod.fst = l.map Prod.fst := List.map_map
  have keysG : (m.map g).map Prod.fst = m.map Prod.fst := List.map_map
  have pairs : List.Forall₂ (fun p q => f p = g q) l m ↔ l.map f = m.map g := by
    rw [← List.forall₂_map_left_iff (R := fun x q => x = g q), ← List.forall₂_map_right_iff,
      List.forall₂_eq_eq_eq]
  rw [agree_obj_iff]
  constructor
  · rintro ⟨same, strings⟩
    -- Sorting is undone: equal keys in equal places give equal members.
    have perm : (l.map f).Perm (m.map g) :=
      (perm_byCode d.form.code _).symm.trans (same ▸ perm_byCode e.form.code (m.map g))
    have equal := eq_of_perm_of_keys perm (keysF.trans (keys.trans keysG.symm))
      (keysF ▸ keys ▸ nodup)
    have both := (List.forall₂_and_left _ _).mpr ⟨strings, pairs.mpr equal⟩
    exact both.imp fun p q h => ⟨(Prod.mk.inj h.2).2, h.1.2⟩
  · intro all
    have equal : l.map f = m.map g := pairs.mp (forall₂_of_keys keys all fun p q key agree =>
      Prod.ext key agree.1)
    have strings := ((List.forall₂_and_left l m).mp (all.imp fun _ _ agree => ⟨agree.2, agree⟩)).1
    refine ⟨?_, fun p hp => ⟨plain _ (keys ▸ List.mem_map_of_mem hp), strings p hp⟩⟩
    -- With the same members, two codes that agree on the keys sort alike.
    have sorted := (byCode_eq_iff CodeUnits.code_injective CodeUnits.code_injective
      (keysG.symm ▸ nodup) id id).mpr ⟨fun _ _ => rfl, keysG.symm ▸ order⟩
    simp only [id, List.map_id'] at sorted
    exact (congrArg (byCode d.form.code) equal).trans sorted

/-- Rows whose values are all there are their members. -/
theorem rows_of_forall₂ {rows : List (String × Option (JsonTree ν))} {β : Type*} {l : List β}
    {R : JsonTree ν → β → Prop} (all : List.Forall₂ (fun row b => ∃ v, row.2 = some v ∧ R v b)
      rows l) : rows = (present rows).map fun p => (p.1, some p.2) := by
  induction all with
  | nil => rfl
  | @cons row b rows l here _ ih =>
    obtain ⟨k, _⟩ := row
    obtain ⟨v, rfl, -⟩ := here
    exact congrArg (List.cons (k, some v)) ih

section Rows

variable {rows : List (String × Option (JsonTree ν))} {members : List (String × JsonTree μ)}
  (keys : rows.map Prod.fst = members.map Prod.fst)

include keys

/-- A record that agrees with a complete one has no missing row. -/
theorem Agree.rows_eq (agree : Agree d e (.obj (present rows)) (.obj members)) :
    rows = (present rows).map fun p => (p.1, some p.2) := by
  refine rows_of_keys_present ((keys_present_sublist rows).eq_of_length ?_)
  rw [agree.keys_perm.length_eq, keys]

/-- A record agrees with a complete one exactly if no row is missing and every row agrees. -/
theorem agree_rows_iff (nodup : (members.map Prod.fst).Nodup)
    (order : SameOrder d.form.code e.form.code (members.map Prod.fst))
    (plain : ∀ k ∈ members.map Prod.fst, Alike d.escaping e.escaping k) :
    Agree d e (.obj (present rows)) (.obj members) ↔
      List.Forall₂ (fun row p => ∃ v, row.2 = some v ∧ Agree d e v p.2) rows members := by
  have split : ∀ l : List (String × JsonTree ν), l.map Prod.fst = members.map Prod.fst →
      (Agree d e (.obj l) (.obj members) ↔
        List.Forall₂ (fun row p => ∃ v, row.2 = some v ∧ Agree d e v p.2)
          (l.map fun p => (p.1, some p.2)) members) := by
    intro l same
    rw [agree_members_iff same nodup order plain, List.forall₂_map_left_iff]
    simp only [Option.some.injEq, exists_eq_left']
  constructor
  · intro agree
    have whole := agree.rows_eq keys
    rw [whole, List.map_map] at keys
    rw [whole]
    exact (split _ keys).mp agree
  · intro all
    have whole := rows_of_forall₂ all
    rw [whole, List.map_map] at keys
    rw [whole] at all
    exact (split _ keys).mpr all

end Rows

end Dialect

end Foundation
