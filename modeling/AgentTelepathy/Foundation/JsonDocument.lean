import AgentTelepathy.Foundation.Decimal
import AgentTelepathy.Foundation.Dict
import AgentTelepathy.Foundation.JsonTree

/-!
# JSON documents

A document is what a JSON text says before any reader rounds or repairs it: numbers
are exact decimals, strings are sequences of UTF-16 code units, for an escape may be
half of a pair, and an object may have a name twice. Of members with one name the
last counts. Readers change the numbers and the strings, and do it before they drop
members; the two orders agree as long as no two names become one.
-/

namespace Foundation

namespace JsonTree

variable {ν μ κ : Type*} {σ τ ρ : Type}

/-! ### Testing -/

section Decide

variable (t : Test ν σ) [DecidablePred t.number] [DecidablePred t.string] [DecidablePred t.keys]

mutual

/-- Test a value. -/
def decidePasses : ∀ v : JsonTree ν σ, Decidable (v.Passes t)
  | .null | .bool _ => .isTrue trivial
  | .num x => inferInstanceAs (Decidable (t.number x))
  | .str s => inferInstanceAs (Decidable (t.string s))
  | .arr l => decideItemsPass l
  | .obj l => haveI := decideMembersPass l; inferInstanceAs (Decidable (_ ∧ _))

/-- Test every item. -/
def decideItemsPass : ∀ l : List (JsonTree ν σ), Decidable (ItemsPass t l)
  | [] => .isTrue trivial
  | v :: l =>
    haveI := decidePasses v; haveI := decideItemsPass l; inferInstanceAs (Decidable (_ ∧ _))

/-- Test every member. -/
def decideMembersPass : ∀ l : List (σ × JsonTree ν σ), Decidable (MembersPass t l)
  | [] => .isTrue trivial
  | (_, v) :: l =>
    haveI := decidePasses v; haveI := decideMembersPass l; inferInstanceAs (Decidable (_ ∧ _ ∧ _))

end

instance (v : JsonTree ν σ) : Decidable (v.Passes t) := decidePasses t v

end Decide

/-! ### Changing numbers and strings -/

mutual

/-- Change every number and every string, keys among them. -/
def relabel (f : ν → μ) (g : σ → τ) : JsonTree ν σ → JsonTree μ τ
  | .null => .null
  | .bool b => .bool b
  | .num x => .num (f x)
  | .str s => .str (g s)
  | .arr l => .arr (relabelItems f g l)
  | .obj l => .obj (relabelMembers f g l)

/-- Change the numbers and strings inside every item. -/
def relabelItems (f : ν → μ) (g : σ → τ) : List (JsonTree ν σ) → List (JsonTree μ τ)
  | [] => []
  | v :: l => relabel f g v :: relabelItems f g l

/-- Change every key, and the numbers and strings inside its value. -/
def relabelMembers (f : ν → μ) (g : σ → τ) : List (σ × JsonTree ν σ) → List (τ × JsonTree μ τ)
  | [] => []
  | (k, v) :: l => (g k, relabel f g v) :: relabelMembers f g l

end

variable (f : ν → μ) (g : σ → τ)

theorem relabelMembers_eq_map (l : List (σ × JsonTree ν σ)) :
    relabelMembers f g l = l.map fun p => (g p.1, relabel f g p.2) := by
  induction l with
  | nil => rfl
  | cons p l ih => rw [relabelMembers, ih, List.map_cons]

mutual

theorem map_eq_relabel : ∀ v : JsonTree ν σ, map f v = relabel f id v
  | .null | .bool _ | .num _ | .str _ => rfl
  | .arr l => congrArg JsonTree.arr (mapItems_eq_relabelItems l)
  | .obj l => congrArg JsonTree.obj (mapMembers_eq_relabelMembers l)

theorem mapItems_eq_relabelItems : ∀ l : List (JsonTree ν σ), mapItems f l = relabelItems f id l
  | [] => rfl
  | v :: l => by rw [mapItems, relabelItems, map_eq_relabel v, mapItems_eq_relabelItems l]

theorem mapMembers_eq_relabelMembers :
    ∀ l : List (σ × JsonTree ν σ), mapMembers f l = relabelMembers f id l
  | [] => rfl
  | (k, v) :: l => by
    rw [mapMembers, relabelMembers, map_eq_relabel v, mapMembers_eq_relabelMembers l]
    rfl

end

mutual

theorem relabel_relabel (f' : μ → κ) (g' : τ → ρ) :
    ∀ v : JsonTree ν σ, relabel f' g' (relabel f g v) = relabel (f' ∘ f) (g' ∘ g) v
  | .null | .bool _ | .num _ | .str _ => rfl
  | .arr l => congrArg JsonTree.arr (relabelItems_relabelItems f' g' l)
  | .obj l => congrArg JsonTree.obj (relabelMembers_relabelMembers f' g' l)

theorem relabelItems_relabelItems (f' : μ → κ) (g' : τ → ρ) : ∀ l : List (JsonTree ν σ),
    relabelItems f' g' (relabelItems f g l) = relabelItems (f' ∘ f) (g' ∘ g) l
  | [] => rfl
  | v :: l => by
    rw [relabelItems, relabelItems, relabelItems, relabel_relabel f' g' v,
      relabelItems_relabelItems f' g' l]

theorem relabelMembers_relabelMembers (f' : μ → κ) (g' : τ → ρ) : ∀ l : List (σ × JsonTree ν σ),
    relabelMembers f' g' (relabelMembers f g l) = relabelMembers (f' ∘ f) (g' ∘ g) l
  | [] => rfl
  | (k, v) :: l => by
    rw [relabelMembers, relabelMembers, relabelMembers, relabel_relabel f' g' v,
      relabelMembers_relabelMembers f' g' l]
    rfl

end

mutual

theorem relabel_id : ∀ v : JsonTree ν σ, relabel id id v = v
  | .null | .bool _ | .num _ | .str _ => rfl
  | .arr l => congrArg JsonTree.arr (relabelItems_id l)
  | .obj l => congrArg JsonTree.obj (relabelMembers_id l)

theorem relabelItems_id : ∀ l : List (JsonTree ν σ), relabelItems id id l = l
  | [] => rfl
  | v :: l => by rw [relabelItems, relabel_id v, relabelItems_id l]

theorem relabelMembers_id : ∀ l : List (σ × JsonTree ν σ), relabelMembers id id l = l
  | [] => rfl
  | (k, v) :: l => by rw [relabelMembers, relabel_id v, relabelMembers_id l]; rfl

end

/-- What a relabelled value must pass is asked of the new numbers and strings. -/
def Test.relabel (t : Test μ τ) : Test ν σ :=
  ⟨fun x => t.number (f x), fun s => t.string (g s), fun ks => t.keys (ks.map g)⟩

mutual

theorem passes_relabel {t : Test μ τ} :
    ∀ v : JsonTree ν σ, (relabel f g v).Passes t ↔ v.Passes (t.relabel f g)
  | .null | .bool _ | .num _ | .str _ => Iff.rfl
  | .arr l => itemsPass_relabelItems l
  | .obj l => by
    have keys : (relabelMembers f g l).map Prod.fst = (l.map Prod.fst).map g := by
      simp [relabelMembers_eq_map, Function.comp_def]
    rw [relabel, Passes, Passes, keys, membersPass_relabelMembers l]
    rfl

theorem itemsPass_relabelItems {t : Test μ τ} : ∀ l : List (JsonTree ν σ),
    ItemsPass t (relabelItems f g l) ↔ ItemsPass (t.relabel f g) l
  | [] => Iff.rfl
  | v :: l => and_congr (passes_relabel v) (itemsPass_relabelItems l)

theorem membersPass_relabelMembers {t : Test μ τ} : ∀ l : List (σ × JsonTree ν σ),
    MembersPass t (relabelMembers f g l) ↔ MembersPass (t.relabel f g) l
  | [] => Iff.rfl
  | (_, v) :: l =>
    and_congr Iff.rfl (and_congr (passes_relabel v) (membersPass_relabelMembers l))

end

/-- New names for the keys leave them distinct if no two keys get one. -/
theorem distinct_relabel {g : σ → τ} (inj : Function.Injective g) {v : JsonTree ν σ} :
    (relabel f g v).Distinct ↔ v.Distinct := by
  have same : Test.relabel (ν := ν) f g { keys := List.Nodup } = { keys := List.Nodup } := by
    have nodup : (fun ks : List σ => (ks.map g).Nodup) = List.Nodup := by
      funext ks
      exact propext (List.nodup_map_iff inj)
    simp only [Test.relabel, nodup]
  rw [Distinct, passes_relabel, same]

/-! ### Order after relabelling -/

theorem byCode_perm {code : σ → List ℕ} (inj : Function.Injective code)
    {l m : List (σ × JsonTree ν σ)} (nodup : (m.map Prod.fst).Nodup) (perm : l.Perm m) :
    byCode code l = byCode code m :=
  eq_byCode inj nodup (pairwise_byCode code l) ((perm_byCode code l).trans perm)

variable {f g} {code : σ → List ℕ} {code' : τ → List ℕ}

mutual

/-- The order before makes no difference to the order after. -/
theorem sort_relabel_sort (inj : Function.Injective g) (inj' : Function.Injective code') :
    ∀ v : JsonTree ν σ, v.Distinct →
      sort code' (relabel f g (sort code v)) = sort code' (relabel f g v)
  | .null, _ | .bool _, _ | .num _, _ | .str _, _ => rfl
  | .arr l, h => congrArg JsonTree.arr (sortItems_relabelItems_sortItems inj inj' l h)
  | .obj l, h => by
    have values := sortMembers_relabelMembers_sortMembers inj inj' l h.2
    have keys : ((sortMembers code' (relabelMembers f g l)).map Prod.fst).Nodup := by
      have renamed : (sortMembers code' (relabelMembers f g l)).map Prod.fst =
          (l.map Prod.fst).map g := by
        simp [sortMembers_eq_map, relabelMembers_eq_map, Function.comp_def]
      rw [renamed]
      exact h.1.map inj
    have perm : (sortMembers code' (relabelMembers f g (byCode code (sortMembers code l)))).Perm
        (sortMembers code' (relabelMembers f g l)) := by
      rw [← values]
      simp only [sortMembers_eq_map code', relabelMembers_eq_map]
      exact ((perm_byCode code _).map _).map _
    rw [sort, relabel, relabel, sort, sort, byCode_perm inj' keys perm]

theorem sortItems_relabelItems_sortItems (inj : Function.Injective g)
    (inj' : Function.Injective code') :
    ∀ l : List (JsonTree ν σ), ItemsPass { keys := List.Nodup } l →
      sortItems code' (relabelItems f g (sortItems code l)) = sortItems code' (relabelItems f g l)
  | [], _ => rfl
  | v :: l, h => by
    rw [sortItems, relabelItems, relabelItems, sortItems, sortItems,
      sort_relabel_sort inj inj' v h.1, sortItems_relabelItems_sortItems inj inj' l h.2]

theorem sortMembers_relabelMembers_sortMembers (inj : Function.Injective g)
    (inj' : Function.Injective code') :
    ∀ l : List (σ × JsonTree ν σ), MembersPass { keys := List.Nodup } l →
      sortMembers code' (relabelMembers f g (sortMembers code l)) =
        sortMembers code' (relabelMembers f g l)
  | [], _ => rfl
  | (k, v) :: l, h => by
    rw [sortMembers, relabelMembers, relabelMembers, sortMembers, sortMembers,
      sort_relabel_sort inj inj' v h.2.1, sortMembers_relabelMembers_sortMembers inj inj' l h.2.2]

end

theorem sort_relabel_congr (inj : Function.Injective g) (inj' : Function.Injective code')
    {v w : JsonTree ν σ} (hv : v.Distinct) (hw : w.Distinct) (same : sort code v = sort code w) :
    sort code' (relabel f g v) = sort code' (relabel f g w) := by
  calc sort code' (relabel f g v)
      = sort code' (relabel f g (sort code v)) := (sort_relabel_sort inj inj' v hv).symm
    _ = sort code' (relabel f g (sort code w)) := by rw [same]
    _ = sort code' (relabel f g w) := sort_relabel_sort inj inj' w hw

/-! ### Members with one name -/

variable [DecidableEq σ] [DecidableEq τ]

mutual

/-- Keep one member of a name, with the value of the last. -/
def merged : JsonTree ν σ → JsonTree ν σ
  | .arr l => .arr (mergedItems l)
  | .obj l => .obj (Dict.ofItems (mergedMembers l)).items
  | v => v

/-- Merge inside every item. -/
def mergedItems : List (JsonTree ν σ) → List (JsonTree ν σ)
  | [] => []
  | v :: l => merged v :: mergedItems l

/-- Merge inside every member's value. -/
def mergedMembers : List (σ × JsonTree ν σ) → List (σ × JsonTree ν σ)
  | [] => []
  | (k, v) :: l => (k, merged v) :: mergedMembers l

end

theorem mergedMembers_eq_map (l : List (σ × JsonTree ν σ)) :
    mergedMembers l = l.map fun p => (p.1, merged p.2) := by
  induction l with
  | nil => rfl
  | cons p l ih => rw [mergedMembers, ih, List.map_cons]

mutual

theorem distinct_merged : ∀ v : JsonTree ν σ, (merged v).Distinct
  | .null | .bool _ | .num _ | .str _ => trivial
  | .arr l => distinct_mergedItems l
  | .obj l => by
    refine ⟨(Dict.ofItems (mergedMembers l)).nodupKeys, membersPass_iff.mpr fun p member =>
      ⟨trivial, ?_⟩⟩
    exact (membersPass_iff.mp (distinct_mergedMembers l) p (Dict.mem_of_mem_items_ofItems member)).2

theorem distinct_mergedItems :
    ∀ l : List (JsonTree ν σ), ItemsPass { keys := List.Nodup } (mergedItems l)
  | [] => trivial
  | v :: l => ⟨distinct_merged v, distinct_mergedItems l⟩

theorem distinct_mergedMembers :
    ∀ l : List (σ × JsonTree ν σ), MembersPass { keys := List.Nodup } (mergedMembers l)
  | [] => trivial
  | (_, v) :: l => ⟨trivial, distinct_merged v, distinct_mergedMembers l⟩

end

mutual

/-- Where names are distinct nothing is dropped. -/
theorem merged_of_distinct : ∀ v : JsonTree ν σ, v.Distinct → merged v = v
  | .null, _ | .bool _, _ | .num _, _ | .str _, _ => rfl
  | .arr l, h => congrArg JsonTree.arr (mergedItems_of_distinct l h)
  | .obj l, h => by
    rw [merged, mergedMembers_of_distinct l h.2, Dict.items_ofItems h.1]

theorem mergedItems_of_distinct :
    ∀ l : List (JsonTree ν σ), ItemsPass { keys := List.Nodup } l → mergedItems l = l
  | [], _ => rfl
  | v :: l, h => by rw [mergedItems, merged_of_distinct v h.1, mergedItems_of_distinct l h.2]

theorem mergedMembers_of_distinct :
    ∀ l : List (σ × JsonTree ν σ), MembersPass { keys := List.Nodup } l → mergedMembers l = l
  | [], _ => rfl
  | (k, v) :: l, h => by
    rw [mergedMembers, merged_of_distinct v h.2.1, mergedMembers_of_distinct l h.2.2]

end

mutual

/-- Numbers may be changed before or after. -/
theorem merged_map : ∀ v : JsonTree ν σ, merged (map f v) = map f (merged v)
  | .null | .bool _ | .num _ | .str _ => rfl
  | .arr l => congrArg JsonTree.arr (mergedItems_mapItems l)
  | .obj l => by
    have renamed := Dict.items_ofItems_map (f := id) (map f) (l := mergedMembers l)
      fun _ _ _ _ same => same
    rw [map, merged, mergedMembers_mapMembers l, mapMembers_eq_map]
    exact congrArg JsonTree.obj (renamed.trans (mapMembers_eq_map f _).symm)

theorem mergedItems_mapItems :
    ∀ l : List (JsonTree ν σ), mergedItems (mapItems f l) = mapItems f (mergedItems l)
  | [] => rfl
  | v :: l => by
    rw [mapItems, mergedItems, mergedItems, mapItems, merged_map v, mergedItems_mapItems l]

theorem mergedMembers_mapMembers : ∀ l : List (σ × JsonTree ν σ),
    mergedMembers (mapMembers f l) = mapMembers f (mergedMembers l)
  | [] => rfl
  | (k, v) :: l => by
    rw [mapMembers, mergedMembers, mergedMembers, mapMembers, merged_map v,
      mergedMembers_mapMembers l]

end

/-! ### What a reader keeps -/

section Kept

variable {g : σ → τ} {keep : τ → Prop} {back : τ → σ} (n : μ → ν)
  (inv : ∀ s, keep (g s) → back (g s) = s)

/-- No numbers, and only strings that are kept. -/
abbrev Test.kept (keep : σ → Prop) : Test ν σ := { number := fun _ => False, string := keep }

/-- The value has only what is kept, as a document or as it was read. -/
def Kept (f : ν → μ) (g : σ → τ) (keep : τ → Prop) (v : JsonTree ν σ) : Prop :=
  (merged v).Passes (.kept (keep ∘ g)) ∨ (merged (relabel f g v)).Passes (.kept keep)

/-- What was read gives the document back. -/
def GivesBack (f : ν → μ) (g : σ → τ) (keep : τ → Prop) (n : μ → ν) (back : τ → σ)
    (v : JsonTree ν σ) : Prop :=
  relabel n back (merged (relabel f g v)) = merged v ∧ (merged (relabel f g v)).Passes (.kept keep)

include inv in
/-- The members of an object, once those of its members are known. -/
theorem givesBack_obj {l : List (σ × JsonTree ν σ)}
    (ih : ∀ p ∈ l, Kept f g keep p.2 → GivesBack f g keep n back p.2)
    (kept : Kept f g keep (.obj l)) : GivesBack f g keep n back (.obj l) := by
  have document : mergedMembers l = l.map fun p => (id p.1, merged p.2) := mergedMembers_eq_map l
  have reader : mergedMembers (relabelMembers f g l) =
      l.map fun p => (g p.1, merged (relabel f g p.2)) := by
    simp [mergedMembers_eq_map, relabelMembers_eq_map]
  -- Every key is a key of what is left of the members.
  have keys : ∀ k ∈ l.map Prod.fst, keep (g k) := by
    intro k member
    rcases kept with here | there
    · have left : k ∈ (Dict.ofItems (mergedMembers l)).keys := by
        rw [Dict.mem_keys_ofItems, document]
        simpa using member
      obtain ⟨p, item, rfl⟩ := List.mem_map.mp left
      exact (membersPass_iff.mp here.2 p item).1
    · have left : g k ∈ (Dict.ofItems (mergedMembers (relabelMembers f g l))).keys := by
        rw [Dict.mem_keys_ofItems, reader, List.map_map]
        obtain ⟨p, item, rfl⟩ := List.mem_map.mp member
        exact List.mem_map_of_mem item
      obtain ⟨p, item, same⟩ := List.mem_map.mp left
      exact same ▸ (membersPass_iff.mp there.2 p item).1
  have inj : ∀ j ∈ l.map Prod.fst, ∀ k ∈ l.map Prod.fst, g j = g k → j = k := by
    intro j hj k hk same
    rw [← inv j (keys j hj), same, inv k (keys k hk)]
  have documentItems := Dict.items_ofItems_map (f := id) (merged (ν := ν) (σ := σ))
    (l := l) fun j _ k _ same => same
  have readerItems := Dict.items_ofItems_map (fun v => merged (relabel f g v)) inj
  rw [← document] at documentItems
  rw [← reader] at readerItems
  -- What holds of the members that are left.
  have members : ∀ p ∈ (Dict.ofItems l).items, keep (g p.1) ∧ GivesBack f g keep n back p.2 := by
    intro p item
    have member := Dict.mem_of_mem_items_ofItems item
    refine ⟨keys p.1 (List.mem_map_of_mem member), ih p member ?_⟩
    rcases kept with here | there
    · have pass := membersPass_iff.mp here.2
      rw [documentItems] at pass
      exact .inl (pass _ (List.mem_map_of_mem item)).2
    · have pass := membersPass_iff.mp there.2
      rw [readerItems] at pass
      exact .inr (pass _ (List.mem_map_of_mem item)).2
  constructor
  · rw [relabel, merged, merged, relabel, readerItems, documentItems, relabelMembers_eq_map,
      List.map_map]
    refine congrArg JsonTree.obj (List.map_congr_left fun p item => ?_)
    exact Prod.ext (inv p.1 (members p item).1) (members p item).2.1
  · rw [relabel, merged, Passes, readerItems]
    refine ⟨trivial, membersPass_iff.mpr fun q item => ?_⟩
    obtain ⟨p, member, rfl⟩ := List.mem_map.mp item
    exact ⟨(members p member).1, (members p member).2.2⟩

mutual

theorem givesBack (inv : ∀ s, keep (g s) → back (g s) = s) :
    ∀ v : JsonTree ν σ, Kept f g keep v → GivesBack f g keep n back v
  | .null, _ | .bool _, _ => ⟨rfl, trivial⟩
  | .num _, kept => (kept.elim id id).elim
  | .str s, kept => ⟨congrArg JsonTree.str (inv s (kept.elim id id)), kept.elim id id⟩
  | .arr l, kept => by
    obtain ⟨same, pass⟩ := givesBackItems inv l kept
    exact ⟨congrArg JsonTree.arr same, pass⟩
  | .obj l, kept => givesBack_obj n inv (givesBackMembers inv l) kept

theorem givesBackItems (inv : ∀ s, keep (g s) → back (g s) = s) : ∀ l : List (JsonTree ν σ),
    ItemsPass (.kept (keep ∘ g)) (mergedItems l) ∨
        ItemsPass (.kept keep) (mergedItems (relabelItems f g l)) →
      relabelItems n back (mergedItems (relabelItems f g l)) = mergedItems l ∧
        ItemsPass (.kept keep) (mergedItems (relabelItems f g l))
  | [], _ => ⟨rfl, trivial⟩
  | v :: l, kept => by
    obtain ⟨first, pass⟩ := givesBack inv v (kept.imp And.left And.left)
    obtain ⟨others, passes⟩ := givesBackItems inv l (kept.imp And.right And.right)
    refine ⟨?_, pass, passes⟩
    rw [relabelItems, mergedItems, relabelItems, mergedItems, first, others]

theorem givesBackMembers (inv : ∀ s, keep (g s) → back (g s) = s) :
    ∀ l : List (σ × JsonTree ν σ), ∀ p ∈ l, Kept f g keep p.2 → GivesBack f g keep n back p.2
  | [], _, member, _ => absurd member List.not_mem_nil
  | (_, v) :: l, p, member, kept => by
    rcases List.mem_cons.mp member with rfl | further
    · exact givesBack inv v kept
    · exact givesBackMembers inv l p further kept

end

end Kept

end JsonTree

end Foundation
