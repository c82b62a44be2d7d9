import Mathlib.Data.Finset.Max
import AgentTelepathy.Foundation.Register

/-!
# Replicas that are tables of registers

A replica has a register for each key. It is written to directly or takes over the
items of another replica, in any order. Every replica that can be built from a set
of writes holds, for each key, a greatest write of the set. So all of them show the
same under a view exactly when the greatest writes of each key do.
-/

namespace Foundation

/-- The operations of a replica. -/
structure Replica (μ κ α : Type*) where
  empty : μ
  get : μ → κ → Option α
  set : μ → κ → α → μ
  items : μ → List (κ × α)
  /-- Take over items in the order in which they are enumerated. -/
  merge : μ → List (κ × α) → μ

namespace Replica

variable {μ κ α β γ : Type*} [DecidableEq κ] [LinearOrder β] {R : Replica μ κ α} {rank : α → β}
  {view : α → γ} {writes : Set (κ × α)} {m n : μ} {k : κ} {a b : α}

/-- Every key has a register, and merging writes items one by one. -/
structure Lawful (R : Replica μ κ α) (rank : α → β) : Prop where
  get_empty : ∀ k, R.get R.empty k = none
  get_set : ∀ m k a k', R.get (R.set m k a) k' =
    if k' = k then some (Register.offer rank (R.get m k) a) else R.get m k'
  mem_items : ∀ m k a, (k, a) ∈ R.items m ↔ R.get m k = some a
  merge_eq : ∀ m items, R.merge m items = items.foldl (fun m item => R.set m item.1 item.2) m

/-- The replicas that can be built from a set of writes, in any order, with any
repetition and grouping. -/
inductive Built (R : Replica μ κ α) : Set (κ × α) → μ → Prop
  | empty : Built R ∅ R.empty
  | set {writes : Set (κ × α)} {m : μ} (k : κ) (a : α) :
      Built R writes m → Built R (insert (k, a) writes) (R.set m k a)
  | merge {writes more : Set (κ × α)} {m n : μ} {order : List (κ × α)} :
      Built R writes m → Built R more n → order.Perm (R.items n) →
        Built R (writes ∪ more) (R.merge m order)

/-- The writes of a key. -/
def writesTo (writes : Set (κ × α)) (k : κ) : Set α := {a | (k, a) ∈ writes}

/-- A replica holds a greatest write for each key. -/
def Holds (R : Replica μ κ α) (rank : α → β) (writes : Set (κ × α)) (m : μ) : Prop :=
  ∀ k, Register.Holds rank (writesTo writes k) (R.get m k)

/-- All replicas built from the writes show the same for every key. -/
def Converges (R : Replica μ κ α) (view : α → γ) (writes : Set (κ × α)) : Prop :=
  ∀ m n, Built R writes m → Built R writes n → ∀ k, (R.get m k).map view = (R.get n k).map view

/-- The greatest writes of each key look the same. -/
def Unambiguous (rank : α → β) (view : α → γ) (writes : Set (κ × α)) : Prop :=
  ∀ k a b, Register.Holds rank (writesTo writes k) (some a) →
    Register.Holds rank (writesTo writes k) (some b) → view a = view b

/-! ### What a replica holds -/

omit [DecidableEq κ] [LinearOrder β] in
theorem writesTo_union (writes more : Set (κ × α)) (k : κ) :
    writesTo (writes ∪ more) k = writesTo writes k ∪ writesTo more k := rfl

/-- Writing a greatest write of some writes of a key has the effect of all of them. -/
theorem Holds.set (lawful : R.Lawful rank) (holds : R.Holds rank writes m) {more : Set (κ × α)}
    (others : ∀ w ∈ more, w.1 = k) (greatest : Register.Holds rank (writesTo more k) (some a)) :
    R.Holds rank (writes ∪ more) (R.set m k a) := by
  intro k'
  rw [writesTo_union, lawful.get_set]
  split_ifs with same
  · subst same
    exact (holds k').offer_greatest greatest
  · have unaffected : writesTo more k' = ∅ := by
      ext b
      exact iff_of_false (fun member => same (others _ member)) (Set.notMem_empty b)
    rw [unaffected, Set.union_empty]
    exact holds k'

omit [DecidableEq κ] [LinearOrder β] in
theorem writesTo_of_key (more : Set (κ × α)) (k : κ) :
    writesTo {w | w ∈ more ∧ w.1 = k} k = writesTo more k := by
  ext a
  simp [writesTo]

/-- Writing the greatest writes of some keys has the effect of all writes of these keys. -/
theorem Holds.foldl (lawful : R.Lawful rank) (holds : R.Holds rank writes m)
    {more : Set (κ × α)} {items : List (κ × α)}
    (greatest : ∀ item ∈ items, Register.Holds rank (writesTo more item.1) (some item.2)) :
    R.Holds rank (writes ∪ {w | w ∈ more ∧ w.1 ∈ items.map Prod.fst})
      (items.foldl (fun m item => R.set m item.1 item.2) m) := by
  induction items generalizing m writes with
  | nil => simpa using holds
  | cons item items ih =>
    have first : R.Holds rank (writes ∪ {w | w ∈ more ∧ w.1 = item.1})
        (R.set m item.1 item.2) := by
      refine holds.set lawful (fun w member => member.2) ?_
      rw [writesTo_of_key]
      exact greatest item List.mem_cons_self
    have rest := ih first fun other later => greatest other (List.mem_cons_of_mem _ later)
    have together : writes ∪ {w | w ∈ more ∧ w.1 ∈ (item :: items).map Prod.fst} =
        writes ∪ {w | w ∈ more ∧ w.1 = item.1} ∪ {w | w ∈ more ∧ w.1 ∈ items.map Prod.fst} := by
      ext w
      simp only [List.map_cons, List.mem_cons, Set.mem_union, Set.mem_ofPred_eq]
      tauto
    rw [together]
    exact rest

/-- A replica has an item for every key that was written to. -/
theorem Holds.exists_item (lawful : R.Lawful rank) (holds : R.Holds rank writes m) {w : κ × α}
    (written : w ∈ writes) : ∃ a, (w.1, a) ∈ R.items m := by
  cases entry : R.get m w.1 with
  | none =>
    have nothing := holds w.1
    rw [entry] at nothing
    exact absurd (show w.2 ∈ writesTo writes w.1 from written) (nothing ▸ Set.notMem_empty w.2)
  | some a => exact ⟨a, (lawful.mem_items m w.1 a).mpr entry⟩

/-- Every replica built from a set of writes holds a greatest one for each key. -/
theorem Built.holds (lawful : R.Lawful rank) (built : R.Built writes m) :
    R.Holds rank writes m := by
  induction built with
  | empty =>
    intro k
    rw [lawful.get_empty]
    exact Register.holds_none
  | @set writes m k a _ ih =>
    rw [Set.insert_eq, Set.union_comm]
    refine ih.set lawful (by simp) ?_
    have only : writesTo {(k, a)} k = {a} := by
      ext b
      simp [writesTo]
    rw [only]
    exact Register.holds_singleton a
  | @merge writes more m n order _ _ same ih ih' =>
    rw [lawful.merge_eq]
    have merged : R.Holds rank (writes ∪ {w | w ∈ more ∧ w.1 ∈ order.map Prod.fst})
        (order.foldl (fun m item => R.set m item.1 item.2) m) := by
      refine ih.foldl lawful ?_
      intro item member
      have entry := (lawful.mem_items n item.1 item.2).mp (same.mem_iff.mp member)
      rw [← entry]
      exact ih' item.1
    -- Every write to the other replica is among the keys that it sends.
    have all : {w | w ∈ more ∧ w.1 ∈ order.map Prod.fst} = more := by
      ext w
      refine ⟨And.left, fun member => ⟨member, ?_⟩⟩
      obtain ⟨a, item⟩ := ih'.exists_item lawful member
      exact List.mem_map.mpr ⟨(w.1, a), same.mem_iff.mpr item, rfl⟩
    rwa [all] at merged

/-! ### Convergence -/

omit [DecidableEq κ] in
/-- Writes can be made one after the other. -/
theorem Built.foldl (built : R.Built writes m) (l : List (κ × α)) :
    R.Built (writes ∪ {w | w ∈ l}) (l.foldl (fun m w => R.set m w.1 w.2) m) := by
  induction l generalizing m writes with
  | nil => simpa using built
  | cons w l ih =>
    have together : writes ∪ {v | v ∈ w :: l} = insert w writes ∪ {v | v ∈ l} := by
      ext v
      simp only [List.mem_cons, Set.mem_union, Set.mem_insert_iff, Set.mem_ofPred_eq]
      tauto
    rw [together]
    exact ih (built.set w.1 w.2)

/-- A register keeps a greatest write that it has. -/
theorem get_foldl (lawful : R.Lawful rank) {l : List (κ × α)} (held : R.get m k = some a)
    (greatest : ∀ b, (k, b) ∈ l → rank b ≤ rank a) :
    R.get (l.foldl (fun m w => R.set m w.1 w.2) m) k = some a := by
  induction l generalizing m with
  | nil => exact held
  | cons w l ih =>
    refine ih ?_ fun b later => greatest b (List.mem_cons_of_mem _ later)
    rw [lawful.get_set]
    split_ifs with same
    · subst same
      have notAbove : ¬ rank a < rank w.2 := not_lt.mpr (greatest w.2 List.mem_cons_self)
      rw [held, Register.offer, if_neg notAbove]
    · exact held

/-- All replicas built from some writes show the same for each key exactly when the
greatest writes of each key look the same. -/
theorem converges_iff (lawful : R.Lawful rank) (l : List (κ × α)) :
    R.Converges view {w | w ∈ l} ↔ Unambiguous rank view {w | w ∈ l} := by
  constructor
  · intro converges k a b ofA ofB
    -- A replica that is written to with a greatest write first keeps this write.
    have first {a : α} (ofA : Register.Holds rank (writesTo {w | w ∈ l} k) (some a)) :
        ∃ m, R.Built {w | w ∈ l} m ∧ R.get m k = some a := by
      have built := (Built.empty.set (R := R) k a).foldl l
      have same : insert (k, a) ∅ ∪ {w | w ∈ l} = {w | w ∈ l} := by
        ext w
        simp only [Set.mem_union, Set.mem_insert_iff, Set.mem_empty_iff_false, or_false,
          Set.mem_ofPred_eq, or_iff_right_iff_imp]
        rintro rfl
        exact ofA.1
      rw [same] at built
      refine ⟨_, built, get_foldl lawful ?_ fun b member => ofA.2 b member⟩
      rw [lawful.get_set, if_pos rfl, lawful.get_empty]
      rfl
    obtain ⟨m, built, held⟩ := first ofA
    obtain ⟨n, built', held'⟩ := first ofB
    have same := converges m n built built' k
    rw [held, held'] at same
    exact Option.some.inj same
  · intro unambiguous m n built built' k
    have holds := built.holds lawful k
    have holds' := built'.holds lawful k
    cases held : R.get m k with
    | none =>
      cases held' : R.get n k with
      | none => rfl
      | some b =>
        rw [held] at holds
        rw [held'] at holds'
        exact absurd holds'.1 (holds ▸ Set.notMem_empty b)
    | some a =>
      cases held' : R.get n k with
      | none =>
        rw [held] at holds
        rw [held'] at holds'
        exact absurd holds.1 (holds' ▸ Set.notMem_empty a)
      | some b =>
        rw [held] at holds
        rw [held'] at holds'
        exact congrArg some (unambiguous k a b holds holds')

end Replica

end Foundation
