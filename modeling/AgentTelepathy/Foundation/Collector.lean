import Mathlib.Algebra.Order.Group.Defs
import Mathlib.Data.Finset.Range
import Mathlib.Data.List.Sort
import Mathlib.Logic.Function.Basic

/-!
# Collecting the parts of numbered wholes

Parts of several wholes arrive in any order, each with its index and the number of parts. A
collector keeps the parts of a whole until it has all indices; then it puts their contents in the
order of the indices, and forgets the whole. A whole that is still incomplete some time after its
first part is forgotten when the next offer is made.
-/

namespace Foundation

/-- A part of a whole. -/
structure Part (ι α : Type*) where
  id : ι
  index : ℕ
  total : ℕ
  content : α

/-- What is collected of a whole, and since when. -/
structure Pending (K α : Type*) where
  since : K
  parts : List (ℕ × α)

/-- At one time old wholes are forgotten; a part may be offered then, at another. -/
structure Offer (ι K α : Type*) where
  now : K
  stamp : K
  part? : Option (Part ι α)

/-- The wholes of which something is collected. -/
abbrev Collector (ι K α : Type*) := ι → Option (Pending K α)

namespace Collector

variable {ι K α : Type*}

/-- The indices that are collected. -/
def indices (parts : List (ℕ × α)) : Finset ℕ := (parts.map Prod.fst).toFinset

/-- All of a number of indices are collected, and no others. -/
def Complete (parts : List (ℕ × α)) (total : ℕ) : Prop := indices parts = Finset.range total

instance (parts : List (ℕ × α)) (total : ℕ) : Decidable (Complete parts total) :=
  inferInstanceAs (Decidable (_ = _))

/-- The contents in the order of the indices. -/
def contents (parts : List (ℕ × α)) : List α :=
  (parts.insertionSort fun a b => a.1 ≤ b.1).map Prod.snd

/-- What is collected of a whole. -/
def collected (c : Collector ι K α) (id : ι) : List (ℕ × α) := ((c id).map Pending.parts).getD []

/-- When the collection of a whole began; now, if nothing is collected of it. -/
def since (c : Collector ι K α) (id : ι) (stamp : K) : K := ((c id).map Pending.since).getD stamp

/-- A part whose index is in range, and not collected yet. -/
def Fits (c : Collector ι K α) (part : Part ι α) : Prop :=
  part.index < part.total ∧ part.index ∉ indices (c.collected part.id)

instance (c : Collector ι K α) (part : Part ι α) : Decidable (c.Fits part) :=
  inferInstanceAs (Decidable (_ ∧ _))

/-- What is collected of a whole with one more part. -/
def grown (c : Collector ι K α) (part : Part ι α) : List (ℕ × α) :=
  c.collected part.id ++ [(part.index, part.content)]

/-- Take a part. The contents are returned if it was the last one. -/
def place [DecidableEq ι] (c : Collector ι K α) (stamp : K) (part : Part ι α) :
    Collector ι K α × Option (List α) :=
  if c.Fits part then
    if Complete (c.grown part) part.total then
      (Function.update c part.id none, some (contents (c.grown part)))
    else (Function.update c part.id (some ⟨c.since part.id stamp, c.grown part⟩), none)
  else (c, none)

section Times

variable [DecidableEq ι] [Sub K] [LE K] [DecidableLE K]

/-- Forget the wholes that are too old. -/
def expire (timeout now : K) (c : Collector ι K α) : Collector ι K α :=
  fun id => (c id).filter fun pending => now - pending.since ≤ timeout

/-- What an offer does. -/
def step (timeout : K) (c : Collector ι K α) (offer : Offer ι K α) :
    Collector ι K α × Option (List α) :=
  match offer.part? with
  | none => (c.expire timeout offer.now, none)
  | some part => (c.expire timeout offer.now).place offer.stamp part

/-- The collector after some offers. -/
def run (timeout : K) (offers : List (Offer ι K α)) : Collector ι K α :=
  offers.foldl (fun c offer => (step timeout c offer).1) fun _ => none

/-- What an offer returns after some others. -/
def returns (timeout : K) (before : List (Offer ι K α)) (offer : Offer ι K α) : Option (List α) :=
  (step timeout (run timeout before) offer).2

end Times

/-! ### What is collected -/

variable {c : Collector ι K α} {part : Part ι α} {parts : List (ℕ × α)} {total : ℕ} {stamp : K}
  {id : ι} {pending : Pending K α}

theorem indices_grown (c : Collector ι K α) (part : Part ι α) :
    indices (c.grown part) = insert part.index (indices (c.collected part.id)) := by
  ext i
  rw [grown, indices, indices, Finset.mem_insert, List.mem_toFinset, List.mem_toFinset,
    List.map_append, List.mem_append, List.map_singleton, List.mem_singleton, or_comm]

/-- Something is collected of every whole that is kept, and nothing twice. -/
def Sound (c : Collector ι K α) : Prop :=
  ∀ id pending, c id = some pending → pending.parts ≠ [] ∧ (pending.parts.map Prod.fst).Nodup

theorem Sound.nodup_collected (sound : c.Sound) (id : ι) :
    ((c.collected id).map Prod.fst).Nodup := by
  unfold collected
  cases kept : c id with
  | none => exact List.nodup_nil
  | some pending => exact (sound id pending kept).2

theorem Sound.nodup_grown (sound : c.Sound) (fits : c.Fits part) :
    ((c.grown part).map Prod.fst).Nodup := by
  have fresh : part.index ∉ (c.collected part.id).map Prod.fst := by
    simpa only [indices, List.mem_toFinset] using fits.2
  rw [grown, List.map_append, List.nodup_append]
  refine ⟨sound.nodup_collected part.id, List.nodup_singleton _, ?_⟩
  rintro i collected j here rfl
  obtain rfl : i = part.index := List.mem_singleton.mp here
  exact fresh collected

/-- When all indices are collected, their order is that of the range. -/
theorem map_fst_insertionSort (nodup : (parts.map Prod.fst).Nodup)
    (complete : Complete parts total) :
    (parts.insertionSort fun a b => a.1 ≤ b.1).map Prod.fst = List.range total := by
  have perm := (List.perm_insertionSort (fun a b : ℕ × α => a.1 ≤ b.1) parts).map Prod.fst
  have sorted : ((parts.insertionSort fun a b => a.1 ≤ b.1).map Prod.fst).Pairwise (· ≤ ·) := by
    rw [List.pairwise_map]
    exact List.pairwise_insertionSort _ parts
  have range : (parts.map Prod.fst).Perm (List.range total) := by
    refine (List.perm_ext_iff_of_nodup nodup List.nodup_range).mpr fun i => ?_
    rw [List.mem_range, ← List.mem_toFinset, ← Finset.mem_range]
    exact complete ▸ Iff.rfl
  exact (perm.trans range).eq_of_pairwise' sorted List.pairwise_le_range

/-- The contents of a whole, by the index. -/
theorem contents_eq {content : ℕ → α} (nodup : (parts.map Prod.fst).Nodup)
    (complete : Complete parts total) (each : ∀ part ∈ parts, content part.1 = part.2) :
    contents parts = (List.range total).map content := by
  rw [← map_fst_insertionSort nodup complete, List.map_map, contents]
  apply List.map_congr_left
  intro part member
  exact (each part ((List.perm_insertionSort _ parts).mem_iff.mp member)).symm

/-- Parts with different indices have contents by the index. -/
theorem exists_content [Inhabited α] (nodup : (parts.map Prod.fst).Nodup) :
    ∃ content : ℕ → α, ∀ part ∈ parts, content part.1 = part.2 := by
  induction parts with
  | nil => exact ⟨fun _ => default, fun part member => by cases member⟩
  | cons head parts ih =>
    obtain ⟨fresh, nodup⟩ := List.nodup_cons.mp nodup
    obtain ⟨content, each⟩ := ih nodup
    refine ⟨Function.update content head.1 head.2, fun part member => ?_⟩
    rcases List.mem_cons.mp member with rfl | later
    · exact Function.update_self ..
    · have other : part.1 ≠ head.1 := fun same => fresh (same ▸ List.mem_map_of_mem later)
      rw [Function.update_of_ne other, each part later]

/-! ### Steps -/

section Steps

variable [DecidableEq ι]

theorem place_of_not_fits (unfit : ¬c.Fits part) : c.place stamp part = (c, none) := if_neg unfit

theorem place_of_complete (fits : c.Fits part) (complete : Complete (c.grown part) part.total) :
    c.place stamp part =
      (Function.update c part.id none, some (contents (c.grown part))) := by
  rw [place, if_pos fits, if_pos complete]

theorem place_of_incomplete (fits : c.Fits part)
    (incomplete : ¬Complete (c.grown part) part.total) : c.place stamp part =
      (Function.update c part.id (some ⟨c.since part.id stamp, c.grown part⟩), none) := by
  rw [place, if_pos fits, if_neg incomplete]

theorem collected_update_self (c : Collector ι K α) (id : ι) (pending : Pending K α) :
    collected (Function.update c id (some pending)) id = pending.parts := by
  rw [collected, Function.update_self]
  rfl

/-- A part has no effect on other wholes. -/
theorem place_of_ne (other : id ≠ part.id) : (c.place stamp part).1 id = c id := by
  unfold place
  split_ifs
  · exact Function.update_of_ne other ..
  · exact Function.update_of_ne other ..
  · rfl

theorem place_self (c : Collector ι K α) (stamp : K) (part : Part ι α) :
    (c.place stamp part).1 part.id =
      if c.Fits part then
        if Complete (c.grown part) part.total then none
        else some ⟨c.since part.id stamp, c.grown part⟩
      else c part.id := by
  unfold place
  split_ifs
  · exact Function.update_self ..
  · exact Function.update_self ..
  · rfl

theorem Sound.place (sound : c.Sound) (stamp : K) (part : Part ι α) :
    (c.place stamp part).1.Sound := by
  intro id pending kept
  by_cases own : id = part.id
  · subst own
    rw [place_self] at kept
    split_ifs at kept with fits complete
    · obtain rfl := Option.some.inj kept
      exact ⟨List.append_ne_nil_of_right_ne_nil _ (List.cons_ne_nil _ _), sound.nodup_grown fits⟩
    · exact sound part.id pending kept
  · rw [place_of_ne own] at kept
    exact sound id pending kept

end Steps

section Times

variable [AddCommGroup K] [LinearOrder K] {timeout now : K} {offer : Offer ι K α}
  {offers before : List (Offer ι K α)}

theorem expire_eq_some_iff : c.expire timeout now id = some pending ↔
    c id = some pending ∧ now - pending.since ≤ timeout := by
  rw [expire, Option.filter_eq_some_iff, decide_eq_true_eq]

theorem Sound.expire (sound : c.Sound) (timeout now : K) : (c.expire timeout now).Sound :=
  fun id pending kept => sound id pending (expire_eq_some_iff.mp kept).1

variable [DecidableEq ι]

theorem Sound.step (sound : c.Sound) (timeout : K) (offer : Offer ι K α) :
    (step timeout c offer).1.Sound := by
  unfold Collector.step
  split
  · exact sound.expire timeout offer.now
  · exact (sound.expire timeout offer.now).place offer.stamp _

/-- After an offer no whole that is kept is too old, unless its collection begins with the part that
is offered. -/
theorem young_of_step (kept : (Collector.step timeout c offer).1 id = some pending) :
    offer.now - pending.since ≤ timeout ∨
      pending.since = offer.stamp ∧ c.expire timeout offer.now id = none ∧
        ∃ part, offer.part? = some part ∧ part.id = id := by
  unfold Collector.step at kept
  cases offered : offer.part? with
  | none =>
    rw [offered] at kept
    exact .inl (expire_eq_some_iff.mp kept).2
  | some part =>
    rw [offered] at kept
    dsimp only at kept
    -- What is kept for another id has passed the purge of this very step.
    by_cases own : id = part.id
    · subst own
      rw [place_self] at kept
      split_ifs at kept with fits complete
      · obtain rfl := Option.some.inj kept
        cases before : c.expire timeout offer.now part.id with
        | none =>
          refine .inr ⟨?_, rfl, part, rfl, rfl⟩
          rw [since, before]
          rfl
        | some earlier =>
          refine .inl ?_
          rw [since, before]
          exact (expire_eq_some_iff.mp before).2
      · exact .inl (expire_eq_some_iff.mp kept).2
    · rw [place_of_ne own] at kept
      exact .inl (expire_eq_some_iff.mp kept).2

theorem run_snoc (timeout : K) (before : List (Offer ι K α)) (offer : Offer ι K α) :
    run timeout (before ++ [offer]) = (step timeout (run timeout before) offer).1 := by
  rw [run, List.foldl_append]
  rfl

theorem sound_run (timeout : K) (offers : List (Offer ι K α)) : (run timeout offers).Sound := by
  induction offers using List.reverseRecOn with
  | nil => exact fun id pending kept => by cases kept
  | append_singleton offers offer ih =>
    rw [run_snoc]
    exact ih.step timeout offer

/-! ### Where contents come from -/

/-- While some offers are made after others, a whole is not returned. -/
def Silent (timeout : K) (id : ι) (earlier recent : List (Offer ι K α)) : Prop :=
  ∀ before offer after part, recent = before ++ offer :: after → offer.part? = some part →
    part.id = id → returns timeout (earlier ++ before) offer = none

/-- A part of a whole is among those offered. -/
def Offered (id : ι) (offers : List (Offer ι K α)) (index : ℕ) (content : α) : Prop :=
  ∃ offer ∈ offers, ∃ total, offer.part? = some ⟨id, index, total, content⟩ ∧ index < total

omit [AddCommGroup K] [LinearOrder K] [DecidableEq ι] in
theorem Offered.mono {index : ℕ} {content : α} (offered : Offered id before index content)
    (more : ∀ offer ∈ before, offer ∈ offers) : Offered id offers index content := by
  obtain ⟨offer, member, rest⟩ := offered
  exact ⟨offer, more offer member, rest⟩

omit [DecidableEq ι] in
theorem mem_collected_of_expire {entry : ℕ × α}
    (member : entry ∈ (c.expire timeout now).collected id) : entry ∈ c.collected id := by
  unfold collected at member ⊢
  cases kept : c.expire timeout now id with
  | none =>
    rw [kept] at member
    cases member
  | some pending =>
    rw [kept] at member
    rwa [(expire_eq_some_iff.mp kept).1]

/-- What is collected after an offer was collected before, or is offered. -/
theorem mem_collected_of_step {entry : ℕ × α}
    (member : entry ∈ (Collector.step timeout c offer).1.collected id) :
    entry ∈ c.collected id ∨ Offered id [offer] entry.1 entry.2 := by
  unfold Collector.step at member
  cases offered : offer.part? with
  | none =>
    rw [offered] at member
    exact .inl (mem_collected_of_expire member)
  | some part =>
    rw [offered] at member
    dsimp only at member
    by_cases own : id = part.id
    · subst own
      rw [collected, place_self] at member
      split_ifs at member with fits complete
      · cases member
      · rcases List.mem_append.mp member with before | last
        · exact .inl (mem_collected_of_expire before)
        · obtain rfl := List.mem_singleton.mp last
          exact .inr ⟨offer, List.mem_singleton.mpr rfl, part.total, offered, fits.1⟩
      · exact .inl (mem_collected_of_expire member)
    · rw [collected, place_of_ne own] at member
      exact .inl (mem_collected_of_expire member)

/-- What an offer returns is put together from what was collected, and the part that is offered;
then nothing of the whole is left. -/
theorem of_step_eq_some {whole : List α}
    (returned : (Collector.step timeout c offer).2 = some whole) :
    ∃ part, offer.part? = some part ∧ (c.expire timeout offer.now).Fits part ∧
      Complete ((c.expire timeout offer.now).grown part) part.total ∧
      whole = contents ((c.expire timeout offer.now).grown part) ∧
      (Collector.step timeout c offer).1 part.id = none := by
  unfold Collector.step at returned ⊢
  cases offered : offer.part? with
  | none =>
    rw [offered] at returned
    cases returned
  | some part =>
    rw [offered] at returned
    dsimp only at returned ⊢
    by_cases fits : (c.expire timeout offer.now).Fits part
    · by_cases complete : Complete ((c.expire timeout offer.now).grown part) part.total
      · rw [place_of_complete fits complete] at returned ⊢
        exact ⟨part, rfl, fits, complete, (Option.some.inj returned).symm, Function.update_self ..⟩
      · rw [place_of_incomplete fits complete] at returned
        cases returned
    · rw [place_of_not_fits fits] at returned
      cases returned

/-- What is collected of a whole was offered since it was last returned. -/
theorem exists_recent (timeout : K) (offers : List (Offer ι K α)) (id : ι) :
    ∃ earlier recent, offers = earlier ++ recent ∧ Silent timeout id earlier recent ∧
      ∀ entry ∈ (run timeout offers).collected id, Offered id recent entry.1 entry.2 := by
  induction offers using List.reverseRecOn with
  | nil =>
    refine ⟨[], [], rfl, ?_, fun entry member => by cases member⟩
    intro before offer after part split
    cases before <;> cases split
  | append_singleton offers offer ih =>
    by_cases ends : (returns timeout offers offer).isSome = true ∧
        ∃ part, offer.part? = some part ∧ part.id = id
    · -- Nothing is left of a whole that is returned.
      obtain ⟨returned, part, offered, rfl⟩ := ends
      obtain ⟨whole, returned⟩ := Option.isSome_iff_exists.mp returned
      obtain ⟨part', offered', -, -, -, gone⟩ := of_step_eq_some returned
      obtain rfl : part = part' := Option.some.inj (offered.symm.trans offered')
      refine ⟨offers ++ [offer], [], (List.append_nil _).symm, ?_, ?_⟩
      · intro before offer after part split
        cases before <;> cases split
      · intro entry member
        rw [run_snoc, collected, gone] at member
        cases member
    · obtain ⟨earlier, recent, rfl, silent, from_recent⟩ := ih
      refine ⟨earlier, recent ++ [offer], List.append_assoc .., ?_, ?_⟩
      -- The last offer ended nothing, and before it the induction hypothesis says the same.
      · intro before last after part split offered own
        rcases List.eq_nil_or_concat after with rfl | ⟨after, other, rfl⟩
        · obtain ⟨rfl, same⟩ := List.append_inj' split rfl
          obtain rfl : offer = last := (List.cons.inj same).1
          by_contra some_whole
          exact ends ⟨Option.ne_none_iff_isSome.mp some_whole, part, offered, own⟩
        · rw [List.concat_eq_append, ← List.cons_append, ← List.append_assoc] at split
          exact silent before last after part (List.append_inj' split rfl).1 offered own
      · intro entry member
        rw [run_snoc] at member
        rcases mem_collected_of_step member with before | now
        · exact (from_recent entry before).mono fun _ => List.mem_append_left _
        · exact now.mono fun _ => List.mem_append_right _

/-- What is returned of a whole are the contents by the index of parts that were offered since it
was last returned, as many as the last part says. -/
theorem exists_offered [Inhabited α] {whole : List α}
    (returned : returns timeout before offer = some whole) :
    ∃ part, offer.part? = some part ∧ 1 ≤ part.total ∧
      ∃ earlier recent, before = earlier ++ recent ∧ Silent timeout part.id earlier recent ∧
        ∃ content : ℕ → α, whole = (List.range part.total).map content ∧
          ∀ i < part.total, Offered part.id (recent ++ [offer]) i (content i) := by
  obtain ⟨part, offered, fits, complete, rfl, -⟩ := of_step_eq_some returned
  obtain ⟨earlier, recent, split, silent, from_recent⟩ := exists_recent timeout before part.id
  have nodup := ((sound_run timeout before).expire timeout offer.now).nodup_grown fits
  obtain ⟨content, each⟩ := exists_content nodup
  refine ⟨part, offered, Nat.one_le_of_lt fits.1, earlier, recent, split, silent, content,
    contents_eq nodup complete each, ?_⟩
  intro i small
  have index := Finset.mem_range.mpr small
  rw [← complete] at index
  obtain ⟨entry, member, rfl⟩ := List.mem_map.mp (List.mem_toFinset.mp index)
  rw [each entry member]
  rcases List.mem_append.mp member with collected | last
  · exact (from_recent entry (mem_collected_of_expire collected)).mono
      fun _ => List.mem_append_left _
  · obtain rfl := List.mem_singleton.mp last
    exact ⟨offer, List.mem_append_right _ (List.mem_singleton.mpr rfl), part.total, offered, fits.1⟩

end Times

end Collector

end Foundation
