import AgentTelepathy.Foundation.Collector

/-!
# Attempts at wholes

The deliveries of the parts of a whole are grouped in attempts. The first delivery begins one, and
so does each that comes more than the timeout after the beginning of the attempt before it. As long
as no attempt has brought all indices, what a collector keeps of the whole is the last attempt. When
an attempt has, the whole is returned, and a delivery after that begins it anew.
-/

namespace Foundation

namespace Collector

variable {ι K α : Type*} [DecidableEq ι]

/-- The index of a part that is delivered, and the times of the offer. -/
structure Delivery (K : Type*) where
  now : K
  stamp : K
  index : ℕ

/-- The delivery of an offer, if it has a part of a whole. -/
def delivery? (id : ι) (offer : Offer ι K α) : Option (Delivery K) :=
  (offer.part?.filter fun part => part.id = id).map fun part =>
    ⟨offer.now, offer.stamp, part.index⟩

/-- The deliveries of the parts of a whole. -/
def deliveries (id : ι) (offers : List (Offer ι K α)) : List (Delivery K) :=
  offers.filterMap (delivery? id)

/-- The indices that deliveries bring. -/
def brought (attempt : List (Delivery K)) : Finset ℕ := (attempt.map Delivery.index).toFinset

section Times

variable [Sub K] [LE K] [DecidableLE K]

/-- What still counts of an attempt: all, unless it began too long ago. -/
def current (timeout now : K) (attempt : List (Delivery K)) : List (Delivery K) :=
  if ∀ first ∈ attempt.head?, now - first.stamp ≤ timeout then attempt else []

/-- The last attempt: a delivery belongs to the attempt before it if that still counts. -/
def attempt (timeout : K) (deliveries : List (Delivery K)) : List (Delivery K) :=
  deliveries.foldl (fun attempt delivery => current timeout delivery.now attempt ++ [delivery]) []

end Times

/-! ### Deliveries -/

section Deliveries

variable {id : ι} {offer : Offer ι K α} {part : Part ι α} {offers before after : List (Offer ι K α)}

omit [DecidableEq ι] in
theorem brought_append_singleton (attempt : List (Delivery K)) (delivery : Delivery K) :
    brought (attempt ++ [delivery]) = insert delivery.index (brought attempt) := by
  ext i
  rw [brought, brought, Finset.mem_insert, List.mem_toFinset, List.mem_toFinset, List.map_append,
    List.mem_append, List.map_singleton, List.mem_singleton, or_comm]

theorem delivery?_of_part (offered : offer.part? = some part) :
    delivery? part.id offer = some ⟨offer.now, offer.stamp, part.index⟩ := by
  rw [delivery?, offered, Option.filter_some, if_pos (decide_eq_true rfl), Option.map_some]

theorem exists_part {delivery : Delivery K} (delivered : delivery? id offer = some delivery) :
    ∃ part, offer.part? = some part ∧ part.id = id ∧
      delivery = ⟨offer.now, offer.stamp, part.index⟩ := by
  obtain ⟨part, kept, rfl⟩ := Option.map_eq_some_iff.mp delivered
  obtain ⟨offered, own⟩ := Option.filter_eq_some_iff.mp kept
  exact ⟨part, offered, of_decide_eq_true own, rfl⟩

theorem delivery?_eq_none_iff :
    delivery? id offer = none ↔ ∀ part, offer.part? = some part → part.id ≠ id := by
  rw [delivery?, Option.map_eq_none_iff, Option.filter_eq_none_iff]
  simp only [decide_eq_true_eq]

theorem deliveries_append (id : ι) (before after : List (Offer ι K α)) :
    deliveries id (before ++ after) = deliveries id before ++ deliveries id after :=
  List.filterMap_append

theorem deliveries_snoc (id : ι) (before : List (Offer ι K α)) (offer : Offer ι K α) :
    deliveries id (before ++ [offer]) = deliveries id before ++ (delivery? id offer).toList := by
  rw [deliveries_append, deliveries, deliveries]
  cases delivered : delivery? id offer with
  | none => rw [List.filterMap_cons_none delivered]; rfl
  | some delivery => rw [List.filterMap_cons_some delivered]; rfl

theorem exists_split_of_deliveries (some_left : deliveries id offers ≠ []) :
    ∃ before offer after part, offers = before ++ offer :: after ∧ offer.part? = some part ∧
      part.id = id := by
  obtain ⟨delivery, member⟩ := List.exists_mem_of_ne_nil _ some_left
  obtain ⟨offer, among, delivered⟩ := List.mem_filterMap.mp member
  obtain ⟨before, after, rfl⟩ := List.append_of_mem among
  obtain ⟨part, offered, own, -⟩ := exists_part delivered
  exact ⟨before, offer, after, part, rfl, offered, own⟩

theorem deliveries_split (offered : offer.part? = some part) :
    deliveries part.id (before ++ offer :: after) = deliveries part.id before ++
      ⟨offer.now, offer.stamp, part.index⟩ :: deliveries part.id after := by
  rw [deliveries_append, deliveries, deliveries,
    List.filterMap_cons_some (delivery?_of_part offered)]
  rfl

theorem deliveries_ne_nil (offered : offer.part? = some part) :
    deliveries part.id (before ++ offer :: after) ≠ [] := by
  rw [deliveries_split offered]
  exact List.append_ne_nil_of_right_ne_nil _ (List.cons_ne_nil _ _)

end Deliveries

section Ordered

variable [AddCommGroup K] [LinearOrder K] {c : Collector ι K α} {timeout now : K} {id : ι}
  {total : ℕ} {before after offers : List (Offer ι K α)} {offer : Offer ι K α} {part : Part ι α}
  {ds : List (Delivery K)} {delivery : Delivery K}

omit [DecidableEq ι] in
theorem attempt_snoc (timeout : K) (ds : List (Delivery K)) (delivery : Delivery K) :
    attempt timeout (ds ++ [delivery]) =
      current timeout delivery.now (attempt timeout ds) ++ [delivery] := by
  rw [attempt, List.foldl_append]
  rfl

/-- Deliveries that all come within the timeout after the first are one attempt. -/
theorem attempt_of_close (close : ∀ first ∈ ds.head?, ∀ delivery ∈ ds.tail,
    delivery.now - first.stamp ≤ timeout) : attempt timeout ds = ds := by
  induction ds using List.reverseRecOn with
  | nil => rfl
  | append_singleton ds last ih =>
    rw [attempt_snoc]
    cases ds with
    | nil => rfl
    | cons first ds =>
      rw [ih fun first' head delivery member =>
        close first' head delivery (List.mem_append_left _ member)]
      rw [current, if_pos]
      intro first' head
      exact close first' head last (List.mem_append_right _ (List.mem_singleton.mpr rfl))

/-- The state of a collector agrees with the last attempt at a whole. -/
structure Tracks (timeout : K) (id : ι) (offers : List (Offer ι K α)) : Prop where
  kept : ∀ pending, run timeout offers id = some pending →
    ∃ first rest, attempt timeout (deliveries id offers) = first :: rest ∧
      first.stamp = pending.since ∧
        indices pending.parts = brought (attempt timeout (deliveries id offers))
  gone : run timeout offers id = none → ∀ later, (∀ offer ∈ offers, offer.now ≤ later) →
    current timeout later (attempt timeout (deliveries id offers)) = []

omit [DecidableEq ι] in
theorem current_cons {first : Delivery K} {rest : List (Delivery K)} :
    current timeout now (first :: rest) =
      if now - first.stamp ≤ timeout then first :: rest else [] := by
  simp only [current, List.head?_cons, Option.mem_def, Option.some.injEq, forall_eq']

omit [DecidableEq ι] in
theorem current_nil : current timeout now ([] : List (Delivery K)) = [] := by
  rw [current, ite_self]

omit [DecidableEq ι] in
/-- What does not count any more does not count later. -/
theorem current_eq_nil_of_le [IsOrderedAddMonoid K] {later : K} {last : List (Delivery K)}
    (past : current timeout now last = []) (order : now ≤ later) :
    current timeout later last = [] := by
  cases last with
  | nil => exact current_nil
  | cons first rest =>
    rw [current_cons] at past ⊢
    refine if_neg fun young => ?_
    rw [if_pos ((sub_le_sub_right order first.stamp).trans young)] at past
    cases past

/-- What an offer finds of a whole, after old wholes are forgotten. -/
theorem Tracks.expired (tracks : Tracks timeout id offers)
    (before : ∀ offer ∈ offers, offer.now ≤ now) :
    ((run timeout offers).expire timeout now id = none ∧
        current timeout now (attempt timeout (deliveries id offers)) = []) ∨
      ∃ pending first rest, (run timeout offers).expire timeout now id = some pending ∧
        current timeout now (attempt timeout (deliveries id offers)) = first :: rest ∧
          first.stamp = pending.since ∧ indices pending.parts = brought (first :: rest) := by
  cases kept : run timeout offers id with
  | none =>
    refine .inl ⟨?_, tracks.gone kept now before⟩
    rw [expire, kept]
    rfl
  | some pending =>
    obtain ⟨first, rest, last, began, same⟩ := tracks.kept pending kept
    rw [last] at same ⊢
    rw [current_cons, began]
    by_cases young : now - pending.since ≤ timeout
    · rw [if_pos young]
      exact .inr ⟨pending, first, rest, expire_eq_some_iff.mpr ⟨kept, young⟩, rfl, began, same⟩
    · rw [if_neg young, expire, kept, Option.filter_some,
        if_neg fun near => young (of_decide_eq_true near)]
      exact .inl ⟨rfl, rfl⟩

theorem Tracks.indices_collected (tracks : Tracks timeout id offers)
    (before : ∀ offer ∈ offers, offer.now ≤ now) :
    indices (((run timeout offers).expire timeout now).collected id) =
      brought (current timeout now (attempt timeout (deliveries id offers))) := by
  rw [collected]
  rcases tracks.expired before with ⟨gone, none_left⟩ | ⟨pending, first, rest, kept, last, -, same⟩
  · rw [gone, none_left]
    rfl
  · rw [kept, last]
    exact same

theorem tracks_nil (timeout : K) (id : ι) : Tracks timeout id ([] : List (Offer ι K α)) where
  kept := fun _ kept => by cases kept
  gone := fun _ _ _ => current_nil

/-- The last attempt when an offer with a part of the whole has been made. -/
theorem attempt_deliveries_snoc (timeout : K) (offers : List (Offer ι K α))
    (offered : offer.part? = some part) :
    attempt timeout (deliveries part.id (offers ++ [offer])) =
      current timeout offer.now (attempt timeout (deliveries part.id offers)) ++
        [⟨offer.now, offer.stamp, part.index⟩] := by
  rw [deliveries_snoc, delivery?_of_part offered, Option.toList_some, attempt_snoc]

theorem Tracks.indices_grown (tracks : Tracks timeout part.id offers)
    (before : ∀ earlier ∈ offers, earlier.now ≤ offer.now) (offered : offer.part? = some part) :
    indices (((run timeout offers).expire timeout offer.now).grown part) =
      brought (attempt timeout (deliveries part.id (offers ++ [offer]))) := by
  rw [Collector.indices_grown, tracks.indices_collected before,
    attempt_deliveries_snoc timeout offers offered, brought_append_singleton]

/-- An offer with a part of the whole that does not bring the last index. -/
theorem Tracks.delivered (tracks : Tracks timeout part.id offers)
    (before : ∀ earlier ∈ offers, earlier.now ≤ offer.now) (offered : offer.part? = some part)
    (inside : part.index < part.total)
    (incomplete : brought (attempt timeout (deliveries part.id (offers ++ [offer]))) ≠
      Finset.range part.total) :
    Tracks timeout part.id (offers ++ [offer]) := by
  have grown := tracks.indices_grown before offered
  have last := attempt_deliveries_snoc timeout offers offered
  have same : run timeout (offers ++ [offer]) part.id =
      (((run timeout offers).expire timeout offer.now).place offer.stamp part).1 part.id := by
    rw [run_snoc, Collector.step, offered]
  have missing : ¬Complete (((run timeout offers).expire timeout offer.now).grown part)
      part.total :=
    fun complete => incomplete (grown ▸ complete)
  rw [place_self, if_neg missing] at same
  split_ifs at same with fits
  · refine ⟨fun pending kept => ?_, fun gone => ?_⟩
    · obtain rfl := Option.some.inj (same.symm.trans kept)
      -- A new attempt begins if the last one does not count any more.
      rcases tracks.expired before with ⟨gone, none_left⟩ | ⟨pending, first, rest, kept, found,
        began, -⟩
      · rw [none_left, List.nil_append] at last
        refine ⟨_, [], last, ?_, grown⟩
        rw [since, gone]
        rfl
      · rw [found] at last
        refine ⟨first, _, last, ?_, grown⟩
        rw [since, kept]
        exact began
    · rw [same] at gone
      cases gone
  · -- The index has been brought before.
    have twice : part.index ∈
        indices (((run timeout offers).expire timeout offer.now).collected part.id) := by
      by_contra fresh
      exact fits ⟨inside, fresh⟩
    rcases tracks.expired before with ⟨gone, -⟩ | ⟨pending, first, rest, kept, found, began, brings⟩
    · rw [collected, gone] at twice
      exact absurd twice (Finset.notMem_empty part.index)
    · rw [found] at last
      rw [collected, kept] at twice
      refine ⟨fun pending' kept' => ?_, fun gone => ?_⟩
      · obtain rfl : pending = pending' := Option.some.inj (kept.symm.trans (same.symm.trans kept'))
        refine ⟨first, _, last, began, ?_⟩
        rw [last, brought_append_singleton, ← brings]
        exact (Finset.insert_eq_self.mpr twice).symm
      · rw [same, kept] at gone
        cases gone

/-- As long as no attempt has brought all indices, an offer returns the whole exactly if the last
attempt does with it. -/
theorem Tracks.returns_iff (tracks : Tracks timeout part.id offers)
    (before : ∀ earlier ∈ offers, earlier.now ≤ offer.now) (offered : offer.part? = some part)
    (inside : part.index < part.total)
    (unfinished : brought (attempt timeout (deliveries part.id offers)) ≠ Finset.range part.total) :
    (∃ whole, returns timeout offers offer = some whole) ↔
      brought (attempt timeout (deliveries part.id (offers ++ [offer]))) =
        Finset.range part.total := by
  have grown := tracks.indices_grown before offered
  constructor
  · rintro ⟨whole, returned⟩
    obtain ⟨part', offered', -, complete, -⟩ := of_step_eq_some returned
    obtain rfl : part = part' := Option.some.inj (offered.symm.trans offered')
    exact grown.symm.trans complete
  · intro all
    have fits : ((run timeout offers).expire timeout offer.now).Fits part := by
      refine ⟨inside, fun twice => ?_⟩
      -- Otherwise the indices would have been there already.
      rw [attempt_deliveries_snoc timeout offers offered, brought_append_singleton,
        ← tracks.indices_collected before, Finset.insert_eq_self.mpr twice,
        tracks.indices_collected before, current] at all
      split_ifs at all
      · exact unfinished all
      · have member : part.index ∈ brought ([] : List (Delivery K)) :=
          all ▸ Finset.mem_range.mpr inside
        exact absurd member (Finset.notMem_empty part.index)
    refine ⟨contents (((run timeout offers).expire timeout offer.now).grown part), ?_⟩
    rw [returns, step, offered]
    dsimp only
    rw [place_of_complete fits (grown.trans all)]

/-! ### Wholes that are delivered again -/

/-- The parts of a whole that are offered all say one total, and have an index in range. -/
def Steady (id : ι) (total : ℕ) (offers : List (Offer ι K α)) : Prop :=
  ∀ offer ∈ offers, ∀ part, offer.part? = some part → part.id = id →
    part.total = total ∧ part.index < total

/-- No attempt at a whole has brought all indices. -/
def Unfinished (timeout : K) (id : ι) (total : ℕ) (offers : List (Offer ι K α)) : Prop :=
  ∀ before, before <+: deliveries id offers → brought (attempt timeout before) ≠ Finset.range total

theorem Unfinished.of_append (unfinished : Unfinished timeout id total (before ++ after)) :
    Unfinished timeout id total before := fun early first =>
  unfinished early (first.trans (deliveries_append id before after ▸ List.prefix_append _ _))

/-- Either no attempt has brought all indices, or a part that is offered is the first to do so. -/
theorem unfinished_or_exists_first (positive : 0 < total) (timeout : K) (id : ι)
    (offers : List (Offer ι K α)) : Unfinished timeout id total offers ∨
      ∃ before offer after part, offers = before ++ offer :: after ∧
        Unfinished timeout id total before ∧ offer.part? = some part ∧ part.id = id ∧
          brought (attempt timeout (deliveries id (before ++ [offer]))) = Finset.range total := by
  induction offers using List.reverseRecOn with
  | nil =>
    refine .inl fun before first all => ?_
    obtain rfl := List.prefix_nil.mp first
    have member : 0 ∈ brought ([] : List (Delivery K)) := all ▸ Finset.mem_range.mpr positive
    exact Finset.notMem_empty 0 member
  | append_singleton offers last ih =>
    rcases ih with unfinished | ⟨before, offer, after, part, rfl, first⟩
    -- Only an offer with a part of the whole can be the first to bring all indices.
    · cases delivered : delivery? id last with
      | none =>
        left
        intro before first
        rw [deliveries_snoc, delivered, Option.toList_none, List.append_nil] at first
        exact unfinished before first
      | some delivery =>
        obtain ⟨part, offered, own, -⟩ := exists_part delivered
        by_cases all : brought (attempt timeout (deliveries id (offers ++ [last]))) =
            Finset.range total
        · exact .inr ⟨offers, last, [], part, rfl, unfinished, offered, own, all⟩
        · left
          intro before first
          rw [deliveries_snoc, delivered, Option.toList_some] at first all
          rcases List.prefix_concat_iff.mp first with rfl | earlier
          · exact all
          · exact unfinished before earlier
    · exact .inr ⟨before, offer, after ++ [last], part, List.append_assoc .., first⟩

/-- Nothing of a whole is kept as long as no part of it is offered. -/
theorem run_append_eq_none (gone : run timeout before id = none)
    (others : deliveries id after = []) : run timeout (before ++ after) id = none := by
  induction after using List.reverseRecOn with
  | nil => rwa [List.append_nil]
  | append_singleton after offer ih =>
    rw [deliveries_snoc, List.append_eq_nil_iff, Option.toList_eq_nil_iff] at others
    have gone := ih others.1
    have expired : (run timeout (before ++ after)).expire timeout offer.now id = none := by
      rw [expire, gone]
      rfl
    rw [← List.append_assoc, run_snoc, Collector.step]
    cases offered : offer.part? with
    | none => exact expired
    | some part =>
      exact (place_of_ne (Ne.symm (delivery?_eq_none_iff.mp others.2 part offered))).trans expired

/-- A part of a whole of which nothing is kept is the beginning of it. -/
theorem step_ne_none_of_gone (gone : c part.id = none) (offered : offer.part? = some part)
    (inside : part.index < part.total) (silent : (Collector.step timeout c offer).2 = none) :
    (Collector.step timeout c offer).1 part.id ≠ none := by
  have expired : c.expire timeout offer.now part.id = none := by
    rw [expire, gone]
    rfl
  have fits : (c.expire timeout offer.now).Fits part := by
    refine ⟨inside, ?_⟩
    rw [collected, expired]
    exact Finset.notMem_empty part.index
  unfold Collector.step at silent ⊢
  rw [offered] at silent ⊢
  dsimp only at silent ⊢
  by_cases complete : Complete ((c.expire timeout offer.now).grown part) part.total
  · rw [place_of_complete fits complete] at silent
    cases silent
  · rw [place_of_incomplete fits complete]
    dsimp only
    rw [Function.update_self]
    exact Option.some_ne_none _

/-- A whole is returned at most once, and when it has been, nothing of it is kept any more. -/
def AtMostOnce (timeout : K) (id : ι) (offers : List (Offer ι K α)) : Prop :=
  ∀ before offer after part, offers = before ++ offer :: after → offer.part? = some part →
    part.id = id → returns timeout before offer ≠ none →
      (∀ among rest, after = among ++ rest → run timeout (before ++ offer :: among) id = none) ∧
      ∀ among later rest part', after = among ++ later :: rest → later.part? = some part' →
        part'.id = id → returns timeout (before ++ offer :: among) later = none

/-- No part of a whole is delivered after an attempt has brought all indices. -/
def NothingAfter (timeout : K) (total : ℕ) (deliveries : List (Delivery K)) : Prop :=
  ∀ before delivery after, deliveries = before ++ delivery :: after →
    brought (attempt timeout before) ≠ Finset.range total

/-- After the first attempt that brings all indices the whole may not be delivered any more. -/
theorem Unfinished.nothingAfter_iff (unfinished : Unfinished timeout part.id total before)
    (offered : offer.part? = some part)
    (all : brought (attempt timeout (deliveries part.id (before ++ [offer]))) =
      Finset.range total) :
    NothingAfter timeout total (deliveries part.id (before ++ offer :: after)) ↔
      deliveries part.id after = [] := by
  rw [← List.singleton_append, ← List.append_assoc, deliveries_append]
  constructor
  · intro nothing
    cases rest : deliveries part.id after with
    | nil => rfl
    | cons delivery later => exact absurd all (nothing _ delivery later (by rw [rest]))
  · intro none_left early delivery later split
    rw [none_left, List.append_nil, deliveries_snoc, delivery?_of_part offered,
      Option.toList_some] at split
    apply unfinished
    rcases List.eq_nil_or_concat later with rfl | ⟨later, last, rfl⟩
    · exact (List.append_inj' split rfl).1 ▸ List.prefix_refl _
    · rw [List.concat_eq_append, ← List.cons_append, ← List.append_assoc] at split
      exact ⟨delivery :: later, (List.append_inj' split rfl).1.symm⟩

variable [IsOrderedAddMonoid K]

/-- An offer without a part of the whole. -/
theorem Tracks.other (tracks : Tracks timeout id offers)
    (before : ∀ earlier ∈ offers, earlier.now ≤ offer.now) (other : delivery? id offer = none) :
    Tracks timeout id (offers ++ [offer]) := by
  have same : run timeout (offers ++ [offer]) id =
      (run timeout offers).expire timeout offer.now id := by
    rw [run_snoc, Collector.step]
    cases offered : offer.part? with
    | none => rfl
    | some part => exact place_of_ne (Ne.symm (delivery?_eq_none_iff.mp other part offered))
  have still : deliveries id (offers ++ [offer]) = deliveries id offers := by
    rw [deliveries_snoc, other, Option.toList_none, List.append_nil]
  constructor
  · intro pending kept
    rw [same] at kept
    rw [still]
    exact tracks.kept pending (expire_eq_some_iff.mp kept).1
  · intro gone later after
    rw [same] at gone
    rw [still]
    have order := after offer (List.mem_append_right _ (List.mem_singleton.mpr rfl))
    rcases tracks.expired before with ⟨-, none_left⟩ | ⟨pending, _, _, kept, -⟩
    · exact current_eq_nil_of_le none_left order
    · rw [gone] at kept
      cases kept

/-- As long as no attempt has brought all indices, a collector tracks the last one. -/
theorem Unfinished.tracks (unfinished : Unfinished timeout id total offers)
    (steady : Steady id total offers) (ordered : offers.Pairwise fun a b => a.now ≤ b.now) :
    Tracks timeout id offers := by
  induction offers using List.reverseRecOn with
  | nil => exact tracks_nil timeout id
  | append_singleton offers offer ih =>
    rw [List.pairwise_append] at ordered
    have tracks := ih unfinished.of_append
      (fun earlier member => steady earlier (List.mem_append_left _ member)) ordered.1
    have before : ∀ earlier ∈ offers, earlier.now ≤ offer.now := fun earlier member =>
      ordered.2.2 earlier member offer (List.mem_singleton.mpr rfl)
    cases delivered : delivery? id offer with
    | none => exact tracks.other before delivered
    | some delivery =>
      obtain ⟨part, offered, rfl, -⟩ := exists_part delivered
      obtain ⟨rfl, inside⟩ :=
        steady offer (List.mem_append_right _ (List.mem_singleton.mpr rfl)) part offered rfl
      exact tracks.delivered before offered inside (unfinished _ (List.prefix_refl _))

/-- The first attempt that brings all indices returns the whole, and leaves nothing of it. -/
theorem Unfinished.returns_of_all (unfinished : Unfinished timeout id total before)
    (steady : Steady id total (before ++ [offer]))
    (ordered : (before ++ [offer]).Pairwise fun a b => a.now ≤ b.now)
    (offered : offer.part? = some part) (own : part.id = id) :
    (∃ whole, returns timeout before offer = some whole) ↔
      brought (attempt timeout (deliveries id (before ++ [offer]))) = Finset.range total := by
  subst own
  rw [List.pairwise_append] at ordered
  have tracks := unfinished.tracks
    (fun earlier member => steady earlier (List.mem_append_left _ member)) ordered.1
  obtain ⟨rfl, inside⟩ :=
    steady offer (List.mem_append_right _ (List.mem_singleton.mpr rfl)) part offered rfl
  exact tracks.returns_iff
    (fun earlier member => ordered.2.2 earlier member offer (List.mem_singleton.mpr rfl)) offered
    inside (unfinished _ (List.prefix_refl _))

/-- As long as no attempt has brought all indices, nothing is returned. -/
theorem Unfinished.returns_eq_none
    (unfinished : Unfinished timeout id total (before ++ offer :: after))
    (steady : Steady id total (before ++ offer :: after))
    (ordered : (before ++ offer :: after).Pairwise fun a b => a.now ≤ b.now)
    (offered : offer.part? = some part) (own : part.id = id) :
    returns timeout before offer = none := by
  rw [← List.singleton_append, ← List.append_assoc] at unfinished steady ordered
  have returned := unfinished.of_append.of_append.returns_of_all
    (fun earlier member => steady earlier (List.mem_append_left _ member))
    (List.pairwise_append.mp ordered).1 offered own
  rw [← Option.not_isSome_iff_eq_none, Option.isSome_iff_exists, returned]
  exact unfinished.of_append _ (List.prefix_refl _)

/-- If no part of a whole is offered after the first attempt that brings all indices, only that
attempt returns the whole. -/
theorem Unfinished.eq_first {early late : List (Offer ι K α)} {first : Offer ι K α}
    (unfinished : Unfinished timeout id total before)
    (steady : Steady id total (before ++ offer :: after))
    (ordered : (before ++ offer :: after).Pairwise fun a b => a.now ≤ b.now)
    (none_left : deliveries id after = [])
    (split : before ++ offer :: after = early ++ first :: late)
    (offered : first.part? = some part) (own : part.id = id)
    (returned : returns timeout early first ≠ none) :
    early = before ∧ first = offer ∧ late = after := by
  subst own
  -- The first return is neither after the offer, where nothing is delivered, nor before it.
  rcases List.append_eq_append_iff.mp split with ⟨middle, rfl, rest⟩ | ⟨middle, rfl, rest⟩
  · cases middle with
    | nil =>
      obtain ⟨rfl, rfl⟩ := List.cons.inj rest
      exact ⟨List.append_nil _, rfl, rfl⟩
    | cons x middle =>
      obtain ⟨rfl, rfl⟩ := List.cons.inj rest
      exact absurd none_left (deliveries_ne_nil offered)
  · cases middle with
    | nil =>
      obtain ⟨rfl, rfl⟩ := List.cons.inj rest
      exact ⟨(List.append_nil _).symm, rfl, rfl⟩
    | cons x middle =>
      obtain ⟨rfl, -⟩ := List.cons.inj rest
      have silent := unfinished.returns_eq_none
        (fun earlier member => steady earlier (List.mem_append_left _ member))
        (List.pairwise_append.mp ordered).1 offered rfl
      exact absurd silent returned

/-- A whole is returned at most once and then forgotten exactly if no part of it is offered after an
attempt has brought all indices. -/
theorem atMostOnce_iff (positive : 0 < total) (steady : Steady id total offers)
    (ordered : offers.Pairwise fun a b => a.now ≤ b.now) :
    AtMostOnce timeout id offers ↔ NothingAfter timeout total (deliveries id offers) := by
  -- Either no attempt is ever complete, or there is a first offer that completes one.
  rcases unfinished_or_exists_first positive timeout id offers with
    unfinished | ⟨before, offer, after, part, rfl, unfinished, offered, rfl, all⟩
  · constructor
    · intro _ before delivery after split
      exact unfinished before ⟨delivery :: after, split.symm⟩
    · rintro - before offer after part rfl offered own returned
      exact absurd (unfinished.returns_eq_none steady ordered offered own) returned
  · rw [unfinished.nothingAfter_iff offered all]
    have whole : ∃ whole, returns timeout before offer = some whole := by
      rw [← List.singleton_append, ← List.append_assoc] at steady ordered
      exact (unfinished.returns_of_all
        (fun earlier member => steady earlier (List.mem_append_left _ member))
        (List.pairwise_append.mp ordered).1 offered rfl).mpr all
    obtain ⟨whole, returned⟩ := whole
    obtain ⟨part', offered', -, -, -, gone⟩ := of_step_eq_some returned
    obtain rfl : part = part' := Option.some.inj (offered.symm.trans offered')
    constructor
    -- A delivery afterwards would leave something, which is forgotten only by another return.
    · intro once
      by_contra some_left
      obtain ⟨among, later, rest, part', rfl, offered', own⟩ := exists_split_of_deliveries some_left
      obtain ⟨forgotten, silent⟩ := once before offer _ part rfl offered rfl (by simp [returned])
      have inside := steady later (List.mem_append_right _ (List.mem_cons_of_mem _
        (List.mem_append_right _ (List.mem_cons_self ..)))) part' offered' own
      have kept := step_ne_none_of_gone (own ▸ forgotten among (later :: rest) rfl) offered'
        (inside.1.symm ▸ inside.2) (silent among later rest part' rfl offered' own)
      have lost := forgotten (among ++ [later]) rest (List.append_cons ..)
      rw [← List.cons_append, ← List.append_assoc, run_snoc, ← own] at lost
      exact kept lost
    · intro none_left early first late part' split offered' own returned'
      obtain ⟨rfl, rfl, rfl⟩ :=
        unfinished.eq_first steady ordered none_left split offered' own returned'
      constructor
      · rintro among rest rfl
        rw [← List.singleton_append, ← List.append_assoc]
        apply run_append_eq_none
        · rwa [run_snoc]
        · rw [deliveries_append, List.append_eq_nil_iff] at none_left
          exact none_left.1
      · rintro among later rest part' rfl offered' own
        exact absurd none_left (own ▸ deliveries_ne_nil offered')

/-! ### Wholes that are delivered in time -/

/-- A whole is delivered within the timeout after the first delivery, all of it, and nothing of it
after that. -/
structure InTime (timeout : K) (total : ℕ) (ds : List (Delivery K)) : Prop where
  close : ∀ first ∈ ds.head?, ∀ delivery ∈ ds.tail, delivery.now - first.stamp ≤ timeout
  whole : brought ds = Finset.range total
  last : ∀ before delivery after, ds = before ++ delivery :: after →
    brought before ≠ Finset.range total

omit [DecidableEq ι] [IsOrderedAddMonoid K] in
theorem InTime.attempt_eq {before after : List (Delivery K)}
    (timely : InTime timeout total (before ++ after)) : attempt timeout before = before := by
  apply attempt_of_close
  intro first head delivery member
  cases before with
  | nil => cases head
  | cons opening before =>
    exact timely.close first head delivery (List.mem_append_left after member)

omit [IsOrderedAddMonoid K] in
/-- Before a delivery of it the whole is unfinished. -/
theorem InTime.unfinished {delivery : Delivery K} {later : List (Delivery K)}
    (timely : InTime timeout total (deliveries id before ++ delivery :: later)) :
    Unfinished timeout id total before := by
  rintro early ⟨rest, split⟩
  rw [← split, List.append_assoc] at timely
  rw [timely.attempt_eq]
  cases rest with
  | nil => exact timely.last early delivery later rfl
  | cons next rest => exact timely.last early next (rest ++ delivery :: later) rfl

/-- A whole that is delivered in time is returned with its last part, and its contents are those of
its parts by the index. -/
theorem InTime.returns_eq [Inhabited α] {content : ℕ → α}
    (timely : InTime timeout total (deliveries part.id (before ++ offer :: after)))
    (steady : Steady part.id total (before ++ offer :: after))
    (ordered : (before ++ offer :: after).Pairwise fun a b => a.now ≤ b.now)
    (same : ∀ o ∈ before ++ offer :: after, ∀ p, o.part? = some p → p.id = part.id →
      p.content = content p.index) (offered : offer.part? = some part) :
    returns timeout before offer =
      if brought (deliveries part.id (before ++ [offer])) = Finset.range total then
        some ((List.range total).map content)
      else none := by
  have unfinished := (deliveries_split offered ▸ timely).unfinished
  have until_now : deliveries part.id (before ++ offer :: after) =
      deliveries part.id (before ++ [offer]) ++ deliveries part.id after := by
    rw [← deliveries_append, ← List.append_cons]
  have whole := (until_now ▸ timely).attempt_eq
  rw [List.append_cons] at steady ordered
  have returned := unfinished.returns_of_all
    (fun earlier member => steady earlier (List.mem_append_left _ member))
    (List.pairwise_append.mp ordered).1 offered rfl
  rw [whole] at returned
  split_ifs with all
  · obtain ⟨contents, returns⟩ := returned.mpr all
    obtain ⟨part', offered', -, earlier, recent, rfl, -, content', rfl, each⟩ :=
      exists_offered returns
    obtain rfl : part = part' := Option.some.inj (offered.symm.trans offered')
    have declared := (steady offer (List.mem_append_left _ (List.mem_append_right _
      (List.mem_singleton.mpr rfl))) part offered rfl).1
    rw [returns, declared]
    refine congrArg some (List.map_congr_left fun i inside => ?_)
    -- Every content comes from a part that was offered, and such parts have the given contents.
    obtain ⟨o, among, _, o_part, -⟩ := each i (declared ▸ List.mem_range.mp inside)
    have member : o ∈ earlier ++ recent ++ offer :: after := by
      rcases List.mem_append.mp among with old | now
      · exact List.mem_append_left _ (List.mem_append_right _ old)
      · rw [List.mem_singleton.mp now]
        exact List.mem_append_right _ (List.mem_cons_self ..)
    exact same o member _ o_part rfl
  · by_contra some_whole
    exact all (returned.mp (Option.ne_none_iff_exists'.mp some_whole))

/-- Nothing of a whole that is delivered in time is ever forgotten for its age. -/
theorem InTime.expire_eq (positive : 0 < total)
    (timely : deliveries id (before ++ offer :: after) ≠ [] →
      InTime timeout total (deliveries id (before ++ offer :: after)))
    (steady : Steady id total (before ++ offer :: after))
    (ordered : (before ++ offer :: after).Pairwise fun a b => a.now ≤ b.now) :
    (run timeout before).expire timeout offer.now id = run timeout before id := by
  cases kept : run timeout before id with
  | none =>
    rw [expire, kept]
    rfl
  | some pending =>
    refine expire_eq_some_iff.mpr ⟨kept, ?_⟩
    have some_parts : deliveries id before ≠ [] := by
      intro nothing
      have gone : run timeout ([] ++ before) id = none := run_append_eq_none rfl nothing
      rw [List.nil_append, kept] at gone
      cases gone
    rw [deliveries_append] at timely
    have timely := timely (List.append_ne_nil_of_left_ne_nil some_parts _)
    rcases unfinished_or_exists_first positive timeout id before with
      unfinished | ⟨early, first, late, part, rfl, unfinished, offered, rfl, all⟩
    · -- The whole is not complete, so more of it is delivered, and in time.
      rw [List.pairwise_append] at ordered
      have tracks := unfinished.tracks
        (fun earlier member => steady earlier (List.mem_append_left _ member)) ordered.1
      obtain ⟨first, rest, last, began, -⟩ := tracks.kept pending kept
      rw [timely.attempt_eq] at last
      cases more : deliveries id (offer :: after) with
      | nil =>
        have missing := unfinished _ (List.prefix_refl _)
        rw [timely.attempt_eq] at missing
        rw [more, List.append_nil] at timely
        exact absurd timely.whole missing
      | cons next later =>
        have member : next ∈ deliveries id (offer :: after) := more ▸ List.mem_cons_self ..
        obtain ⟨o, among, delivered⟩ := List.mem_filterMap.mp member
        obtain ⟨part, -, -, rfl⟩ := exists_part delivered
        have order : offer.now ≤ o.now := by
          rcases List.mem_cons.mp among with rfl | afterwards
          · exact le_rfl
          · exact (List.pairwise_cons.mp ordered.2.1).1 o afterwards
        rw [more, last] at timely
        have young := timely.close first rfl _ (List.mem_append_right rest (List.mem_cons_self ..))
        rw [began] at young
        exact (sub_le_sub_right order pending.since).trans young
    · -- The whole is complete, so nothing of it is kept.
      have front : (early ++ [first]).Sublist (early ++ first :: late ++ offer :: after) := by
        rw [List.append_cons early first late, List.append_assoc]
        exact List.sublist_append_left _ _
      obtain ⟨whole, returned⟩ := (unfinished.returns_of_all
        (fun earlier member => steady earlier (front.mem member)) (ordered.sublist front) offered
        rfl).mpr all
      obtain ⟨part', offered', -, -, -, gone⟩ := of_step_eq_some returned
      obtain rfl : part = part' := Option.some.inj (offered.symm.trans offered')
      rw [← run_snoc] at gone
      rw [List.append_cons] at kept timely
      rw [deliveries_append, List.append_assoc] at timely
      rw [timely.attempt_eq] at all
      have none_left : deliveries part.id late = [] := by
        cases rest : deliveries part.id late with
        | nil => rfl
        | cons next later =>
          rw [rest] at timely
          exact absurd all (timely.last _ next _ rfl)
      rw [run_append_eq_none gone none_left] at kept
      cases kept

end Ordered

end Collector

end Foundation
