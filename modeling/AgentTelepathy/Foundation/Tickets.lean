import AgentTelepathy.Foundation.Dict
import AgentTelepathy.Foundation.Transition

/-!
# Single-use tickets

A desk keeps at most one outstanding ticket for each holder. It issues tickets,
takes them back when they are spent, and may forget outstanding ones at any
time; a new ticket replaces the one its holder had. If the serial numbers of all
tickets that are ever issued differ, then whatever is spent was issued to the
holder who spends it, and no ticket is spent twice.
-/

namespace Foundation

open Transition

universe u v w

/-- Outstanding tickets by holder, and the tickets issued and spent so far. -/
structure Desk (κ : Type u) (τ : Type v) where
  outstanding : Dict κ τ
  issued : List (κ × τ)
  spent : List (κ × τ)

namespace Desk

variable {κ : Type u} {τ : Type v} {ν : Type w} [DecidableEq κ]

/-- What happens at a desk. -/
inductive Move (κ : Type u) (τ : Type v)
  | issue (holder : κ) (ticket : τ)
  | spend (holder : κ) (ticket : τ)
  | forget

/-- One move. -/
inductive Step : Desk κ τ → Move κ τ → Desk κ τ → Prop
  | issue {s : Desk κ τ} (holder : κ) (ticket : τ) :
      Step s (.issue holder ticket)
        ⟨s.outstanding.set holder ticket, s.issued ++ [(holder, ticket)], s.spent⟩
  | spend {s : Desk κ τ} {holder : κ} {ticket : τ}
      (outstanding : s.outstanding.get? holder = some ticket) :
      Step s (.spend holder ticket)
        ⟨s.outstanding.erase holder, s.issued, s.spent ++ [(holder, ticket)]⟩
  | forget {s : Desk κ τ} {fewer : Dict κ τ}
      (kept : ∀ k v, fewer.get? k = some v → s.outstanding.get? k = some v) :
      Step s .forget ⟨fewer, s.issued, s.spent⟩

/-- Outstanding and spent tickets were issued, no ticket is spent twice, and no
spent ticket is outstanding. -/
structure Honest (serial : τ → ν) (s : Desk κ τ) : Prop where
  outstanding_issued : ∀ k v, s.outstanding.get? k = some v → (k, v) ∈ s.issued
  spent_issued : ∀ e ∈ s.spent, e ∈ s.issued
  once : (s.spent.map fun e => serial e.2).Nodup
  unspent : ∀ k v, s.outstanding.get? k = some v → serial v ∉ s.spent.map fun e => serial e.2

variable {serial : τ → ν} {s t : Desk κ τ} {move : Move κ τ} {moves : List (Move κ τ)}

/-- A desk at which nothing has happened. -/
theorem honest_empty : Honest serial (⟨Dict.empty, [], []⟩ : Desk κ τ) := by
  refine ⟨?_, ?_, List.nodup_nil, ?_⟩ <;> simp

/-- Issuing is remembered. -/
theorem Step.issued_prefix (step : Step s move t) : s.issued <+: t.issued := by
  cases step with
  | issue => exact List.prefix_append _ _
  | spend | forget => exact List.prefix_rfl

omit [DecidableEq κ] in
/-- One serial number, one ticket and one holder. -/
private theorem eq_of_serial {issued : List (κ × τ)}
    (distinct : (issued.map fun e => serial e.2).Nodup) {d e : κ × τ} (hd : d ∈ issued)
    (he : e ∈ issued) (same : serial d.2 = serial e.2) : d = e :=
  List.inj_on_of_nodup_map distinct hd he same

theorem Honest.step (honest : Honest serial s) (step : Step s move t)
    (distinct : (t.issued.map fun e => serial e.2).Nodup) : Honest serial t := by
  obtain ⟨issued, spentIssued, once, unspent⟩ := honest
  cases step with
  | issue holder ticket =>
    have fresh : serial ticket ∉ s.issued.map fun e => serial e.2 := by
      rw [List.map_append, List.nodup_append] at distinct
      intro used
      exact distinct.2.2 _ used _ (by simp) rfl
    refine ⟨?_, ?_, once, ?_⟩
    · intro k v held
      rw [Dict.get?_set] at held
      split_ifs at held with same
      · cases held
        simp [same]
      · exact List.mem_append_left _ (issued k v held)
    · intro e spent
      exact List.mem_append_left _ (spentIssued e spent)
    · intro k v held
      rw [Dict.get?_set] at held
      split_ifs at held with same
      · cases held
        -- What is spent was issued before, and this serial number was not.
        intro spent
        obtain ⟨e, member, number⟩ := List.mem_map.mp spent
        exact fresh (List.mem_map.mpr ⟨e, spentIssued e member, number⟩)
      · exact unspent k v held
  | spend outstanding =>
    rename_i holder ticket
    refine ⟨?_, ?_, ?_, ?_⟩
    · intro k v held
      exact issued k v (Dict.get?_of_get?_erase held)
    · intro e spent
      rcases List.mem_append.mp spent with before | now
      · exact spentIssued e before
      · obtain rfl := List.mem_singleton.mp now
        exact issued _ _ outstanding
    · rw [List.map_append, List.nodup_append]
      refine ⟨once, by simp, ?_⟩
      rintro number spent _ now rfl
      obtain rfl : number = serial ticket := by simpa using now
      exact unspent _ _ outstanding spent
    · intro k v held spent
      rw [Dict.get?_erase] at held
      split_ifs at held with same
      rw [List.map_append, List.mem_append] at spent
      rcases spent with before | now
      · exact unspent k v held before
      · have number : serial v = serial ticket := by simpa using now
        exact same (congrArg Prod.fst
          (eq_of_serial distinct (issued k v held) (issued _ _ outstanding) number))
  | forget kept =>
    refine ⟨?_, spentIssued, once, ?_⟩
    · intro k v held
      exact issued k v (kept k v held)
    · intro k v held
      exact unspent k v (kept k v held)

/-- If all serial numbers differ, a run of moves keeps a desk honest. -/
theorem Honest.run (honest : Honest serial s) (run : Run Step s moves t)
    (distinct : (t.issued.map fun e => serial e.2).Nodup) : Honest serial t := by
  induction run with
  | nil => exact honest
  | snoc _ last ih =>
    have before := (last.issued_prefix.map fun e : κ × τ => serial e.2).sublist.nodup distinct
    exact (ih before).step last distinct

end Desk

end Foundation
