import Mathlib.Algebra.Order.Field.Basic
import Mathlib.Data.List.Chain
import Mathlib.Tactic.Linarith

/-!
# Windows of time

How many of a list of times lie in an interval of a given width. In every closed interval of that
width lie at most `n` times of an increasing list exactly if each time comes later by more than
the width than the one `n` places before it.

A history of the times let through, less what no longer counts, is enough to keep to a bound in
every interval (a sliding window). A counter that starts again when the width has passed since it
started (a fixed window) lets the first `n` times of every counting window through. What it lets
through keeps to the bound for every interval exactly if any two successive counting windows do.
-/

namespace Foundation

namespace Windows

variable {K : Type*} [Field K] [LinearOrder K] {n : ℕ} {w s t : K} {p q times : List K}

/-- The times in the closed interval of width `w` from `a` on. -/
def inClosed (w a : K) (times : List K) : List K := times.filter fun t => a ≤ t ∧ t ≤ a + w

/-- Each time is later by more than `w` than the one `n` places before it. -/
def Spaced (n : ℕ) (w : K) (times : List K) : Prop :=
  ∀ i x y, times[i]? = some x → times[i + n]? = some y → x + w < y

theorem Spaced.tail (spaced : Spaced n w (t :: times)) : Spaced n w times := by
  intro i x y first second
  exact spaced (i + 1) x y (by simpa using first) (by simpa [Nat.add_right_comm] using second)

theorem spaced_of_length_inClosed_le (sorted : times.Pairwise (· ≤ ·))
    (few : ∀ a, (inClosed w a times).length ≤ n) : Spaced n w times := by
  intro i x y first second
  by_contra near
  have near := not_lt.mp near
  obtain ⟨_, rfl⟩ := List.getElem?_eq_some_iff.mp first
  obtain ⟨short, rfl⟩ := List.getElem?_eq_some_iff.mp second
  -- The `n + 1` times from the one to the other lie in one interval.
  have all : inClosed w times[i] ((times.drop i).take (n + 1)) = (times.drop i).take (n + 1) := by
    rw [inClosed, List.filter_eq_self]
    intro z member
    obtain ⟨k, bound, rfl⟩ := List.mem_take_iff_getElem.mp member
    rw [List.getElem_drop, decide_eq_true_eq]
    have pos : k < n + 1 := lt_of_lt_of_le bound (min_le_left _ _)
    have lower := List.pairwise_iff_getElem.mp sorted
    constructor
    · rcases Nat.eq_zero_or_pos k with rfl | positive
      · exact le_rfl
      · exact lower i (i + k) _ _ (by omega)
    · refine le_trans ?_ near
      rcases Nat.lt_or_ge k n with before | last
      · exact lower (i + k) (i + n) _ short (by omega)
      · obtain rfl : k = n := by omega
        exact le_rfl
  have many := (((List.take_sublist (n + 1) _).trans (List.drop_sublist i times)).filter
    fun t => times[i] ≤ t ∧ t ≤ times[i] + w).length_le
  change (inClosed w times[i] _).length ≤ (inClosed w times[i] times).length at many
  rw [all, List.length_take, List.length_drop] at many
  have bound := few times[i]
  omega

section Ordered

variable [IsStrictOrderedRing K]

theorem length_inClosed_le_of_spaced (sorted : times.Pairwise (· ≤ ·)) (spaced : Spaced n w times)
    (a : K) : (inClosed w a times).length ≤ n := by
  induction times with
  | nil => exact Nat.zero_le n
  | cons x rest ih =>
    by_cases inside : a ≤ x ∧ x ≤ a + w
    · -- With the first time in the interval, only the first `n` can be.
      have late : inClosed w a ((x :: rest).drop n) = [] := by
        rw [inClosed, List.filter_eq_nil_iff]
        intro z member between
        cases later : (x :: rest)[n]? with
        | none =>
          rw [List.drop_eq_nil_of_le (List.getElem?_eq_none_iff.mp later)] at member
          cases member
        | some y =>
          have beyond := spaced 0 x y rfl (by rwa [Nat.zero_add])
          obtain ⟨short, rfl⟩ := List.getElem?_eq_some_iff.mp later
          have ordered := sorted.sublist (List.drop_sublist n _)
          rw [List.drop_eq_getElem_cons short] at member ordered
          have least : (x :: rest)[n] ≤ z := by
            rcases List.mem_cons.mp member with rfl | further
            · exact le_rfl
            · exact (List.pairwise_cons.mp ordered).1 z further
          have between := (of_decide_eq_true between).2
          linarith [inside.1]
      have split : inClosed w a (x :: rest) =
          inClosed w a ((x :: rest).take n) ++ inClosed w a ((x :: rest).drop n) := by
        rw [inClosed, inClosed, inClosed, ← List.filter_append, List.take_append_drop]
      rw [split, late, List.append_nil]
      exact (List.length_filter_le _ _).trans (List.length_take_le n _)
    · rw [inClosed, List.filter_cons_of_neg (by simpa using inside)]
      exact ih (List.pairwise_cons.mp sorted).2 spaced.tail

/-- At most `n` times of an increasing list lie in every closed interval of width `w` exactly if
they are spaced so. -/
theorem length_inClosed_le_iff (sorted : times.Pairwise (· ≤ ·)) :
    (∀ a, (inClosed w a times).length ≤ n) ↔ Spaced n w times :=
  ⟨spaced_of_length_inClosed_le sorted, length_inClosed_le_of_spaced sorted⟩

end Ordered

/-! ### Sliding windows -/

/-- The times that still count. -/
def recent (w now : K) (times : List K) : List K := times.filter fun t => now - t < w

/-- A time that finds fewer than `n` others within the width before it leaves every interval
narrower than that with at most `n`. -/
theorem length_filter_snoc_le {inside : K → Bool}
    (narrow : ∀ x y, inside x = true → inside y = true → y - x < w)
    (few : (times.filter inside).length ≤ n) (room : (recent w t times).length < n) :
    ((times ++ [t]).filter inside).length ≤ n := by
  rw [List.filter_append, List.length_append]
  cases here : inside t with
  | false => simpa [here] using few
  | true =>
    have recent : (times.filter inside).length ≤ (recent w t times).length := by
      apply List.Sublist.length_le
      apply List.monotone_filter_right
      intro x member
      exact decide_eq_true (narrow x t member here)
    simpa [here] using Nat.succ_le_of_lt (recent.trans_lt room)

/-- A history has at least as many times that still count as a list, now and later, and in every
interval narrower than `w` lie at most `n` of the list. -/
structure Covers (n : ℕ) (w clock : K) (history times : List K) : Prop where
  counted : ∀ now, clock ≤ now → (recent w now times).length ≤ (recent w now history).length
  few : ∀ inside : K → Bool, (∀ x y, inside x = true → inside y = true → y - x < w) →
    (times.filter inside).length ≤ n

theorem Covers.nil : Covers n w s [] [] := ⟨fun _ _ => le_rfl, fun _ _ => Nat.zero_le n⟩

theorem Covers.later (covers : Covers n w s p q) (order : s ≤ t) : Covers n w t p q :=
  ⟨fun now after => covers.counted now (order.trans after), covers.few⟩

/-- A time that is added to the history alone does no harm. -/
theorem Covers.attempt (covers : Covers n w s p q) (t : K) : Covers n w s (p ++ [t]) q := by
  refine ⟨fun now after => (covers.counted now after).trans ?_, covers.few⟩
  exact ((List.sublist_append_left p [t]).filter _).length_le

/-- A time is added to the list if fewer than `n` of the history still count. -/
theorem Covers.pass (covers : Covers n w t p q) (room : (recent w t p).length < n) :
    Covers n w t (p ++ [t]) (q ++ [t]) := by
  constructor
  · intro now after
    have counted := covers.counted now after
    simp only [recent, List.filter_append, List.length_append] at counted ⊢
    exact Nat.add_le_add_right counted _
  · intro inside narrow
    exact length_filter_snoc_le narrow (covers.few inside narrow)
      ((covers.counted t le_rfl).trans_lt room)

section Pruning

variable [IsStrictOrderedRing K]

/-- What counts later counts now. -/
theorem recent_recent (order : s ≤ t) (times : List K) :
    recent w t (recent w s times) = recent w t times := by
  rw [recent, recent, recent, List.filter_filter]
  apply List.filter_congr
  intro x _
  have still : t - x < w → s - x < w := fun counts => by linarith
  simpa using still

/-- What no longer counts can be dropped from the history. -/
theorem Covers.prune (covers : Covers n w s p q) : Covers n w s (recent w s p) q := by
  refine ⟨fun now after => ?_, covers.few⟩
  rw [recent_recent after]
  exact covers.counted now after

end Pruning

/-! ### Counting windows -/

/-- A counter and when it was started; a counter that is older than `w` starts again. Whether the
time is let through. -/
def pass (n : ℕ) (w : K) : Option (ℕ × K) → K → Option (ℕ × K) × Bool
  | none, t => (some (1, t), true)
  | some (count, start), t =>
    if w < t - start then (some (1, t), true)
    else if n ≤ count then (some (count, start), false)
    else (some (count + 1, start), true)

/-- The times that a counter lets through. -/
def admitted (n : ℕ) (w : K) : Option (ℕ × K) → List K → List K
  | _, [] => []
  | counter, t :: times =>
    (if (pass n w counter t).2 then [t] else []) ++ admitted n w (pass n w counter t).1 times

/-- A time is at most `w` later than another. -/
def within (w s t : K) : Bool := t - s ≤ w

/-- The counting windows of a list of times: the first time starts one, and the times up to `w`
later belong to it. -/
def counting (w : K) : List K → List (List K)
  | [] => []
  | t :: times =>
    (t :: times.takeWhile (within w t)) :: counting w (times.dropWhile (within w t))
termination_by times => times.length
decreasing_by exact Nat.lt_succ_of_le (List.dropWhile_sublist _).length_le

/-- What is let through in a counting window that was started at `s`, and what follows it. -/
theorem admitted_some (c : ℕ) (s : K) (times : List K) :
    admitted n w (some (c, s)) times = (times.takeWhile (within w s)).take (n - c) ++
      admitted n w none (times.dropWhile (within w s)) := by
  induction times generalizing c with
  | nil => simp [admitted]
  | cons t times ih =>
    by_cases late : w < t - s
    · -- The counter starts again, as if there were none.
      have far : ¬within w s t = true := fun near => not_le.mpr late (of_decide_eq_true near)
      rw [List.takeWhile_cons_of_neg far, List.dropWhile_cons_of_neg far, List.take_nil,
        List.nil_append]
      simp only [admitted, pass, if_pos late]
    · have near : within w s t = true := decide_eq_true (not_lt.mp late)
      rw [List.takeWhile_cons_of_pos near, List.dropWhile_cons_of_pos near, admitted]
      by_cases full : n ≤ c
      · rw [pass, if_neg late, if_pos full, ih, Nat.sub_eq_zero_of_le full]
        simp
      · obtain ⟨room, left⟩ : ∃ room, n - c = room + 1 := ⟨n - c - 1, by omega⟩
        rw [pass, if_neg late, if_neg full, ih, left, List.take_succ_cons,
          show n - (c + 1) = room by omega]
        rfl

/-- The first `n` times of every counting window are let through. -/
theorem admitted_none (positive : 0 < n) (times : List K) :
    admitted n w none times = (counting w times).flatMap (List.take n) := by
  induction times using counting.induct w with
  | case1 => simp [admitted, counting]
  | case2 t times ih =>
    obtain ⟨m, rfl⟩ := Nat.exists_eq_add_one_of_ne_zero positive.ne'
    rw [admitted, pass, counting, List.flatMap_cons, admitted_some, ih]
    simp

/-- Of two successive counting windows, each of the first `n` times of the later one comes more
than `w` after the one that is `n` places before it among the first `n` of both. -/
def Apart (n : ℕ) (w : K) (p q : List K) : Prop :=
  ∀ i j x y, (p.take n)[i]? = some x → (q.take n)[j]? = some y → (p.take n).length + j = i + n →
    x + w < y

/-- Any two successive counting windows are apart. -/
def EvenlyCounted (n : ℕ) (w : K) (times : List K) : Prop :=
  (counting w times).IsChain (Apart n w)

theorem mem_of_mem_counting {x : K} (member : p ∈ counting w times) (inside : x ∈ p) :
    x ∈ times := by
  induction times using counting.induct w with
  | case1 => simp [counting] at member
  | case2 t times ih =>
    rw [counting] at member
    rcases List.mem_cons.mp member with rfl | later
    · rcases List.mem_cons.mp inside with rfl | rest
      · exact List.mem_cons_self ..
      · exact List.mem_cons_of_mem _ ((List.takeWhile_sublist _).mem rest)
    · exact List.mem_cons_of_mem _ ((List.dropWhile_sublist _).mem (ih later))

/-- A list is spaced if what follows its first times is, and each of these is far enough from the
one that follows it `n` places later. -/
theorem spaced_append_iff (short : p.length ≤ n) : Spaced n w (p ++ q) ↔
    (∀ i j x y, p[i]? = some x → q[j]? = some y → p.length + j = i + n → x + w < y) ∧
      Spaced n w q := by
  constructor
  · intro spaced
    constructor
    · intro i j x y first second place
      -- A pair across the seam, then a pair inside `q`, at its place in `p ++ q`.
      refine spaced i x y (List.getElem?_append_left (List.getElem?_eq_some_iff.mp first).1 ▸
        first) ?_
      rw [← place, List.getElem?_append_right (Nat.le_add_right _ _), Nat.add_sub_cancel_left]
      exact second
    · intro i x y first second
      refine spaced (p.length + i) x y ?_ ?_
      · rw [List.getElem?_append_right (Nat.le_add_right _ _), Nat.add_sub_cancel_left]
        exact first
      · rw [Nat.add_assoc, List.getElem?_append_right (Nat.le_add_right _ _),
          Nat.add_sub_cancel_left]
        exact second
  · rintro ⟨across, spaced⟩ i x y first second
    -- `p` has at most `n` times, so the later of two times `n` apart is in `q`.
    rw [List.getElem?_append_right (by omega)] at second
    rcases Nat.lt_or_ge i p.length with inside | beyond
    · rw [List.getElem?_append_left inside] at first
      exact across i _ x y first second (by omega)
    · rw [List.getElem?_append_right beyond] at first
      refine spaced (i - p.length) x y first ?_
      rwa [show i - p.length + n = i + n - p.length by omega]

theorem flatMap_take_sublist (times : List K) :
    ((counting w times).flatMap (List.take n)).Sublist times := by
  induction times using counting.induct w with
  | case1 => simp [counting]
  | case2 t times ih =>
    rw [counting, List.flatMap_cons]
    have whole := (List.take_sublist n (t :: times.takeWhile (within w t))).append ih
    rwa [List.cons_append, List.takeWhile_append_dropWhile] at whole

variable [IsStrictOrderedRing K]

theorem lt_of_mem_dropWhile (sorted : times.Pairwise (· ≤ ·)) {x : K}
    (member : x ∈ times.dropWhile (within w s)) : w < x - s := by
  induction times with
  | nil => cases member
  | cons t times ih =>
    by_cases near : within w s t = true
    · rw [List.dropWhile_cons_of_pos near] at member
      exact ih (List.pairwise_cons.mp sorted).2 member
    · rw [List.dropWhile_cons_of_neg near] at member
      have late := not_le.mp fun close => near (decide_eq_true close)
      rcases List.mem_cons.mp member with rfl | later
      · exact late
      · linarith [(List.pairwise_cons.mp sorted).1 x later]

theorem evenlyCounted_iff_spaced (sorted : times.Pairwise (· ≤ ·)) :
    EvenlyCounted n w times ↔ Spaced n w ((counting w times).flatMap (List.take n)) := by
  unfold EvenlyCounted
  induction times using counting.induct w with
  | case1 => simp [counting, Spaced]
  | case2 t times ih =>
    have ordered := (List.pairwise_cons.mp sorted).2
    have short : ((t :: times.takeWhile (within w t)).take n).length ≤ n :=
      List.length_take_le n _
    have further := ordered.sublist (List.dropWhile_sublist (within w t))
    have later {x : K} := lt_of_mem_dropWhile (s := t) (w := w) (x := x) ordered
    have source {x : K} (member : x ∈ times.dropWhile (within w t)) : t ≤ x :=
      (List.pairwise_cons.mp sorted).1 x ((List.dropWhile_sublist _).mem member)
    specialize ih further
    rw [counting, List.flatMap_cons, spaced_append_iff short, ← ih]
    generalize times.dropWhile (within w t) = rest at further later source ih ⊢
    cases rest with
    | nil => simp [counting]
    | cons u rest =>
      rw [counting, List.isChain_cons_cons]
      refine and_congr_left fun _ => ?_
      rw [List.flatMap_cons]
      constructor
      · intro apart i j x y first second place
        -- The times that the first window counts are compared with those of the windows after it.
        rcases Nat.lt_or_ge j ((u :: rest.takeWhile (within w u)).take n).length with
          inside | beyond
        · rw [List.getElem?_append_left inside] at second
          exact apart i j x y first second place
        · -- Two windows later everything is far enough.
          rw [List.getElem?_append_right beyond] at second
          obtain ⟨window, among, within⟩ := List.mem_flatMap.mp (List.mem_of_getElem? second)
          have late := lt_of_mem_dropWhile (List.pairwise_cons.mp further).2
            (mem_of_mem_counting among (List.mem_of_mem_take within))
          have opened := later (List.mem_cons_self ..)
          have early : x ≤ u := by
            rcases List.mem_cons.mp (List.mem_of_mem_take (List.mem_of_getElem? first)) with
              rfl | counted
            · exact source (List.mem_cons_self ..)
            · have within := of_decide_eq_true (List.all_eq_true.mp List.all_takeWhile x counted)
              linarith
          linarith
      · intro apart i j x y first second place
        refine apart i j x y first ?_ place
        rw [List.getElem?_append_left (List.getElem?_eq_some_iff.mp second).1]
        exact second

/-- What a counter lets through keeps to the bound in every closed interval exactly if successive
counting windows are apart. -/
theorem length_inClosed_admitted_le_iff (positive : 0 < n) (sorted : times.Pairwise (· ≤ ·)) :
    (∀ a, (inClosed w a (admitted n w none times)).length ≤ n) ↔ EvenlyCounted n w times := by
  rw [admitted_none positive, evenlyCounted_iff_spaced sorted]
  exact length_inClosed_le_iff (sorted.sublist (flatMap_take_sublist times))

end Windows

end Foundation
