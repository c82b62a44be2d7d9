import Mathlib.Data.List.Lex
import Mathlib.Data.Prod.Lex
import Mathlib.Data.String.Basic
import Mathlib.Order.Fin.Basic
import AgentTelepathy.Foundation.Dict
import AgentTelepathy.Foundation.Replica

/-!
# The maps of the Go, Rust and Java libraries

Each port compares the timestamp of a write with that of the entry of its key, and
then the writers. None of them compares values, so of two writes with one timestamp
and one writer the first stays. Strings are compared by their bytes in Go and in
Rust, and by their UTF-16 code units in Java; all three orders are linear, and each
port is a table of registers under the order of timestamps and writers.
-/

namespace AgentTelepathy

open Foundation

/-- An entry: a value, its timestamp and its writer. -/
structure LWWEntry (V W : Type*) where
  value : V
  timestampMs : ℤ
  writerId : W
deriving DecidableEq

/-- The order of entries: timestamp, then writer. -/
def LWWEntry.stamp {V W : Type*} (e : LWWEntry V W) : ℤ ×ₗ W := toLex (e.timestampMs, e.writerId)

namespace Ports

variable {K V W : Type*} [DecidableEq K]

section Comparing

variable [LinearOrder W]

/-- The body of `Set` in Go and of `set` in Rust: the entry stays if its timestamp is
greater, or if the timestamps are equal and its writer is not smaller. -/
def setUnlessNewer (m : Dict K (LWWEntry V W)) (key : K) (value : V) (timestampMs : ℤ)
    (writerId : W) : Dict K (LWWEntry V W) :=
  match m.get? key with
  | some existing =>
    if existing.timestampMs > timestampMs then m
    else if existing.timestampMs = timestampMs ∧ existing.writerId ≥ writerId then m
    else m.set key ⟨value, timestampMs, writerId⟩
  | none => m.set key ⟨value, timestampMs, writerId⟩

theorem stamp_lt_iff {a b : LWWEntry V W} :
    a.stamp < b.stamp ↔
      a.timestampMs < b.timestampMs ∨ a.timestampMs = b.timestampMs ∧ a.writerId < b.writerId :=
  Prod.Lex.toLex_lt_toLex

/-- The comparisons of `Set` offer the new entry to the register of its key. -/
theorem get?_setUnlessNewer (m : Dict K (LWWEntry V W)) (key : K) (e : LWWEntry V W) (other : K) :
    (setUnlessNewer m key e.value e.timestampMs e.writerId).get? other =
      if other = key then some (Register.offer LWWEntry.stamp (m.get? key) e)
      else m.get? other := by
  have stays {existing : LWWEntry V W} (present : m.get? key = some existing)
      (notAbove : ¬ existing.stamp < e.stamp) :
      m.get? other = if other = key then
        some (Register.offer LWWEntry.stamp (some existing) e) else m.get? other := by
    split_ifs with same
    · rw [same, present, Register.offer, if_neg notAbove]
    · rfl
  unfold setUnlessNewer
  cases present : m.get? key with
  | none => exact Dict.get?_set _ _ _ _
  | some existing =>
    dsimp only
    -- The three ends of the source: an older stamp, a tie that the entry wins, and a write.
    by_cases older : existing.timestampMs > e.timestampMs
    · rw [if_pos older]
      refine stays present ?_
      rw [stamp_lt_iff]
      rintro (less | ⟨same, -⟩)
      · exact absurd less (not_lt.mpr older.le)
      · exact absurd same older.ne'
    rw [if_neg older]
    by_cases tie : existing.timestampMs = e.timestampMs ∧ existing.writerId ≥ e.writerId
    · rw [if_pos tie]
      refine stays present ?_
      rw [stamp_lt_iff]
      rintro (less | ⟨-, less⟩)
      · exact absurd less tie.1.not_lt
      · exact absurd less (not_lt.mpr tie.2)
    · have above : existing.stamp < e.stamp := by
        rw [stamp_lt_iff]
        rcases lt_or_eq_of_le (not_lt.mp older) with less | same
        · exact .inl less
        · exact .inr ⟨same, not_le.mp fun above => tie ⟨same, above⟩⟩
      rw [if_neg tie, Register.offer, if_pos above]
      exact Dict.get?_set _ _ _ _

end Comparing

/-- Write items one by one, as every `merge` does with the items of the other map. -/
def mergeItems (set : Dict K (LWWEntry V W) → K → V → ℤ → W → Dict K (LWWEntry V W))
    (m : Dict K (LWWEntry V W)) (order : List (K × LWWEntry V W)) : Dict K (LWWEntry V W) :=
  order.foldl (fun m item => set m item.1 item.2.value item.2.timestampMs item.2.writerId) m

/-- A map with its operations; `Get` shows the value of an entry. -/
def replica (set : Dict K (LWWEntry V W) → K → V → ℤ → W → Dict K (LWWEntry V W))
    (merge : Dict K (LWWEntry V W) → List (K × LWWEntry V W) → Dict K (LWWEntry V W)) :
    Replica (Dict K (LWWEntry V W)) K (LWWEntry V W) where
  empty := Dict.empty
  get := Dict.get?
  set m key e := set m key e.value e.timestampMs e.writerId
  items := Dict.items
  merge := merge

theorem lawful_of_offers [LinearOrder W]
    {set : Dict K (LWWEntry V W) → K → V → ℤ → W → Dict K (LWWEntry V W)}
    (offers : ∀ m key (e : LWWEntry V W) other,
      (set m key e.value e.timestampMs e.writerId).get? other =
        if other = key then some (Register.offer LWWEntry.stamp (m.get? key) e)
        else m.get? other) : (replica set (mergeItems set)).Lawful LWWEntry.stamp where
  get_empty _ := rfl
  get_set := offers
  mem_items _ _ _ := Dict.get?_eq_some_iff.symm
  merge_eq _ _ := rfl

/-! ### Go -/

namespace Go

/-- A Go string: its bytes. -/
abbrev GoString := List (Fin 256)

/-- `Set`. -/
def set (m : Dict K (LWWEntry V GoString)) (key : K) (value : V) (timestampMs : ℤ)
    (writerID : GoString) : Dict K (LWWEntry V GoString) :=
  setUnlessNewer m key value timestampMs writerID

/-- `Merge`, for the order in which the entries of the other map are enumerated. -/
def merge (m : Dict K (LWWEntry V GoString)) (snapshot : List (K × LWWEntry V GoString)) :
    Dict K (LWWEntry V GoString) := mergeItems set m snapshot

end Go

/-! ### Rust -/

namespace Rust

/-- `set`. The order of Rust strings by bytes is their order by code points. -/
def set (m : Dict K (LWWEntry V String)) (key : K) (value : V) (timestampMs : ℤ)
    (writerId : String) : Dict K (LWWEntry V String) :=
  setUnlessNewer m key value timestampMs writerId

/-- `merge`; the map of Rust enumerates its entries by ascending keys. -/
def merge (m : Dict K (LWWEntry V String)) (entries : List (K × LWWEntry V String)) :
    Dict K (LWWEntry V String) := mergeItems set m entries

end Rust

/-! ### Java -/

namespace Java

/-- A Java string: its UTF-16 code units. -/
abbrev JavaString := List (Fin 65536)

/-- `compareTo`: the difference of the first code units that differ, and otherwise of
the lengths. -/
def compareTo : JavaString → JavaString → ℤ
  | a :: s, b :: t => if a = b then compareTo s t else (a.val : ℤ) - b.val
  | s, t => (s.length : ℤ) - t.length

/-- `ConcurrentHashMap.merge`. -/
def mapMerge (m : Dict K (LWWEntry V JavaString)) (key : K) (incoming : LWWEntry V JavaString)
    (remap : LWWEntry V JavaString → LWWEntry V JavaString → LWWEntry V JavaString) :
    Dict K (LWWEntry V JavaString) :=
  match m.get? key with
  | none => m.set key incoming
  | some existing => m.set key (remap existing incoming)

/-- `set`, whose writer is not null. -/
def set (m : Dict K (LWWEntry V JavaString)) (key : K) (value : V) (timestampMs : ℤ)
    (writerId : JavaString) : Dict K (LWWEntry V JavaString) :=
  mapMerge m key ⟨value, timestampMs, writerId⟩ fun existing incoming =>
    if incoming.timestampMs > existing.timestampMs then incoming
    else if incoming.timestampMs = existing.timestampMs ∧
        compareTo incoming.writerId existing.writerId > 0 then incoming
    else existing

/-- `merge`, for the order in which `forEach` visits the entries of the other map. -/
def merge (m : Dict K (LWWEntry V JavaString)) (entries : List (K × LWWEntry V JavaString)) :
    Dict K (LWWEntry V JavaString) := mergeItems set m entries

theorem compareTo_pos_iff (s t : JavaString) : 0 < compareTo s t ↔ t < s := by
  induction s generalizing t with
  | nil =>
    -- The empty string is greater than none.
    have shorter : compareTo [] t = 0 - (t.length : ℤ) := by cases t <;> rfl
    rw [shorter]
    exact iff_of_false (by omega) (List.not_lt_nil t)
  | cons a s ih =>
    cases t with
    | nil =>
      have longer : compareTo (a :: s) [] = (s.length + 1 : ℕ) - 0 := rfl
      rw [longer]
      exact iff_of_true (by omega) (List.nil_lt_cons a s)
    | cons b t =>
      rw [compareTo, List.cons_lt_cons_iff]
      split_ifs with same
      · subst same
        rw [ih]
        simp
      · have order : 0 < (a.val : ℤ) - b.val ↔ b < a := by
          rw [Fin.lt_def]
          omega
        rw [order]
        exact ⟨.inl, fun less => less.resolve_right fun tie => same tie.1.symm⟩

/-- The comparisons of `set` offer the new entry to the register of its key. -/
theorem get?_set (m : Dict K (LWWEntry V JavaString)) (key : K) (e : LWWEntry V JavaString)
    (other : K) :
    (set m key e.value e.timestampMs e.writerId).get? other =
      if other = key then some (Register.offer LWWEntry.stamp (m.get? key) e)
      else m.get? other := by
  have offered : ∀ existing : LWWEntry V JavaString,
      (if e.timestampMs > existing.timestampMs then e
        else if e.timestampMs = existing.timestampMs ∧
          compareTo e.writerId existing.writerId > 0 then e else existing) =
        Register.offer LWWEntry.stamp (some existing) e := by
    intro existing
    -- `compareTo` orders the writers as the stamps do.
    have above : existing.stamp < e.stamp ↔ e.timestampMs > existing.timestampMs ∨
        e.timestampMs = existing.timestampMs ∧ compareTo e.writerId existing.writerId > 0 := by
      rw [stamp_lt_iff, gt_iff_lt, gt_iff_lt, compareTo_pos_iff, eq_comm]
    rw [Register.offer]
    by_cases later : e.timestampMs > existing.timestampMs
    · rw [if_pos later, if_pos (above.mpr (.inl later))]
    · rw [if_neg later]
      refine if_congr ?_ rfl rfl
      rw [above, or_iff_right later]
  unfold set mapMerge
  cases present : m.get? key with
  | none => exact Dict.get?_set _ _ _ _
  | some existing =>
    rw [← offered existing]
    exact Dict.get?_set _ _ _ _

end Java

/-! ### Convergence -/

/-- The maps of a port that can be built from some writes, in any order and with any
repetition and grouping, agree on every key exactly when, for each key, the writes
that are greatest by timestamp and writer have one value. -/
theorem ports_converge_iff :
    (∀ writes : List (K × LWWEntry V Go.GoString),
      (replica Go.set Go.merge).Converges LWWEntry.value {w | w ∈ writes} ↔
        Replica.Unambiguous LWWEntry.stamp LWWEntry.value {w | w ∈ writes}) ∧
    (∀ writes : List (K × LWWEntry V String),
      (replica Rust.set Rust.merge).Converges LWWEntry.value {w | w ∈ writes} ↔
        Replica.Unambiguous LWWEntry.stamp LWWEntry.value {w | w ∈ writes}) ∧
    ∀ writes : List (K × LWWEntry V Java.JavaString),
      (replica Java.set Java.merge).Converges LWWEntry.value {w | w ∈ writes} ↔
        Replica.Unambiguous LWWEntry.stamp LWWEntry.value {w | w ∈ writes} := by
  refine ⟨?_, ?_, ?_⟩
  · exact Replica.converges_iff (lawful_of_offers get?_setUnlessNewer)
  · exact Replica.converges_iff (lawful_of_offers get?_setUnlessNewer)
  · exact Replica.converges_iff (lawful_of_offers Java.get?_set)

/-- Two writes of one key with one timestamp and one writer. -/
def twins {W : Type*} (writer : W) : List (String × LWWEntry ℤ W) :=
  [("x", ⟨1, 5, writer⟩), ("x", ⟨2, 5, writer⟩)]

/-- Writes of one stamp are ambiguous. -/
theorem twins_ambiguous [LinearOrder W] (writer : W) :
    ¬ Replica.Unambiguous LWWEntry.stamp LWWEntry.value {w | w ∈ twins writer} := by
  intro unambiguous
  have greatest (value : ℤ) (written : ("x", ⟨value, 5, writer⟩) ∈ twins writer) :
      Register.Holds LWWEntry.stamp (Replica.writesTo {w | w ∈ twins writer} "x")
        (some ⟨value, 5, writer⟩) := by
    refine ⟨written, ?_⟩
    intro e member
    have cases : e = ⟨1, 5, writer⟩ ∨ e = ⟨2, 5, writer⟩ := by
      simpa [twins, Replica.writesTo] using member
    rcases cases with rfl | rfl <;> exact le_rfl
  have same := unambiguous "x" _ _ (greatest 1 (by simp [twins])) (greatest 2 (by simp [twins]))
  cases same

/-- No port converges on two writes with one timestamp and one writer. -/
theorem ports_diverge :
    ¬ (replica Go.set Go.merge).Converges LWWEntry.value {w | w ∈ twins ([97] : Go.GoString)} ∧
      ¬ (replica Rust.set Rust.merge).Converges LWWEntry.value {w | w ∈ twins "a"} ∧
      ¬ (replica Java.set Java.merge).Converges LWWEntry.value
        {w | w ∈ twins ([97] : Java.JavaString)} := by
  refine ⟨?_, ?_, ?_⟩
  · intro converges
    have lawful := lawful_of_offers (K := String) (V := ℤ) (get?_setUnlessNewer (W := Go.GoString))
    exact twins_ambiguous _ ((Replica.converges_iff lawful _).mp converges)
  · intro converges
    have lawful := lawful_of_offers (K := String) (V := ℤ) (get?_setUnlessNewer (W := String))
    exact twins_ambiguous _ ((Replica.converges_iff lawful _).mp converges)
  · intro converges
    have lawful := lawful_of_offers (K := String) (V := ℤ) Java.get?_set
    exact twins_ambiguous _ ((Replica.converges_iff lawful _).mp converges)

end Ports

end AgentTelepathy
