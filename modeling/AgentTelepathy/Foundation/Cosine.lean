import Mathlib.Analysis.InnerProductSpace.PiL2
import Mathlib.Geometry.Euclidean.Angle.Unoriented.Basic

/-!
# Lists of reals as vectors

A list of `n` reals is a vector of Euclidean space. Its sum of squares is the square
of its norm, the sum of products with another one is the inner product, and the
quotient of that by both norms is the cosine of the angle between them.
-/

namespace Foundation

namespace Cosine

variable {n : ℕ} {u v : List ℝ}

/-- The vector with the entries of a list. -/
noncomputable def toEuclidean (n : ℕ) (v : List ℝ) : EuclideanSpace ℝ (Fin n) :=
  WithLp.toLp _ fun i => v.getD i 0

@[simp] theorem toEuclidean_apply (n : ℕ) (v : List ℝ) (i : Fin n) :
    toEuclidean n v i = v.getD i 0 := rfl

/-- A sum over the entries of a list. -/
theorem sum_getD {M : Type*} [AddCommMonoid M] (f : ℝ → M) (length : v.length = n) :
    ∑ i : Fin n, f (v.getD i 0) = (v.map f).sum := by
  subst length
  rw [← List.sum_ofFn]
  congr 1
  apply List.ext_getElem
  · simp
  · intro i h h'
    simp

/-- The sum over pairs of entries. -/
theorem sum_getD_mul (lengthU : u.length = n) (lengthV : v.length = n) :
    ∑ i : Fin n, u.getD i 0 * v.getD i 0 = (List.zipWith (· * ·) u v).sum := by
  rw [← List.sum_ofFn]
  congr 1
  apply List.ext_getElem
  · simp [lengthU, lengthV]
  · intro i h h'
    simp [lengthU, lengthV]

theorem norm_toEuclidean (length : v.length = n) :
    ‖toEuclidean n v‖ = Real.sqrt (v.map fun x => x * x).sum := by
  rw [EuclideanSpace.norm_eq, ← sum_getD _ length]
  congr 1
  apply Finset.sum_congr rfl
  intro i _
  rw [Real.norm_eq_abs, sq_abs, toEuclidean_apply, sq]

theorem inner_toEuclidean (lengthU : u.length = n) (lengthV : v.length = n) :
    inner ℝ (toEuclidean n u) (toEuclidean n v) = (List.zipWith (· * ·) u v).sum := by
  rw [← sum_getD_mul lengthU lengthV, PiLp.inner_apply]
  apply Finset.sum_congr rfl
  intro i _
  simp [mul_comm]

/-- The cosine of the angle between two vectors. -/
noncomputable def cosine (n : ℕ) (u v : List ℝ) : ℝ :=
  Real.cos (InnerProductGeometry.angle (toEuclidean n u) (toEuclidean n v))

theorem cosine_mem_Icc (n : ℕ) (u v : List ℝ) : cosine n u v ∈ Set.Icc (-1) 1 :=
  Real.cos_mem_Icc _

/-- Products over norms give the cosine. -/
theorem cosine_eq (lengthU : u.length = n) (lengthV : v.length = n) :
    cosine n u v = (List.zipWith (· * ·) u v).sum /
      (Real.sqrt (u.map fun x => x * x).sum * Real.sqrt (v.map fun x => x * x).sum) := by
  rw [cosine, InnerProductGeometry.cos_angle, inner_toEuclidean lengthU lengthV,
    norm_toEuclidean lengthU, norm_toEuclidean lengthV]

/-- Only the zero vector has norm zero. -/
theorem sqrt_eq_zero_iff (v : List ℝ) :
    Real.sqrt (v.map fun x => x * x).sum = 0 ↔ ∀ x ∈ v, x = 0 := by
  rw [← norm_toEuclidean (rfl : v.length = v.length), norm_eq_zero]
  constructor
  · intro zero x member
    obtain ⟨i, bound, rfl⟩ := List.getElem_of_mem member
    have entry := congrArg (fun w => w.ofLp ⟨i, bound⟩) zero
    simpa [toEuclidean, bound] using entry
  · intro zero
    ext i
    have entry := zero _ (List.getElem_mem i.isLt)
    simp [toEuclidean, entry]

end Cosine

end Foundation
