import Mathlib.Analysis.Real.Sqrt
import Eigenmesh.Proofs.Dense.Cholesky
import Eigenmesh.Proofs.Scalar.Rational
import Eigenmesh.Proofs.Smoother.Correction

/-!
Real numbers as scalars.

Positive real numbers have roots, so over them there is a Cholesky factorization that is exact.
-/

namespace Eigenmesh.Reals

noncomputable section

open Classical in
instance : Scalar ℝ where
  zero := 0
  one := 1
  beq a b := decide (a = b)
  lt := (· < ·)
  le := (· ≤ ·)
  decidableLT := inferInstance
  decidableLE := inferInstance
  abs x := |x|
  sqrt := Real.sqrt
  hypot x y := Real.sqrt (x * x + y * y)
  isFinite _ := true
  ranks a b := decide (a ≤ b)
  text _ := ""
  read? _ := none

instance : Scalar.Exact ℝ :=
  { (inferInstance : Field ℝ), (inferInstance : LinearOrder ℝ),
    (inferInstance : IsStrictOrderedRing ℝ), (inferInstance : Scalar ℝ) with
    beq_iff_eq := fun _ _ => decide_eq_true_iff
    abs_eq_abs := fun _ => rfl
    ofScientific_eq := fun m s e => by
      have read : ((OfScientific.ofScientific m s e : ℚ) : ℝ) = OfScientific.ofScientific m s e :=
        Rat.cast_ofScientific m s e
      rw [← read, Rational.ofScientific_eq]
      split <;> push_cast <;> rfl }

instance : Scalar.Rooted ℝ where
  sqrt_nonneg := Real.sqrt_nonneg
  mul_self_sqrt _ := Real.mul_self_sqrt
  hypot_eq _ _ := rfl
  ranks_iff _ _ := decide_eq_true_iff

open Classical in
/-- Whatever factor there is; the other decompositions are not made. -/
instance : Kernels ℝ where
  lu _ := ⟨#[0], fun _ => none⟩
  complexLu _ := ⟨#[0], fun _ => none⟩
  cholesky? M := if h : ∃ L : Dense ℝ, L.IsFactor M.rows M.entry then some h.choose else none
  sparseLu _ := .deficient
  sparseCholesky? _ := none
  symmetricEigen? _ _ := none
  eigenvalues? _ _ := none
  lanczos? _ _ := none

lemma factorsExactly : Kernels.FactorsExactly ℝ := by
  intro M _ positive
  have roots (x : ℝ) (hx : 0 < x) : ∃ y, 0 < y ∧ y * y = x :=
    ⟨Real.sqrt x, Real.sqrt_pos.2 hx, Real.mul_self_sqrt hx.le⟩
  have h := positive.exists_isFactor roots
  exact ⟨h.choose, dif_pos h, h.choose_spec⟩

end

end Eigenmesh.Reals
