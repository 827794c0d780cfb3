import Mathlib.LinearAlgebra.Matrix.Charpoly.Coeff
import Mathlib.Tactic.FieldSimp

/-!
The eigenvalues of a pair of matrices.

They are counted by the zeros of `det (z B - A)`. If `A - σ B` is inverted and applied to `B`, the
eigenvalues `λ` of the pair become `1 / (λ - σ)`, and none of these is zero unless `B` is singular.
-/

namespace Eigenmesh

variable {F : Type} [Field F] {n : ℕ}

/-- The eigenvalues of `A x = λ B x`, each as often as it is a zero of `det (z B - A)`. -/
structure IsSpectrum (A B : Matrix (Fin n) (Fin n) F) (values : List F) : Prop where
  length : values.length = n
  det : ∀ z, (z • B - A).det = B.det * (values.map (z - ·)).prod

lemma prod_map_const_mul (c : F) (f : F → F) (l : List F) :
    (l.map fun x => c * f x).prod = c ^ l.length * (l.map f).prod := by
  rw [List.prod_map_mul, List.map_const', List.prod_replicate]

namespace IsSpectrum

variable {A B S X : Matrix (Fin n) (Fin n) F} {values : List F} {σ : F}

lemma det_eq_prod (h : IsSpectrum X 1 values) : X.det = values.prod := by
  have at_zero := h.det 0
  have negated : (values.map fun x => 0 - x) = values.map fun x => (-1) * x := by
    simp
  rw [zero_smul, zero_sub, Matrix.det_neg, Fintype.card_fin, Matrix.det_one, one_mul, negated,
    prod_map_const_mul, h.length, List.map_id'] at at_zero
  exact mul_left_cancel₀ (pow_ne_zero n (neg_ne_zero.2 one_ne_zero)) at_zero

lemma det_smul_sub_one (h : IsSpectrum X 1 values) (w : F) :
    (w • X - 1).det = (values.map fun x => w * x - 1).prod := by
  by_cases zero : w = 0
  · subst zero
    have all : (values.map fun x => 0 * x - 1) = values.map fun _ => (-1 : F) := by simp
    rw [zero_smul, zero_sub, Matrix.det_neg, Fintype.card_fin, Matrix.det_one, mul_one, all,
      List.map_const', List.prod_replicate, h.length]
  · have scaled : w • X - 1 = (-w) • (w⁻¹ • 1 - X) := by
      rw [smul_sub, smul_smul, neg_mul, mul_inv_cancel₀ zero, neg_smul, neg_smul, one_smul]
      abel
    have terms : (values.map fun x => w * x - 1) = values.map fun x => -w * (w⁻¹ - x) := by
      refine List.map_congr_left fun x _ => ?_
      field_simp
      ring
    rw [scaled, Matrix.det_smul, Fintype.card_fin, h.det, Matrix.det_one, one_mul, terms,
      prod_map_const_mul (-w) (w⁻¹ - ·), h.length]

theorem of_inverted (shifted : S = A - σ • B) (inverted : S * X = B) (regular : B.det ≠ 0)
    (h : IsSpectrum X 1 values) :
    (∀ θ ∈ values, θ ≠ 0) ∧ IsSpectrum A B (values.map fun θ => θ⁻¹ + σ) := by
  have factors : S.det * values.prod = B.det := by
    rw [← h.det_eq_prod, ← Matrix.det_mul, inverted]
  have nonzero : ∀ θ ∈ values, θ ≠ 0 := by
    rintro θ mem rfl
    rw [List.prod_eq_zero mem, mul_zero] at factors
    exact regular factors.symm
  refine ⟨nonzero, ⟨(List.length_map _).trans h.length, fun z => ?_⟩⟩
  have product : z • B - A = S * ((z - σ) • X - 1) := by
    rw [mul_sub, mul_smul_comm, inverted, mul_one, shifted, sub_smul]
    abel
  have terms : (values.map fun θ => (z - σ) * θ - 1) =
      values.map fun θ => θ * (z - (θ⁻¹ + σ)) := by
    refine List.map_congr_left fun θ mem => ?_
    have := nonzero θ mem
    field_simp
    ring
  rw [product, Matrix.det_mul, h.det_smul_sub_one, terms, List.prod_map_mul, List.map_id', ← mul_assoc,
    factors, List.map_map]
  rfl

lemma mul_comm (h : IsSpectrum (A * B) 1 values) : IsSpectrum (B * A) 1 values := by
  refine ⟨h.length, fun z => ?_⟩
  have eval (M : Matrix (Fin n) (Fin n) F) : (z • 1 - M).det = M.charpoly.eval z := by
    rw [Matrix.eval_charpoly, Matrix.scalar_apply, Matrix.smul_one_eq_diagonal]
  rw [← h.det, eval, eval, Matrix.charpoly_mul_comm]

lemma of_eigenbasis {V : Matrix (Fin n) (Fin n) F} {d : Fin n → F}
    (orthonormal : V.transpose * V = 1) (eigen : A * V = V * Matrix.diagonal d) :
    IsSpectrum A 1 (List.ofFn d) := by
  refine ⟨List.length_ofFn, fun z => ?_⟩
  have inverse : V * V.transpose = 1 := mul_eq_one_comm.1 orthonormal
  have similar : z • 1 - A = V * Matrix.diagonal (fun i => z - d i) * V.transpose := by
    have diagonal : Matrix.diagonal (fun i => z - d i) = z • 1 - Matrix.diagonal d := by
      rw [Matrix.smul_one_eq_diagonal, Matrix.diagonal_sub]
    rw [diagonal, mul_sub, sub_mul, mul_smul_comm, mul_one, smul_mul_assoc, inverse, ← eigen,
      mul_assoc, inverse, mul_one]
  rw [similar, Matrix.det_mul, Matrix.det_mul, mul_right_comm, ← Matrix.det_mul, inverse,
    Matrix.det_one, one_mul, one_mul, Matrix.det_diagonal, List.map_ofFn, List.prod_ofFn]
  rfl

end IsSpectrum

end Eigenmesh
