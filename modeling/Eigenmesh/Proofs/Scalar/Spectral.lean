import Mathlib.Analysis.Matrix.Spectrum
import Eigenmesh.Proofs.Scalar.Elimination
import Eigenmesh.Proofs.Scalar.Real
import Eigenmesh.Proofs.Spectrum.Orthonormal

/-!
Real matrices with exact decompositions.

Over the real numbers every positive definite matrix has a Cholesky factor, and every symmetric
matrix an orthonormal basis of eigenvectors. So all decompositions that the symmetric path is built
on can be exact at once.
-/

namespace Eigenmesh.Reals

lemma exists_isEigenbasis {A : Dense ℝ} {n : ℕ} (symmetric : (A.leading n).IsSymm) :
    ∃ values vectors, A.IsEigenbasis n values vectors := by
  have hermitian : (A.leading n).IsHermitian := by
    rw [Matrix.IsHermitian, Matrix.conjTranspose_eq_transpose_of_trivial, symmetric.eq]
  let U : Matrix (Fin n) (Fin n) ℝ := hermitian.eigenvectorUnitary
  refine ⟨Array.ofFn hermitian.eigenvalues, .ofMatrix U, Array.size_ofFn, rfl, ?_, ?_⟩
  · rw [Dense.leading_ofMatrix, ← Matrix.conjTranspose_eq_transpose_of_trivial]
    exact Matrix.mem_unitaryGroup_iff'.1 hermitian.eigenvectorUnitary.2
  · rw [Dense.leading_ofMatrix]
    ext i j
    rw [Matrix.mul_diagonal, mul_comm]
    have column := congrFun (hermitian.mulVec_eigenvectorBasis j) i
    refine Eq.trans ?_ (column.trans ?_)
    · rfl
    · simp [U]

noncomputable section

open Classical in
/-- Exact elimination, whatever Cholesky factor and whatever basis of eigenvectors there is; the
other decompositions are not made. -/
@[reducible]
def spectral : Kernels ℝ where
  lu A := A.eliminated
  complexLu A := A.eliminated
  cholesky? M := if h : ∃ L : Dense ℝ, L.IsFactor M.rows M.entry then some h.choose else none
  sparseLu A := A.eliminated
  sparseCholesky? _ := none
  symmetricEigen? _ A :=
    if h : ∃ basis : Array ℝ × Dense ℝ, A.IsEigenbasis A.rows basis.1 basis.2 then some h.choose
    else none
  eigenvalues? _ _ := none
  lanczos? _ _ := none

open Classical in
lemma eliminates_spectral : @Kernels.Eliminates ℝ _ spectral :=
  @Kernels.Eliminates.of_eliminated ℝ _ _ spectral (fun _ => rfl) fun _ => rfl

lemma not_hasBadPivot {A : Dense ℝ} (regular : A.Regular) (coupled : ¬A.IsDiagonal) :
    ¬Pencil.hasBadPivot (spectral.lu A).pivots = true := by
  have pivots : (spectral.lu A).pivots = #[1] := regular.pivots_eliminated coupled
  have small : (Scalar.epsilon : ℝ) < 1 := by
    rw [epsilon_eq]
    norm_num
  have largest : Coords.amax #[(1 : ℝ)] = 1 := by
    simp [Coords.amax, Scalar.abs_eq]
  rw [pivots, Pencil.hasBadPivot, largest]
  have finite : Scalar.isFinite (1 : ℝ) = true := rfl
  simp [finite, Scalar.abs_eq, small]

lemma factorsExactly_spectral : @Kernels.FactorsExactly ℝ _ spectral := factorsExactly

lemma diagonalizes_spectral : @Kernels.DiagonalizesSymmetric ℝ _ spectral := by
  rintro n budget A values vectors rfl - - h
  obtain ⟨exists_basis, found⟩ := Option.dite_none_right_eq_some.1 h
  have chosen := exists_basis.choose_spec
  rw [Option.some.inj found] at chosen
  exact chosen

lemma exists_symmetricEigen? (budget : ℕ) {A : Dense ℝ}
    (symmetric : (A.leading A.rows).IsSymm) :
    ∃ basis, spectral.symmetricEigen? budget A = some basis := by
  obtain ⟨values, vectors, basis⟩ := exists_isEigenbasis symmetric
  have found : ∃ basis : Array ℝ × Dense ℝ, A.IsEigenbasis A.rows basis.1 basis.2 :=
    ⟨(values, vectors), basis⟩
  exact ⟨_, dif_pos found⟩

end

end Eigenmesh.Reals
