import Eigenmesh.Proofs.Spectrum.Reduced

/-!
The matrix that the general path decomposes.

Under a shift the transformed matrix `M` has `B (M + σ) = A`, under shift-and-invert it has
`(A - σ B) M = B`. With a regular matrix in front, `M x = θ x` and `A x = λ B x` are the same
equation, where `λ` belongs to `θ`.
-/

namespace Eigenmesh

/-! ### Equations of eigenvectors -/

section Equations

variable {F : Type} [Field F] {n : ℕ} {A B M S : Matrix (Fin n) (Fin n) F} {x : Fin n → F}
  {σ θ : F}

lemma mulVec_eq_mulVec_iff (regular : S.det ≠ 0) {y : Fin n → F} :
    S.mulVec x = S.mulVec y ↔ x = y := by
  have injective := Matrix.mulVec_injective_of_isUnit ((Matrix.isUnit_iff_isUnit_det S).2
    (Ne.isUnit regular))
  exact injective.eq_iff

lemma mulVec_eq_smul_iff_of_shift (regular : B.det ≠ 0) (product : B * (M + σ • 1) = A) :
    M.mulVec x = θ • x ↔ A.mulVec x = (θ + σ) • B.mulVec x := by
  have left : A.mulVec x = B.mulVec (M.mulVec x + σ • x) := by
    rw [← product, ← Matrix.mulVec_mulVec, Matrix.add_mulVec, Matrix.smul_mulVec,
      Matrix.one_mulVec]
  rw [left, ← Matrix.mulVec_smul, mulVec_eq_mulVec_iff regular, add_smul, add_left_inj]

lemma mulVec_eq_smul_iff_of_inverted (regular : S.det ≠ 0) (shifted : S = A - σ • B)
    (product : S * M = B) (nonzero : θ ≠ 0) :
    M.mulVec x = θ • x ↔ A.mulVec x = (θ⁻¹ + σ) • B.mulVec x := by
  have left : S.mulVec (M.mulVec x) = B.mulVec x := by
    rw [Matrix.mulVec_mulVec, product]
  have right : S.mulVec (θ • x) = θ • (A.mulVec x - σ • B.mulVec x) := by
    rw [Matrix.mulVec_smul, shifted, Matrix.sub_mulVec, Matrix.smul_mulVec]
  have unscaled : B.mulVec x = θ • (A.mulVec x - σ • B.mulVec x) ↔
      A.mulVec x - σ • B.mulVec x = θ⁻¹ • B.mulVec x := by
    rw [eq_inv_smul_iff₀ nonzero, eq_comm]
  rw [← mulVec_eq_mulVec_iff regular, left, right, unscaled, sub_eq_iff_eq_add, add_smul]

end Equations

variable {α : Type} [Scalar.Exact α]

namespace Pencil

variable {P : Pencil α} {T : Transform α} {σ : α}

/-- The vector of a pair fits the pencil, and `A x = λ B x`. -/
structure IsEigenpair (P : Pencil α) (p : EigenPair α) : Prop where
  size : p.vector.size = P.A.rows
  equation : P.A.toCplx.mulVec p.vector = (P.second.toCplx.mulVec p.vector).map (p.value * ·)

/-- The equation that a transformed matrix is defined by. -/
def IsTransformed (P : Pencil α) (T : Transform α) (σ : α)
    (M : Matrix (Fin P.A.rows) (Fin P.A.rows) α) : Prop :=
  match T.type with
  | .shift => P.second.leading P.A.rows * (M + σ • 1) = P.A.leading P.A.rows
  | .shiftInvert => (P.shifted σ).leading P.A.rows * M = P.second.leading P.A.rows

/-- The matrix in front of that equation is regular. -/
def Transforms (P : Pencil α) (T : Transform α) (σ : α) : Prop :=
  match T.type with
  | .shift => (P.second.leading P.A.rows).det ≠ 0
  | .shiftInvert => ((P.shifted σ).leading P.A.rows).det ≠ 0

lemma isEigenpair_iff (stored : P.Stored) {θ : Cplx α} {x : Array (Cplx α)}
    (size : x.size = P.A.rows) : P.IsEigenpair ⟨θ, x⟩ ↔
      (Cplx.ofRealHom.mapMatrix (P.A.leading P.A.rows)).mulVec (Coords.vector P.A.rows x) =
        θ • (Cplx.ofRealHom.mapMatrix (P.second.leading P.A.rows)).mulVec
          (Coords.vector P.A.rows x) := by
  obtain ⟨rows, cols⟩ := stored.rows_second
  have width : (P.second.toCplx.mulVec x).size = P.A.rows := (Dense.size_mulVec _ x).trans rows
  have product := Dense.vector_mulVec (A := P.second.toCplx) rows cols x
  have equation := Dense.mulVec_eq_map_iff (A := P.A.toCplx) (n := P.A.rows) rfl stored.square
    (x := x) width θ
  rw [product, Dense.leading_toCplx, Dense.leading_toCplx] at equation
  rw [← equation]
  exact ⟨fun pair => pair.equation, fun h => ⟨size, h⟩⟩

/-- **Eigenvectors of the transformed matrix are those of the pencil**, the complex ones too. -/
lemma IsTransformed.mulVec_eq_iff (stored : P.Stored) (regular : P.Transforms T σ) {M : Dense α}
    (rows : M.rows = P.A.rows) (cols : M.cols = P.A.rows)
    (transformed : P.IsTransformed T σ (M.leading P.A.rows)) {θ : Cplx α} {x : Array (Cplx α)}
    (size : x.size = P.A.rows) (nonzero : T.type = .shiftInvert → θ ≠ 0) :
    M.toCplx.mulVec x = x.map (θ * ·) ↔ P.IsEigenpair ⟨T.back θ σ, x⟩ := by
  have embedded {N : Matrix (Fin P.A.rows) (Fin P.A.rows) α} (h : N.det ≠ 0) :
      (Cplx.ofRealHom.mapMatrix N).det ≠ 0 := by
    rw [← RingHom.map_det]
    exact (map_ne_zero Cplx.ofRealHom).2 h
  rw [isEigenpair_iff stored size, Dense.mulVec_eq_map_iff (A := M.toCplx) rows cols size,
    Dense.leading_toCplx]
  unfold IsTransformed at transformed
  unfold Transforms at regular
  cases ht : T.type with
  | shift =>
    simp only [ht] at transformed regular
    have back : T.back θ σ = θ + .ofReal σ := by
      unfold Transform.back
      rw [ht]
      exact Cplx.shift_eq θ σ
    rw [back]
    refine mulVec_eq_smul_iff_of_shift (embedded regular) ?_
    rw [← map_one Cplx.ofRealHom.mapMatrix, ← Cplx.mapMatrix_smul, ← map_add, ← map_mul,
      transformed]
  | shiftInvert =>
    simp only [ht] at transformed regular
    rw [back_eq ht]
    refine mulVec_eq_smul_iff_of_inverted (embedded regular) (mapMatrix_shifted stored σ) ?_
      (nonzero ht)
    rw [← map_mul, transformed]

lemma leading_sub_scale_identity {Q : Dense α} {n : ℕ} (rows : Q.rows = n) (cols : Q.cols = n) :
    (Q.sub ((Dense.identity n).scale σ)).leading n + σ • 1 = Q.leading n := by
  rw [Dense.leading_sub rows cols, Dense.leading_scale, Dense.leading_identity, sub_add_cancel]

variable [Kernels α]

/-- The shifted matrix would have to be inverted and does not pass for regular. -/
def Refused (P : Pencil α) (T : Transform α) (σ : α) : Prop :=
  T.type = .shiftInvert ∧ P.Degenerate σ

lemma transforms_of_not_refused (eliminates : Kernels.Eliminates α) (stored : P.Stored)
    (regular : T.type = .shift → ∀ B, P.B = some B → B.Regular) (admitted : ¬P.Refused T σ) :
    P.Transforms T σ := by
  unfold Transforms
  cases ht : T.type with
  | shift => exact det_second_ne_zero stored (regular ht)
  | shiftInvert =>
    have shifted := regular_shifted eliminates stored.square fun h => admitted ⟨ht, h⟩
    have square : (P.shifted σ).cols = P.A.rows := stored.square
    exact (Dense.regular_iff_det rfl square).1 shifted

lemma exists_quotient? (eliminates : Kernels.Eliminates α) {B A : Dense α} {n : ℕ}
    (rows : B.rows = n) (cols : B.cols = n) (height : A.rows = n) (width : A.cols = n)
    (regular : B.Regular) :
    ∃ Q, ((Array.range n).mapM fun j => (Kernels.lu B).solve? (A.col j)).map (Dense.ofCols n) =
        some Q ∧ Q.rows = n ∧ Q.cols = n ∧ B.leading n * Q.leading n = A.leading n := by
  have solves (b : Array α) (size : b.size = n) := eliminates.lu B regular b (size.trans rows.symm)
  let solve (b : Array α) : Array α := ((Kernels.lu B).solve? b).getD b
  have column (j : ℕ) : (Kernels.lu B).solve? (A.col j) = some (solve (A.col j)) := by
    obtain ⟨x, found, -⟩ := solves (A.col j) ((Dense.size_col A j).trans height)
    simp only [solve, found, Option.getD_some]
  refine ⟨solveCols n solve A, ?_, rfl, ?_, ?_⟩
  · rw [mapM_range_eq_some_map fun j _ => column j, solveCols, width]
    rfl
  · exact Array.size_map.trans (Array.size_range.trans width)
  · refine leading_solveCols rows cols height width fun b size => ?_
    obtain ⟨x, found, solution⟩ := solves b size
    simp only [solve, found, Option.getD_some]
    exact solution

lemma exists_transformed?_of_shift (eliminates : Kernels.Eliminates α) (stored : P.Stored)
    (shifts : T.type = .shift) (regular : ∀ B, P.B = some B → B.Regular) :
    ∃ M, P.transformed? T σ = .ok M ∧ M.rows = P.A.rows ∧ M.cols = P.A.rows ∧
      P.second.leading P.A.rows * (M.leading P.A.rows + σ • 1) = P.A.leading P.A.rows := by
  unfold transformed? second
  cases hB : P.B with
  | none =>
    refine ⟨P.A.sub ((Dense.identity P.A.rows).scale σ), by simp only [shifts], rfl,
      stored.square, ?_⟩
    rw [leading_sub_scale_identity rfl stored.square, Option.getD_none, Dense.leading_identity,
      one_mul]
  | some B =>
    obtain ⟨rows, cols⟩ := stored.conform B hB
    obtain ⟨Q, found, height, width, product⟩ :=
      exists_quotient? eliminates rows cols rfl stored.square (regular B hB)
    refine ⟨Q.sub ((Dense.identity P.A.rows).scale σ), ?_, height, width, ?_⟩
    · simp only [shifts, found]
    · rw [leading_sub_scale_identity height width, Option.getD_some, product]

lemma exists_transformed? (eliminates : Kernels.Eliminates α) (stored : P.Stored)
    (regular : T.type = .shift → ∀ B, P.B = some B → B.Regular) (admitted : ¬P.Refused T σ) :
    ∃ M, P.transformed? T σ = .ok M ∧ M.rows = P.A.rows ∧ M.cols = P.A.rows ∧
      P.IsTransformed T σ (M.leading P.A.rows) := by
  unfold IsTransformed
  cases ht : T.type with
  | shift => exact exists_transformed?_of_shift eliminates stored ht (regular ht)
  | shiftInvert =>
    obtain ⟨solve, solved, -⟩ :=
      exists_solveShifted? eliminates stored (fun h => admitted ⟨ht, h⟩) P.second
    obtain ⟨rows, cols, product⟩ := leading_of_solveShifted? eliminates stored solved
      stored.rows_second.1 stored.rows_second.2
    refine ⟨_, ?_, rows, cols, product⟩
    unfold transformed?
    rw [ht]
    exact solved

end Pencil

end Eigenmesh
