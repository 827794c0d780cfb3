import Mathlib.LinearAlgebra.Matrix.Symmetric
import Eigenmesh.Proofs.Scalar.Complex
import Eigenmesh.Proofs.Spectrum.Eigenvalues
import Eigenmesh.Proofs.Spectrum.Storage

/-!
The general path under shift-and-invert.

Solving with `A - σ B` for the columns of `B` gives a matrix whose eigenvalues `θ` stand for the
eigenvalues `σ + 1 / θ` of the pencil. All of these are finite if `B` is regular, but what is
returned leaves out those with small `θ`.
-/

namespace Eigenmesh

variable {α : Type} [Scalar.Exact α]

lemma Dense.leading_toCplx (A : Dense α) (n : ℕ) :
    A.toCplx.leading n = Cplx.ofRealHom.mapMatrix (A.leading n) := by
  ext i j
  · exact congrArg Cplx.re (A.entry_map Cplx.ofReal rfl i j)
  · exact congrArg Cplx.im (A.entry_map Cplx.ofReal rfl i j)

lemma Cplx.mapMatrix_smul {n : ℕ} (c : α) (M : Matrix (Fin n) (Fin n) α) :
    Cplx.ofRealHom.mapMatrix (c • M) = Cplx.ofReal c • Cplx.ofRealHom.mapMatrix M :=
  Matrix.ext fun i j => map_mul Cplx.ofRealHom c (M i j)

/-- What the eigen decompositions return is exact, and a factor is found where there is one. -/
structure Kernels.Diagonalizes (α : Type) [Scalar.Exact α] [Kernels α] : Prop where
  factor : ∀ (n : ℕ) (A L : Dense α), A.rows = n → A.cols = n → L.IsFactor n A.entry →
    ∃ M, Kernels.cholesky? A = some M
  cholesky : ∀ (n : ℕ) (A L : Dense α), A.rows = n → A.cols = n → (A.leading n).IsSymm →
    Kernels.cholesky? A = some L → L.IsFactor n A.entry
  symmetricEigen : ∀ (n budget : ℕ) (A : Dense α) (values : Array α) (vectors : Dense α),
    A.rows = n → A.cols = n → (A.leading n).IsSymm →
    Kernels.symmetricEigen? budget A = some (values, vectors) →
    values.size = n ∧ (vectors.leading n).transpose * vectors.leading n = 1 ∧
      A.leading n * vectors.leading n =
        vectors.leading n * Matrix.diagonal fun j : Fin n => values.getD j 0
  eigenvalues : ∀ (n budget : ℕ) (A : Dense α) (values : List (Cplx α)), A.rows = n →
    A.cols = n → Kernels.eigenvalues? budget A = some values →
    IsSpectrum (A.toCplx.leading n) 1 values

lemma IsSpectrum.of_real {n : ℕ} {M V : Matrix (Fin n) (Fin n) α} {values : Array α}
    (size : values.size = n) (orthonormal : V.transpose * V = 1)
    (eigen : M * V = V * Matrix.diagonal fun j : Fin n => values.getD j 0) :
    IsSpectrum (Cplx.ofRealHom.mapMatrix M) 1 (values.toList.map .ofReal) := by
  have entries : values.toList.map Cplx.ofReal =
      List.ofFn fun j : Fin n => Cplx.ofReal (values.getD j 0) := by
    refine List.ext_getElem (by simp [size]) fun i hi _ => ?_
    have inside : i < values.size := by simpa using hi
    simp [inside]
  rw [entries]
  refine .of_eigenbasis (V := Cplx.ofRealHom.mapMatrix V) ?_ ?_
  · rw [← map_one Cplx.ofRealHom.mapMatrix, ← orthonormal, map_mul]
    rfl
  · rw [← map_mul, eigen, map_mul, RingHom.mapMatrix_apply _ (Matrix.diagonal _),
      Matrix.diagonal_map (map_zero _)]
    rfl

namespace Pencil

variable {P : Pencil α} {T : Transform α} {σ : α} {budget : ℕ} {pairs : List (EigenPair α)}

/-- The matrix `B`, without it the identity. -/
def second (P : Pencil α) : Dense α := P.B.getD (.identity P.A.rows)

/-- The eigenvalues of the pencil, each as often as it is one. -/
def HasEigenvalues (P : Pencil α) (values : List (Cplx α)) : Prop :=
  IsSpectrum (P.A.toCplx.leading P.A.rows) (P.second.toCplx.leading P.A.rows) values

lemma Stored.rows_second (stored : P.Stored) :
    P.second.rows = P.A.rows ∧ P.second.cols = P.A.rows := by
  unfold second
  cases hB : P.B with
  | none => exact ⟨rfl, rfl⟩
  | some B => exact stored.conform B hB

lemma leading_shifted (stored : P.Stored) (σ : α) : (P.shifted σ).leading P.A.rows =
    P.A.leading P.A.rows - σ • P.second.leading P.A.rows := by
  rw [shifted, Dense.leading_sub rfl stored.square, Dense.leading_scale]
  rfl

lemma mapMatrix_shifted (stored : P.Stored) (σ : α) :
    Cplx.ofRealHom.mapMatrix ((P.shifted σ).leading P.A.rows) =
      Cplx.ofRealHom.mapMatrix (P.A.leading P.A.rows) -
        Cplx.ofReal σ • Cplx.ofRealHom.mapMatrix (P.second.leading P.A.rows) := by
  rw [leading_shifted stored, map_sub, Cplx.mapMatrix_smul]

lemma leading_solveCols {S rhs : Dense α} {n : ℕ} {solve : Array α → Array α} (rows : S.rows = n)
    (cols : S.cols = n) (height : rhs.rows = n) (width : rhs.cols = n)
    (solves : ∀ b, b.size = n → S.Solves (solve b) b) :
    S.leading n * (solveCols n solve rhs).leading n = rhs.leading n := by
  ext i j
  have column : (S.leading n).mulVec (fun k => (solveCols n solve rhs).leading n k j) =
      Coords.vector n (rhs.col j) := by
    have entries : (fun k => (solveCols n solve rhs).leading n k j) =
        Coords.vector n (solve (rhs.col j)) := by
      funext k
      rw [Dense.leading_apply, solveCols, Dense.ofCols, Dense.entry_ofFn _ k.isLt (by simp [width])]
      simp [Coords.vector, width]
    rw [entries, ← Dense.vector_mulVec rows cols,
      (solves _ ((Dense.size_col rhs j).trans height)).mulVec]
  refine (congrFun column i).trans ?_
  simp [Coords.vector, Dense.col, height]

lemma det_second_ne_zero (stored : P.Stored) (regular : ∀ B, P.B = some B → B.Regular) :
    (P.second.leading P.A.rows).det ≠ 0 := by
  unfold second
  cases hB : P.B with
  | none =>
    rw [Option.getD_none, Dense.leading_identity, Matrix.det_one]
    exact one_ne_zero
  | some B =>
    obtain ⟨rows, cols⟩ := stored.conform B hB
    exact (Dense.regular_iff_det rows cols).1 (regular B hB)

lemma hasEigenvalues_of_inverted (stored : P.Stored)
    (regular : (P.second.leading P.A.rows).det ≠ 0) {X : Matrix (Fin P.A.rows) (Fin P.A.rows) α}
    (inverted : (P.shifted σ).leading P.A.rows * X = P.second.leading P.A.rows)
    {θs : List (Cplx α)} (h : IsSpectrum (Cplx.ofRealHom.mapMatrix X) 1 θs) :
    (∀ θ ∈ θs, θ ≠ 0) ∧ P.HasEigenvalues (θs.map fun θ => θ⁻¹ + .ofReal σ) := by
  unfold HasEigenvalues
  rw [Dense.leading_toCplx, Dense.leading_toCplx]
  refine h.of_inverted (mapMatrix_shifted stored σ) (by rw [← map_mul, inverted]) ?_
  rw [← RingHom.map_det]
  exact (map_ne_zero Cplx.ofRealHom).2 regular

/-- Whether an eigenvalue is so near to the shift that it is not taken for infinite. -/
def near (σ : α) (z : Cplx α) : Bool := !decide ((z.shift (-σ)).inv.norm < Scalar.epsilon)

lemma back_eq (inverts : T.type = .shiftInvert) (θ : Cplx α) (σ : α) :
    T.back θ σ = θ⁻¹ + .ofReal σ := by
  unfold Transform.back
  rw [inverts]
  exact Cplx.shift_eq _ _

lemma near_back (θ : Cplx α) (σ : α) :
    near σ (θ⁻¹ + .ofReal σ) = !decide (θ.norm < Scalar.epsilon) := by
  have shifted : (θ⁻¹ + .ofReal σ).shift (-σ) = θ⁻¹ := by
    rw [Cplx.shift_eq, Cplx.ofReal_neg, add_neg_cancel_right]
  have inverse : (θ⁻¹).inv = θ := inv_inv θ
  rw [near, shifted, inverse]

variable [Kernels α]

lemma leading_of_solveShifted? (eliminates : Kernels.Eliminates α) (stored : P.Stored)
    {rhs X : Dense α} (h : P.solveShifted? σ rhs = .ok X) (rows : rhs.rows = P.A.rows)
    (cols : rhs.cols = P.A.rows) : X.rows = P.A.rows ∧ X.cols = P.A.rows ∧
      (P.shifted σ).leading P.A.rows * X.leading P.A.rows = rhs.leading P.A.rows := by
  have regular : ¬P.Degenerate σ := fun degenerate => by
    rw [solveShifted?_of_degenerate degenerate] at h
    cases h
  obtain ⟨solve, solved, solves⟩ := exists_solveShifted? eliminates stored regular rhs
  obtain rfl := Except.ok.inj (solved.symm.trans h)
  refine ⟨rfl, ?_, leading_solveCols rfl stored.square rows cols solves⟩
  exact Array.size_map.trans (Array.size_range.trans cols)

lemma values_of_general? (eliminates : Kernels.Eliminates α) (diagonalizes : Kernels.Diagonalizes α)
    (stored : P.Stored) (regular : ∀ B, P.B = some B → B.Regular)
    (inverts : T.type = .shiftInvert) (h : P.general? T σ budget = .ok (some pairs)) :
    ∃ values, P.HasEigenvalues values ∧ pairs.map (·.value) = values.filter (near σ) := by
  obtain ⟨M, θs, hM, hE, all⟩ := general?_eq_ok h
  have solved : P.solveShifted? σ P.second = .ok M := by
    unfold transformed? at hM
    rw [inverts] at hM
    exact hM
  obtain ⟨rows, cols, product⟩ := leading_of_solveShifted? eliminates stored solved
    stored.rows_second.1 stored.rows_second.2
  have spectrum := diagonalizes.eigenvalues _ budget M θs rows cols hE
  rw [Dense.leading_toCplx] at spectrum
  obtain ⟨nonzero, eigenvalues⟩ := hasEigenvalues_of_inverted stored
    (det_second_ne_zero stored regular) product spectrum
  refine ⟨_, eigenvalues, ?_⟩
  have kept : (fun θ : Cplx α => !decide (T.type = .shiftInvert ∧ θ.norm < Scalar.epsilon)) =
      near σ ∘ fun θ => θ⁻¹ + .ofReal σ := by
    funext θ
    rw [Function.comp_apply, near_back]
    simp only [inverts, true_and]
  rw [List.filter_map, ← kept, ← List.forall₂_eq_eq_eq, List.forall₂_map_left_iff,
    List.forall₂_map_right_iff]
  refine List.Forall₂.flip (all.imp fun θ p found => ?_)
  obtain ⟨x, -, rfl⟩ := found
  exact back_eq inverts θ σ

end Pencil

end Eigenmesh
