import Eigenmesh.Proofs.Spectrum.Inverted

/-!
The symmetric path under shift-and-invert.

With `B = L Lᵀ` the matrix `Lᵀ (A - σ B)⁻¹ L` is symmetric, and exchanging its two factors gives
`(A - σ B)⁻¹ B`. So its eigenvalues are those of the general path, all of them real.
-/

namespace Eigenmesh.Pencil

variable {α : Type} [Scalar.Exact α] {P : Pencil α} {T : Transform α} {σ : α} {budget : ℕ}
  {pairs : List (EigenPair α)}

/-- There is a triangular factor of `B`, as there is if it is positive definite. -/
def Factored (P : Pencil α) : Prop :=
  ∀ B, P.B = some B → ∃ L : Dense α, L.IsFactor P.A.rows B.entry

/-- The factor `L` of `B`, without `B` the identity. -/
def factorMatrix (P : Pencil α) (L : Option (Dense α)) : Matrix (Fin P.A.rows) (Fin P.A.rows) α :=
  match L with
  | some L => L.leading P.A.rows
  | none => 1

/-- A triangular factor of `B`, nothing if there is no `B`. -/
def IsFactorOf (P : Pencil α) (L : Option (Dense α)) : Prop :=
  match L with
  | some L => L.IsFactor P.A.rows P.second.entry
  | none => P.B = none

lemma IsFactorOf.size {L : Option (Dense α)} (factor : P.IsFactorOf L) :
    ∀ M, L = some M → M.rows = P.A.rows ∧ M.cols = P.A.rows := by
  rintro M rfl
  have factor : M.IsFactor P.A.rows P.second.entry := factor
  exact ⟨factor.rows, factor.cols⟩

lemma factorMatrix_spec {L : Option (Dense α)} (factor : P.IsFactorOf L) :
    P.factorMatrix L * (P.factorMatrix L).transpose = P.second.leading P.A.rows ∧
      (P.factorMatrix L).det ≠ 0 := by
  cases L with
  | none =>
    have absent : P.B = none := factor
    rw [second, absent, factorMatrix, Option.getD_none, Dense.leading_identity,
      Matrix.transpose_one, mul_one, Matrix.det_one]
    exact ⟨rfl, one_ne_zero⟩
  | some M =>
    have factor : M.IsFactor P.A.rows P.second.entry := factor
    exact ⟨factor.leading_mul_transpose, factor.det_ne_zero⟩

lemma Factored.isSymm_second (factored : P.Factored) : (P.second.leading P.A.rows).IsSymm := by
  unfold second
  cases hB : P.B with
  | none =>
    rw [Option.getD_none, Dense.leading_identity]
    exact Matrix.isSymm_one
  | some B =>
    obtain ⟨L, factor⟩ := factored B hB
    rw [Option.getD_some, ← factor.leading_mul_transpose]
    exact Matrix.isSymm_mul_transpose_self _

lemma isSymm_reduced {S F X : Matrix (Fin P.A.rows) (Fin P.A.rows) α} (symmetric : S.IsSymm)
    (solved : S * X = F) : (F.transpose * X).IsSymm := by
  rw [← solved, Matrix.IsSymm, Matrix.transpose_mul, Matrix.transpose_transpose,
    Matrix.transpose_mul, symmetric.eq, mul_assoc]

lemma leading_symmetrized {C : Dense α} {n : ℕ} (rows : C.rows = n) (cols : C.cols = n)
    (symmetric : (C.leading n).IsSymm) : (symmetrized C).leading n = C.leading n := by
  have half : (0.5 : α) * 2 = 1 := by
    have value : (0.5 : α) = 5 / 10 ^ 1 := Scalar.Exact.ofScientific_eq 5 true 1
    rw [value]
    norm_num
  rw [symmetrized, Dense.leading_scale, Dense.leading_add rows cols,
    Dense.leading_transpose rows cols, symmetric.eq, ← two_smul α, smul_smul, half, one_smul]

lemma epsilon_mul_le_one {θ : α} (nonzero : θ ≠ 0) :
    Scalar.epsilon * |θ⁻¹ + σ - σ| ≤ 1 ↔ Scalar.epsilon ≤ |θ| := by
  rw [add_sub_cancel_right, abs_inv, ← div_eq_mul_inv, div_le_one₀ (abs_pos.2 nonzero)]

variable [Kernels α]

lemma exists_factorB? (diagonalizes : Kernels.Diagonalizes α) (stored : P.Stored)
    (factored : P.Factored) : ∃ L, P.factorB? = .ok L := by
  unfold factorB?
  cases hB : P.B with
  | none => exact ⟨none, rfl⟩
  | some B =>
    obtain ⟨rows, cols⟩ := stored.conform B hB
    obtain ⟨L, factor⟩ := factored B hB
    obtain ⟨M, found⟩ := diagonalizes.factor _ B L rows cols factor
    exact ⟨some M, by simp only [found]⟩

lemma isFactor_of_factorB? (diagonalizes : Kernels.Diagonalizes α) (stored : P.Stored)
    (symmetric : (P.second.leading P.A.rows).IsSymm) {M : Dense α}
    (hM : P.factorB? = .ok (some M)) : M.IsFactor P.A.rows P.second.entry := by
  unfold factorB? at hM
  split at hM
  · cases hM
  · rename_i B hB
    unfold second at symmetric ⊢
    rw [hB] at symmetric ⊢
    split at hM
    · rename_i L found
      obtain rfl := Option.some.inj (Except.ok.inj hM)
      obtain ⟨rows, cols⟩ := stored.conform B hB
      exact diagonalizes.cholesky _ B L rows cols symmetric found
    · cases hM

lemma B_of_factorB? (h : P.factorB? = .ok none) : P.B = none := by
  unfold factorB? at h
  split at h
  · assumption
  · split at h <;> cases h

lemma isFactorOf_of_factorB? (diagonalizes : Kernels.Diagonalizes α) (stored : P.Stored)
    (symmetric : (P.second.leading P.A.rows).IsSymm) {L : Option (Dense α)}
    (hL : P.factorB? = .ok L) : P.IsFactorOf L := by
  cases L with
  | none => exact B_of_factorB? hL
  | some M => exact isFactor_of_factorB? diagonalizes stored symmetric hL

lemma leading_of_reduced? (eliminates : Kernels.Eliminates α) (stored : P.Stored)
    (inverts : T.type = .shiftInvert) {L : Option (Dense α)}
    (sizes : ∀ M, L = some M → M.rows = P.A.rows ∧ M.cols = P.A.rows) {C : Dense α}
    (hC : P.reduced? T σ L = .ok C) : C.rows = P.A.rows ∧ C.cols = P.A.rows ∧
      ∃ X, (P.shifted σ).leading P.A.rows * X = P.factorMatrix L ∧
        C.leading P.A.rows = (P.factorMatrix L).transpose * X := by
  unfold reduced? at hC
  rw [inverts] at hC
  cases L with
  | none =>
    obtain ⟨rows, cols, solved⟩ := leading_of_solveShifted? eliminates stored hC rfl rfl
    rw [Dense.leading_identity] at solved
    refine ⟨rows, cols, _, solved, ?_⟩
    rw [factorMatrix, Matrix.transpose_one, one_mul]
  | some M =>
    obtain ⟨rows, cols⟩ := sizes M rfl
    simp only at hC
    cases hX : P.solveShifted? σ M with
    | error e => rw [hX] at hC; cases hC
    | ok X =>
      rw [hX] at hC
      obtain rfl := Except.ok.inj hC
      obtain ⟨height, width, solved⟩ := leading_of_solveShifted? eliminates stored hX rows cols
      refine ⟨cols, width, _, solved, ?_⟩
      rw [Dense.leading_mul cols rows width, Dense.leading_transpose rows cols]
      rfl

lemma exists_reduced?_of_inverts (eliminates : Kernels.Eliminates α) (stored : P.Stored)
    (regular : ¬P.Degenerate σ) (inverts : T.type = .shiftInvert) (L : Option (Dense α)) :
    ∃ C, P.reduced? T σ L = .ok C := by
  unfold reduced?
  rw [inverts]
  cases L with
  | none =>
    obtain ⟨solve, solved, -⟩ :=
      exists_solveShifted? eliminates stored regular (.identity P.A.rows)
    exact ⟨_, solved⟩
  | some M =>
    obtain ⟨solve, solved, -⟩ := exists_solveShifted? eliminates stored regular M
    exact ⟨_, by simp only [solved]; rfl⟩

lemma hasEigenvalues_of_reduced (diagonalizes : Kernels.Diagonalizes α) (stored : P.Stored)
    {F X : Matrix (Fin P.A.rows) (Fin P.A.rows) α}
    (factor : F * F.transpose = P.second.leading P.A.rows) (regular : F.det ≠ 0)
    (solved : (P.shifted σ).leading P.A.rows * X = F) {C vectors : Dense α} {θs : Array α}
    (rows : C.rows = P.A.rows) (cols : C.cols = P.A.rows)
    (product : C.leading P.A.rows = F.transpose * X) (symmetric : (C.leading P.A.rows).IsSymm)
    (hE : Kernels.symmetricEigen? budget C = some (θs, vectors)) :
    (∀ θ ∈ θs.toList, θ ≠ 0) ∧
      P.HasEigenvalues ((θs.toList.map fun θ => θ⁻¹ + σ).map .ofReal) := by
  obtain ⟨size, orthonormal, eigen⟩ :=
    diagonalizes.symmetricEigen _ budget C θs vectors rows cols symmetric hE
  rw [product] at eigen
  have reduced := IsSpectrum.of_real size orthonormal eigen
  have inverted : (P.shifted σ).leading P.A.rows * (X * F.transpose) =
      P.second.leading P.A.rows := by
    rw [← mul_assoc, solved, factor]
  have nonsingular : (P.second.leading P.A.rows).det ≠ 0 := by
    rw [← factor, Matrix.det_mul, Matrix.det_transpose]
    exact mul_ne_zero regular regular
  -- `Fᵀ X` is the reduced matrix and `X Fᵀ` that of the inverted pencil
  rw [map_mul] at reduced
  have exchanged := reduced.mul_comm
  rw [← map_mul] at exchanged
  obtain ⟨nonzero, eigenvalues⟩ :=
    hasEigenvalues_of_inverted stored nonsingular inverted exchanged
  refine ⟨fun θ mem zero => nonzero _ (List.mem_map_of_mem mem) (congrArg Cplx.ofReal zero), ?_⟩
  have back : (θs.toList.map fun θ => θ⁻¹ + σ).map Cplx.ofReal =
      (θs.toList.map Cplx.ofReal).map fun θ => θ⁻¹ + .ofReal σ := by
    rw [List.map_map, List.map_map]
    exact List.map_congr_left fun θ _ => Cplx.ofReal_inv_add θ σ
  rw [back]
  exact eigenvalues

lemma values_of_hermitian? (eliminates : Kernels.Eliminates α)
    (diagonalizes : Kernels.Diagonalizes α) (stored : P.Stored)
    (symmetric : (P.A.leading P.A.rows).IsSymm) (factored : P.Factored)
    (inverts : T.type = .shiftInvert) (h : P.hermitian? T σ budget = .ok (some pairs)) :
    ∃ values : List α, P.HasEigenvalues (values.map .ofReal) ∧
      pairs.map (·.value) =
        (values.filter fun v => decide (Scalar.epsilon * |v - σ| ≤ 1)).map .ofReal := by
  obtain ⟨L, C, θs, vectors, hL, hC, hE, rfl⟩ := hermitian?_eq_ok h
  have second := factored.isSymm_second
  have triangular := isFactorOf_of_factorB? diagonalizes stored second hL
  obtain ⟨factor, regular⟩ := factorMatrix_spec triangular
  obtain ⟨rows, cols, X, solved, product⟩ :=
    leading_of_reduced? eliminates stored inverts triangular.size hC
  have shifted : ((P.shifted σ).leading P.A.rows).IsSymm := by
    rw [leading_shifted stored]
    exact symmetric.sub (second.smul σ)
  have reduced := isSymm_reduced shifted solved
  rw [← product] at reduced
  have averaged := leading_symmetrized rows cols reduced
  obtain ⟨nonzero, eigenvalues⟩ := hasEigenvalues_of_reduced diagonalizes stored factor regular
    solved (C := symmetrized C) rows cols (averaged.trans product) (averaged ▸ reduced) hE
  refine ⟨_, eigenvalues, ?_⟩
  -- no `θ` is zero, so the test on `θ` is one on the distance of its eigenvalue from the shift
  have kept : ∀ θ ∈ θs.toList, decide (Scalar.epsilon * |θ⁻¹ + σ - σ| ≤ 1) =
      !decide (|θ| < Scalar.epsilon) := fun θ mem => by
    rw [← decide_not, decide_eq_decide, not_lt, epsilon_mul_le_one (nonzero θ mem)]
  rw [List.map_filterMap, List.filter_map, List.map_map]
  refine (filterMap_zipIdx (fun x => ?_) _).trans (congrArg _ (List.filter_congr kept).symm)
  obtain ⟨θ, j⟩ := x
  by_cases small : |θ| < Scalar.epsilon <;>
    simp [small, inverts, Scalar.abs_eq, back_eq, Cplx.ofReal_inv_add]

lemma exists_hermitian? (eliminates : Kernels.Eliminates α)
    (diagonalizes : Kernels.Diagonalizes α) (stored : P.Stored) (factored : P.Factored)
    (regular : ¬P.Degenerate σ) (inverts : T.type = .shiftInvert) :
    ∃ found, P.hermitian? T σ budget = .ok found := by
  obtain ⟨L, hL⟩ := exists_factorB? diagonalizes stored factored
  obtain ⟨C, hC⟩ := exists_reduced?_of_inverts eliminates stored regular inverts L
  unfold hermitian?
  rw [hL]
  simp only [bind, Except.bind]
  rw [hC]
  simp only
  split <;> exact ⟨_, rfl⟩

end Eigenmesh.Pencil
