import Mathlib.LinearAlgebra.Matrix.Determinant.Basic
import Mathlib.Tactic.NormNum
import Eigenmesh.Proofs.Scalar.Spectral

/-!
Spectral transformations and reductions lose nothing.

In exact arithmetic both paths solve the problem of the pencil: the symmetric one returns eigenpairs
whose vectors are orthonormal in `B`, and the eigenvectors of the matrix that the general one
decomposes are those of the pencil, each with the eigenvalue that belongs to it.
-/

namespace Eigenmesh

namespace Pencil

variable {α : Type} [Scalar.Exact α] [Kernels α] {P : Pencil α} {T : Transform α} {σ : α}
  {L : Option (Dense α)} {budget : ℕ}

lemma reduced?_of_refused (refused : P.Refused T σ) :
    P.reduced? T σ L = .error (.singularShift σ) := by
  obtain ⟨inverts, degenerate⟩ := refused
  unfold reduced?
  rw [inverts]
  cases L with
  | none => exact solveShifted?_of_degenerate degenerate
  | some M =>
    simp only
    rw [solveShifted?_of_degenerate degenerate]
    rfl

lemma transformed?_of_refused (refused : P.Refused T σ) :
    P.transformed? T σ = .error (.singularShift σ) := by
  obtain ⟨inverts, degenerate⟩ := refused
  unfold transformed?
  rw [inverts]
  exact solveShifted?_of_degenerate degenerate

omit [Kernels α] in
lemma recoveredPairs_spec (stored : P.Stored) (factor : P.IsFactorOf L) {C vectors : Dense α}
    {θs : Array α} (reduced : P.IsReduced T σ (P.factorMatrix L) (C.leading P.A.rows))
    (basis : C.IsEigenbasis P.A.rows θs vectors) :
    (∀ p ∈ recoveredPairs T σ L θs vectors, P.IsEigenpair p) ∧
      P.Orthonormal ((recoveredPairs T σ L θs vectors).map (·.vector)) ∧
      (T.type = .shift → (recoveredPairs T σ L θs vectors).length = P.A.rows) := by
  refine ⟨isEigenpair_recoveredPairs stored factor basis.rows basis.size reduced basis.eigen,
    orthonormal_recoveredPairs stored factor basis.rows basis.size basis.orthonormal,
    fun shifts => ?_⟩
  rw [recoveredPairs_eq, keptNumbers_of_shift shifts, List.length_map, List.length_range,
    basis.size]

/-- **Transformations and reductions are exact.** For a symmetric pencil with positive definite `B`
the reduced matrix is symmetric as it is built, and the pairs returned satisfy `A x = λ B x` with
vectors that are orthonormal in `B`, as many as there are rows under a shift. For any pencil, with
regular `B` under a shift, the eigenvectors of the transformed matrix are those of the pencil. A
shift that is refused leaves neither of the two matrices. -/
theorem transformations_exact (eliminates : Kernels.Eliminates α)
    (factors : Kernels.FactorsExactly α) (diagonalizes : Kernels.DiagonalizesSymmetric α)
    (stored : P.Stored) :
    ((P.A.leading P.A.rows).IsSymm → (∀ B, P.B = some B → PosDef P.A.rows B.entry) →
      ¬P.Refused T σ →
      ∃ L C, P.factorB? = .ok L ∧ P.reduced? T σ L = .ok C ∧ C.rows = P.A.rows ∧
        C.cols = P.A.rows ∧ (C.leading P.A.rows).IsSymm ∧
        ∃ found, P.hermitian? T σ budget = .ok found ∧
          (found = none ↔ Kernels.symmetricEigen? budget (symmetrized C) = none) ∧
          ∀ pairs ∈ found, (∀ p ∈ pairs, P.IsEigenpair p) ∧
            P.Orthonormal (pairs.map (·.vector)) ∧
            (T.type = .shift → pairs.length = P.A.rows)) ∧
    ((T.type = .shift → ∀ B, P.B = some B → B.Regular) → ¬P.Refused T σ →
      ∃ M, P.transformed? T σ = .ok M ∧ M.rows = P.A.rows ∧ M.cols = P.A.rows ∧
        ∀ (θ : Cplx α) (x : Array (Cplx α)), x.size = P.A.rows →
          (T.type = .shiftInvert → θ ≠ 0) →
          (M.toCplx.mulVec x = x.map (θ * ·) ↔ P.IsEigenpair ⟨T.back θ σ, x⟩)) ∧
    (P.Refused T σ → P.transformed? T σ = .error (.singularShift σ) ∧
      ∀ L, P.reduced? T σ L = .error (.singularShift σ)) := by
  refine ⟨fun symmetric positive admitted => ?_, fun regular admitted => ?_, fun refused =>
    ⟨transformed?_of_refused refused, fun L => reduced?_of_refused refused⟩⟩
  · obtain ⟨L, hL, factor⟩ := exists_isFactorOf factors stored positive
    obtain ⟨C, hC, rows, cols, reduced⟩ :=
      exists_reduced? eliminates stored symmetric factor admitted
    have symmetric' := reduced.isSymm stored symmetric factor
    have averaged := leading_symmetrized rows cols symmetric'
    refine ⟨L, C, hL, hC, rows, cols, symmetric', _, hermitian?_eq hL hC, Option.map_eq_none_iff,
      ?_⟩
    rintro pairs found
    obtain ⟨⟨θs, vectors⟩, decomposed, rfl⟩ := Option.map_eq_some_iff.1 found
    have basis := diagonalizes _ budget (symmetrized C) θs vectors rows cols
      (averaged ▸ symmetric') decomposed
    exact recoveredPairs_spec stored factor (averaged ▸ reduced) basis
  · obtain ⟨M, hM, rows, cols, transformed⟩ :=
      exists_transformed? eliminates stored regular admitted
    have transforms := transforms_of_not_refused eliminates stored regular admitted
    exact ⟨M, hM, rows, cols, fun θ x size nonzero =>
      transformed.mulVec_eq_iff stored transforms rows cols size nonzero⟩

end Pencil

/-! ### A pencil of real matrices -/

namespace Reals

open Pencil

/-- A pencil of size two in which neither matrix is diagonal. -/
noncomputable def coupled : Pencil ℝ :=
  ⟨.ofMatrix !![(2 : ℕ), 1; 1, (3 : ℕ)], some (.ofMatrix !![(2 : ℕ), 1; 1, 1]), none⟩

lemma leading_coupled : coupled.A.leading 2 = !![2, 1; 1, 3] := by
  rw [coupled, Dense.leading_ofMatrix, Nat.cast_ofNat, Nat.cast_ofNat]

lemma B_coupled : coupled.B = some (.ofMatrix !![2, 1; 1, 1]) := by
  rw [coupled, Nat.cast_ofNat]

lemma stored_coupled : coupled.Stored :=
  ⟨rfl, fun _ h => Option.some.inj h ▸ ⟨rfl, rfl⟩, fun _ _ => nofun⟩

lemma isSymm_coupled : (coupled.A.leading 2).IsSymm := by
  rw [leading_coupled]
  ext i j
  fin_cases i <;> fin_cases j <;> rfl

lemma posDef_coupled : PosDef 2 (Dense.ofMatrix (β := ℝ) !![2, 1; 1, 1]).entry := by
  have entries (i j : Fin 2) :
      (Dense.ofMatrix (β := ℝ) !![2, 1; 1, 1]).entry i j = !![2, 1; 1, 1] i j :=
    congrFun (congrFun (Dense.leading_ofMatrix _) i) j
  have corner := entries 0 0
  have beside := entries 0 1
  have below := entries 1 0
  have last := entries 1 1
  simp only [Fin.val_zero, Fin.val_one] at corner beside below last
  refine ⟨fun i hi j hj => ?_, fun x nonzero => ?_⟩
  · interval_cases i <;> interval_cases j <;> simp [beside, below]
  · have form : ∑ i ∈ Finset.range 2, ∑ j ∈ Finset.range 2,
        x i * (Dense.ofMatrix (β := ℝ) !![2, 1; 1, 1]).entry i j * x j =
          x 0 * x 0 + (x 0 + x 1) * (x 0 + x 1) := by
      simp only [Finset.sum_range_succ, Finset.sum_range_zero, corner, beside, below, last]
      simp
      ring
    rw [form]
    by_cases zero : x 0 = 0
    · have other : x 1 ≠ 0 := by
        obtain ⟨i, hi, away⟩ := nonzero
        interval_cases i
        · exact absurd zero away
        · exact away
      rw [zero, zero_mul, zero_add, zero_add]
      exact mul_self_pos.2 other
    · exact add_pos_of_pos_of_nonneg (mul_self_pos.2 zero) (mul_self_nonneg _)

lemma regular_coupled : (Dense.ofMatrix (β := ℝ) !![2, 1; 1, 1]).Regular := by
  rw [Dense.regular_iff_det (n := 2) rfl rfl, Dense.leading_ofMatrix, Matrix.det_fin_two_of]
  norm_num

lemma not_degenerate_coupled : letI := spectral; ¬coupled.Degenerate 3 := by
  have shifted : (coupled.shifted 3).leading 2 = !![-4, -2; -2, 0] := by
    have second : coupled.second.leading 2 = !![2, 1; 1, 1] := by
      rw [Pencil.second, B_coupled]
      exact Dense.leading_ofMatrix _
    have parts : (coupled.shifted 3).leading 2 =
        coupled.A.leading 2 - (3 : ℝ) • coupled.second.leading 2 :=
      leading_shifted stored_coupled 3
    rw [parts, leading_coupled, second]
    ext i j
    fin_cases i <;> fin_cases j <;> norm_num [Matrix.sub_apply, Matrix.smul_apply]
  refine not_hasBadPivot ?_ ?_
  · rw [Dense.regular_iff_det (n := 2) rfl rfl, shifted, Matrix.det_fin_two_of]
    norm_num
  · rintro ⟨-, beside⟩
    have zero : (coupled.shifted 3).leading 2 0 1 = 0 :=
      beside 0 Nat.two_pos 1 Nat.one_lt_two zero_ne_one
    rw [shifted] at zero
    norm_num at zero

lemma symmetricEigen?_symmetrized {C : Dense ℝ} {n : ℕ} (rows : C.rows = n) (cols : C.cols = n)
    (symmetric : (C.leading n).IsSymm) :
    spectral.symmetricEigen? 0 (symmetrized C) ≠ none := by
  have averaged := leading_symmetrized rows cols symmetric
  obtain rfl := rows
  obtain ⟨basis, found⟩ := exists_symmetricEigen? 0 (A := symmetrized C) (averaged ▸ symmetric)
  rw [found]
  exact Option.some_ne_none basis

/-- Shift-and-invert at three, and a shift by three. -/
noncomputable def inverting : Transform ℝ := ⟨.shiftInvert, some (3 : ℕ)⟩

noncomputable def shifting : Transform ℝ := ⟨.shift, some (3 : ℕ)⟩

/-- With either transformation this pencil is solved. -/
theorem transformations_exact_coupled :
    letI := spectral
    Kernels.Eliminates ℝ ∧ Kernels.FactorsExactly ℝ ∧ Kernels.DiagonalizesSymmetric ℝ ∧
      coupled.Stored ∧ (coupled.A.leading 2).IsSymm ∧
      (∀ B, coupled.B = some B → PosDef 2 B.entry) ∧ (∀ B, coupled.B = some B → B.Regular) ∧
      ¬coupled.Refused shifting 3 ∧ ¬coupled.Refused inverting 3 ∧
      (∃ pairs, coupled.hermitian? shifting 3 0 = .ok (some pairs) ∧ pairs.length = 2 ∧
        (∀ p ∈ pairs, coupled.IsEigenpair p) ∧ coupled.Orthonormal (pairs.map (·.vector))) ∧
      (∃ pairs, coupled.hermitian? inverting 3 0 = .ok (some pairs) ∧
        (∀ p ∈ pairs, coupled.IsEigenpair p) ∧ coupled.Orthonormal (pairs.map (·.vector))) ∧
      ∃ M, coupled.transformed? inverting 3 = .ok M ∧
        ∀ (θ : Cplx ℝ) (x : Array (Cplx ℝ)), x.size = 2 → θ ≠ 0 →
          (M.toCplx.mulVec x = x.map (θ * ·) ↔ coupled.IsEigenpair ⟨inverting.back θ 3, x⟩) := by
  let := spectral
  have positive : ∀ B, coupled.B = some B → PosDef 2 B.entry := fun B h =>
    Option.some.inj (B_coupled.symm.trans h) ▸ posDef_coupled
  have regular : ∀ B, coupled.B = some B → B.Regular := fun B h =>
    Option.some.inj (B_coupled.symm.trans h) ▸ regular_coupled
  have shifts : ¬coupled.Refused shifting 3 := fun refused => nomatch refused.1
  have inverts : ¬coupled.Refused inverting 3 := fun refused => not_degenerate_coupled refused.2
  refine ⟨eliminates_spectral, factorsExactly_spectral, diagonalizes_spectral, stored_coupled,
    isSymm_coupled, positive, regular, shifts, inverts, ?_, ?_, ?_⟩
  · obtain ⟨L, C, -, -, rows, cols, symmetric, found, returned, none_iff, all⟩ :=
      (@transformations_exact ℝ _ _ coupled shifting 3 0 eliminates_spectral
        factorsExactly_spectral diagonalizes_spectral stored_coupled).1 isSymm_coupled positive
          shifts
    cases found with
    | none => exact absurd (none_iff.1 rfl) (symmetricEigen?_symmetrized rows cols symmetric)
    | some pairs =>
      obtain ⟨eigen, orthonormal, length⟩ := all pairs rfl
      exact ⟨pairs, returned, length rfl, eigen, orthonormal⟩
  · obtain ⟨L, C, -, -, rows, cols, symmetric, found, returned, none_iff, all⟩ :=
      (@transformations_exact ℝ _ _ coupled inverting 3 0 eliminates_spectral
        factorsExactly_spectral diagonalizes_spectral stored_coupled).1 isSymm_coupled positive
          inverts
    cases found with
    | none => exact absurd (none_iff.1 rfl) (symmetricEigen?_symmetrized rows cols symmetric)
    | some pairs =>
      obtain ⟨eigen, orthonormal, -⟩ := all pairs rfl
      exact ⟨pairs, returned, eigen, orthonormal⟩
  · obtain ⟨M, hM, -, -, same⟩ :=
      (@transformations_exact ℝ _ _ coupled inverting 3 0 eliminates_spectral
        factorsExactly_spectral diagonalizes_spectral stored_coupled).2.1 (fun _ => regular) inverts
    exact ⟨M, hM, fun θ x size nonzero => same θ x size fun _ => nonzero⟩

end Reals

end Eigenmesh
