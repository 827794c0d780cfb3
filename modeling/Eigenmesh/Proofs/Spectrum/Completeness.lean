import Eigenmesh.Proofs.Scalar.Elimination
import Eigenmesh.Proofs.Spectrum.Reduced

/-!
Which eigenvalues are found under shift-and-invert.

An eigenvalue of the inverted matrix is taken for that of an infinite one if it is below the
rounding unit. Finite eigenvalues that are far from the shift fall under this as well, and how far
that is depends on the scale of the matrices only.
-/

namespace Eigenmesh

variable {α : Type} [Scalar.Exact α]

/-! ### Rational pencils -/

namespace Rational

/-- The eigenvalue problem of a diagonal matrix. -/
def diagonalPencil (values : List ℚ) : Pencil ℚ := ⟨diagonal values, none, none⟩

/-- Shift-and-invert without a shift of its own. -/
def inverting : Transform ℚ := ⟨.shiftInvert, none⟩

variable (values : List ℚ)

lemma stored_diagonalPencil : (diagonalPencil values).Stored :=
  ⟨rfl, fun _ => nofun, fun _ _ => nofun⟩

lemma leading_diagonal : (diagonal values).leading values.length =
    Matrix.diagonal fun j : Fin values.length => values.toArray.getD j 0 := by
  ext i j
  rw [Dense.leading_apply, diagonal, Dense.entry_ofFn _ i.isLt j.isLt, Matrix.diagonal_apply]
  refine if_congr Fin.ext_iff.symm ?_ rfl
  simp

lemma isSymm_diagonal : ((diagonal values).leading values.length).IsSymm := by
  rw [leading_diagonal]
  exact Matrix.isSymm_diagonal _

lemma hasEigenvalues_diagonalPencil :
    (diagonalPencil values).HasEigenvalues (values.map .ofReal) := by
  have identity : (diagonalPencil values).second.toCplx.leading values.length = 1 := by
    change (Dense.identity values.length : Dense ℚ).toCplx.leading values.length = 1
    rw [Dense.leading_toCplx, Dense.leading_identity, map_one]
  change IsSpectrum ((diagonal values).toCplx.leading values.length)
    ((diagonalPencil values).second.toCplx.leading values.length) _
  rw [identity, Dense.leading_toCplx]
  exact .of_real (V := 1) rfl (by rw [Matrix.transpose_one, one_mul])
    (by rw [leading_diagonal, one_mul, mul_one])

lemma exists_of_length {E γ : Type} {x : Except E (Option (List γ))} {k : ℕ}
    (h : x.toOption.map (Option.map List.length) = some (some k)) :
    ∃ l, x = .ok (some l) ∧ l.length = k := by
  obtain ⟨o, rfl, found⟩ := exists_of_toOption h
  obtain ⟨l, rfl, size⟩ := Option.map_eq_some_iff.1 found
  exact ⟨l, rfl, size⟩

end Rational

/-! ### What is found and what is lost -/

namespace Pencil

variable [Kernels α] {P : Pencil α} {T : Transform α} {σ : α} {budget : ℕ}

/-- **Shift-and-invert finds the eigenvalues near to the shift.** In exact arithmetic, each path
returns the eigenvalues of a pencil with regular `B`, each as often as it is one, but for those
whose distance from the shift has a reciprocal below the rounding unit. All are returned if there is
none of these. -/
theorem values_of_shiftInvert (eliminates : Kernels.Eliminates α)
    (diagonalizes : Kernels.Diagonalizes α) (stored : P.Stored)
    (inverts : T.type = .shiftInvert) :
    ((∀ B, P.B = some B → B.Regular) → ∀ pairs, P.general? T σ budget = .ok (some pairs) →
      ∃ values, P.HasEigenvalues values ∧ pairs.map (·.value) = values.filter (near σ) ∧
        (pairs.length = P.A.rows ↔ ∀ v ∈ values, near σ v)) ∧
    (¬P.Degenerate σ → (P.A.leading P.A.rows).IsSymm → P.Factored →
      ∃ found, P.hermitian? T σ budget = .ok found ∧ ∀ pairs ∈ found, ∃ values : List α,
        P.HasEigenvalues (values.map .ofReal) ∧
        pairs.map (·.value) =
          (values.filter fun v => decide (Scalar.epsilon * |v - σ| ≤ 1)).map .ofReal ∧
        (pairs.length = P.A.rows ↔ ∀ v ∈ values, Scalar.epsilon * |v - σ| ≤ 1)) := by
  refine ⟨fun regular pairs h => ?_, fun admitted symmetric factored => ?_⟩
  · obtain ⟨values, eigenvalues, found⟩ :=
      values_of_general? eliminates diagonalizes stored regular inverts h
    refine ⟨values, eigenvalues, found, ?_⟩
    rw [← List.length_map (f := (·.value)), found, ← eigenvalues.length,
      List.length_filter_eq_length_iff]
  · obtain ⟨found, h⟩ : ∃ found, P.hermitian? T σ budget = .ok found :=
      exists_hermitian? eliminates diagonalizes stored factored admitted inverts
    refine ⟨found, h, ?_⟩
    rintro pairs rfl
    obtain ⟨values, eigenvalues, found⟩ :=
      values_of_hermitian? eliminates diagonalizes stored symmetric factored inverts h
    refine ⟨values, eigenvalues, found, ?_⟩
    rw [← List.length_map (f := (·.value)), found, ← eigenvalues.length, List.length_map,
      List.length_map, List.length_filter_eq_length_iff]
    simp only [decide_eq_true_eq]

open Rational

/-- Of two eigenvalues the one near to the shift is found. -/
theorem values_of_shiftInvert_diagonal :
    letI := elimination
    let P := diagonalPencil [10 ^ 15, 10 ^ 16]
    Kernels.Eliminates ℚ ∧ Kernels.Diagonalizes ℚ ∧ P.Stored ∧ ¬P.Degenerate 0 ∧
      (P.A.leading P.A.rows).IsSymm ∧ P.Factored ∧
      (∃ pairs, P.general? inverting 0 0 = .ok (some pairs) ∧ pairs.length = 1 ∧
        ∃ values, P.HasEigenvalues values ∧ pairs.map (·.value) = values.filter (near 0) ∧
          ¬∀ v ∈ values, near 0 v) ∧
      ∃ pairs, P.hermitian? inverting 0 0 = .ok (some pairs) ∧ pairs.length = 1 ∧
        ∃ values : List ℚ, P.HasEigenvalues (values.map .ofReal) ∧
          pairs.map (·.value) =
            (values.filter fun v => decide (Scalar.epsilon * |v - 0| ≤ 1)).map .ofReal ∧
          ¬∀ v ∈ values, Scalar.epsilon * |v - 0| ≤ 1 := by
  let := elimination
  intro P
  have admitted : ¬P.Degenerate 0 := by
    unfold Degenerate
    decide +kernel
  have stored := stored_diagonalPencil [10 ^ 15, 10 ^ 16]
  have symmetric := isSymm_diagonal [10 ^ 15, 10 ^ 16]
  have factored : P.Factored := fun _ => nofun
  obtain ⟨general, hermitian⟩ :=
    @values_of_shiftInvert ℚ _ _ P inverting 0 0 eliminates diagonalizes stored rfl
  obtain ⟨pairs, found, one⟩ : ∃ pairs, P.general? inverting 0 0 = .ok (some pairs) ∧
      pairs.length = 1 := exists_of_length (by decide +kernel)
  obtain ⟨pairs', found', one'⟩ : ∃ pairs, P.hermitian? inverting 0 0 = .ok (some pairs) ∧
      pairs.length = 1 := exists_of_length (by decide +kernel)
  refine ⟨eliminates, diagonalizes, stored, admitted, symmetric, factored, ?_, ?_⟩
  · obtain ⟨values, eigenvalues, kept, all⟩ := general (fun _ => nofun) pairs found
    refine ⟨pairs, found, one, values, eigenvalues, kept, fun near => ?_⟩
    exact absurd (one.symm.trans (all.2 near)) (by decide)
  · obtain ⟨o, ho, returned⟩ := hermitian admitted symmetric factored
    obtain rfl := Except.ok.inj (ho.symm.trans found')
    obtain ⟨values, eigenvalues, kept, all⟩ := returned pairs' rfl
    refine ⟨pairs', found', one', values, eigenvalues, kept, fun near => ?_⟩
    exact absurd (one'.symm.trans (all.2 near)) (by decide)

/-- **A finite eigenvalue that is lost.** The eigenvalue of a matrix of size one is found by neither
path, though with shift zero nothing is singular. -/
theorem shiftInvert_loses_eigenvalue :
    letI := elimination
    let P := diagonalPencil [10 ^ 20]
    Kernels.Eliminates ℚ ∧ Kernels.Diagonalizes ℚ ∧ P.Stored ∧ P.B = none ∧
      (P.A.leading P.A.rows).IsSymm ∧ (P.shifted 0).Regular ∧
      P.HasEigenvalues [.ofReal (10 ^ 20)] ∧
      (∃ pairs, P.hermitian? inverting 0 0 = .ok (some pairs) ∧ pairs.length ≠ P.A.rows) ∧
      ∃ pairs, P.general? inverting 0 0 = .ok (some pairs) ∧ pairs.length ≠ P.A.rows := by
  let := elimination
  intro P
  have admitted : ¬P.Degenerate 0 := by
    unfold Pencil.Degenerate
    decide +kernel
  have stored := stored_diagonalPencil [10 ^ 20]
  have symmetric : ∃ pairs, P.hermitian? inverting 0 0 = .ok (some pairs) ∧ pairs.length = 0 :=
    exists_of_length (by decide +kernel)
  have general : ∃ pairs, P.general? inverting 0 0 = .ok (some pairs) ∧ pairs.length = 0 :=
    exists_of_length (by decide +kernel)
  obtain ⟨found, hfound, none⟩ := symmetric
  obtain ⟨found', hfound', none'⟩ := general
  exact ⟨eliminates, diagonalizes, stored, rfl, isSymm_diagonal _,
    Pencil.regular_shifted eliminates stored.square admitted,
    hasEigenvalues_diagonalPencil [10 ^ 20],
    ⟨found, hfound, by rw [none]; exact zero_ne_one⟩,
    ⟨found', hfound', by rw [none']; exact zero_ne_one⟩⟩

end Pencil

end Eigenmesh
