import Mathlib.LinearAlgebra.Matrix.NonsingularInverse
import Eigenmesh.Proofs.Dense.Reduction
import Eigenmesh.Proofs.Lists

/-!
Determinants and inverses in exact arithmetic.

However a determinant is computed, it is that of the matrix. The inverse is made of cofactors up to
size four, and of the solutions for the unit vectors beyond.
-/

namespace Eigenmesh.Dense

variable {α : Type} [Scalar.Exact α] {A : Dense α} {n : ℕ}

/-- **The determinant is that of the matrix**, by expansion or by pivots. -/
lemma det_eq_det (square : A.cols = A.rows) : A.det = (A.leading A.rows).det := by
  unfold det
  split
  · exact expandedDet_eq_det le_rfl square.ge
  · rw [pivotProduct_eq_det rfl square, one_mul, one_mul]

/-! ### Cofactors -/

lemma sixProducts_eq_det : A.sixProducts = (A.leading 3).det := by
  rw [Matrix.det_fin_three, sixProducts]
  simp only [leading_apply, Fin.val_zero, Fin.val_one, Fin.val_two]
  ring

lemma cofactor_eq_adjugate {minorDet : Dense α → α}
    (minors : ∀ M : Dense α, M.rows = n → M.cols = n → minorDet M = (M.leading n).det)
    (rows : A.rows = n + 1) (cols : A.cols = n + 1) (i j : Fin (n + 1)) :
    cofactor minorDet A i j = (A.leading (n + 1)).adjugate i j := by
  have minor : minorDet (A.minor j i) =
      ((A.leading (n + 1)).submatrix j.succAbove i.succAbove).det := by
    have height : (A.minor j i).rows = n := by
      change A.rows - 1 = n
      omega
    have width : (A.minor j i).cols = n := by
      change A.cols - 1 = n
      omega
    rw [minors _ height width, leading_minor rows.ge cols.ge]
  rw [cofactor, minor, Matrix.adjugate_fin_succ_eq_det_submatrix, Nat.add_comm (j : ℕ)]
  rcases Nat.even_or_odd (i + j : ℕ) with even | odd
  · simp [Nat.even_iff.1 even, even.neg_one_pow]
  · simp [Nat.odd_iff.1 odd, odd.neg_one_pow]

lemma inv_apply (i j : Fin n) :
    (A.leading n)⁻¹ i j = (A.leading n).adjugate i j / (A.leading n).det := by
  rw [Matrix.inv_def, Matrix.smul_apply, Ring.inverse_eq_inv', smul_eq_mul, div_eq_inv_mul]

/-! ### Inverses -/

/-- An inverse that is found. -/
def IsInverse (A B : Dense α) : Prop :=
  B.rows = A.rows ∧ B.cols = A.rows ∧ B.leading A.rows = (A.leading A.rows)⁻¹

lemma inverseUpTo3?_eq_some (square : A.cols = A.rows) (regular : (A.leading A.rows).det ≠ 0) :
    ∃ B, A.inverseUpTo3? = some B ∧ A.IsInverse B := by
  have nonzero : ¬(A.det == 0) = true := by
    rwa [Scalar.beq_zero_iff, det_eq_det square]
  refine ⟨ofFn A.rows A.rows fun i j => cofactor det A i j / A.det, ?_, rfl, rfl, ?_⟩
  · rw [inverseUpTo3?, if_neg nonzero]
  · rw [det_eq_det square]
    generalize hn : A.rows = n at square regular
    ext i j
    rw [leading_apply, entry_ofFn _ i.isLt j.isLt, inv_apply]
    cases n with
    | zero => exact i.elim0
    | succ n =>
      have minors (M : Dense α) (rows : M.rows = n) (cols : M.cols = n) :
          M.det = (M.leading n).det := by
        rw [det_eq_det (cols.trans rows.symm), rows]
      rw [cofactor_eq_adjugate minors hn square]

lemma inverse4?_eq_some (rows : A.rows = 4) (cols : A.cols = 4)
    (regular : (A.leading 4).det ≠ 0) : ∃ B, A.inverse4? = some B ∧ A.IsInverse B := by
  have entries (i j : Fin 4) : cofactor sixProducts A i j = (A.leading 4).adjugate i j :=
    cofactor_eq_adjugate (fun M _ _ => sixProducts_eq_det) rows cols i j
  have expanded : (sumTo 4 fun k => A.entry k 0 * cofactor sixProducts A 0 k) =
      (A.leading 4).det := by
    have corner := congrFun (congrFun (A.leading 4).adjugate_mul 0) 0
    rw [Matrix.mul_apply, Matrix.smul_apply, Matrix.one_apply_eq, smul_eq_mul, mul_one] at corner
    rw [← corner, sumTo_eq_sum, Finset.sum_range]
    refine Finset.sum_congr rfl fun k _ => ?_
    rw [← entries 0 k, mul_comm]
    rfl
  have nonzero : ¬((sumTo 4 fun k => A.entry k 0 * cofactor sixProducts A 0 k) == 0) = true := by
    rwa [Scalar.beq_zero_iff, expanded]
  refine ⟨_, if_neg nonzero, rows.symm, rows.symm, ?_⟩
  rw [rows]
  ext i j
  rw [leading_apply, entry_ofFn _ i.isLt j.isLt, inv_apply, expanded, entries, mul_one_div]

lemma exists_inverse_of_eliminate? (square : A.cols = A.rows)
    (regular : (A.leading A.rows).det ≠ 0) :
    ∃ B, ((Array.range A.rows).mapM fun j =>
      (A.eliminate? A.rows (Coords.unit A.rows j)).map List.toArray).map (ofCols A.rows) =
        some B ∧ A.IsInverse B := by
  choose x found length solved using fun j =>
    eliminate?_eq_some rfl square regular (Coords.unit A.rows j)
  have columns : (Array.range A.rows).mapM (fun j =>
      (A.eliminate? A.rows (Coords.unit A.rows j)).map List.toArray) =
        some ((Array.range A.rows).map fun j => (x j).toArray) :=
    mapM_range_eq_some_map fun j _ => by rw [found j, Option.map_some]
  refine ⟨ofCols A.rows ((Array.range A.rows).map fun j => (x j).toArray), ?_, rfl, ?_, ?_⟩
  · rw [columns, Option.map_some]
  · exact Array.size_map.trans Array.size_range
  · refine (Matrix.inv_eq_right_inv ?_).symm
    ext i j
    have entry (k : Fin A.rows) : (ofCols A.rows
        ((Array.range A.rows).map fun j => (x j).toArray)).leading A.rows k j =
          (x j).getD k 0 := by
      rw [leading_apply, ofCols, entry_ofFn _ k.isLt (by simp)]
      simp
    rw [Matrix.mul_apply, Matrix.one_apply]
    simp only [entry, leading_apply]
    rw [← Finset.sum_range fun k => A.entry i k * (x j).getD k 0, solved j i i.isLt, Coords.unit]
    simp [Fin.ext_iff]

lemma inverse?_eq_some (square : A.cols = A.rows) (regular : (A.leading A.rows).det ≠ 0) :
    ∃ B, A.inverse? = some B ∧ A.IsInverse B := by
  unfold inverse?
  simp only
  split
  · exact inverseUpTo3?_eq_some square regular
  · split
    case isTrue rows => exact inverse4?_eq_some rows (square.trans rows) (rows ▸ regular)
    case isFalse => exact exists_inverse_of_eliminate? square regular

end Eigenmesh.Dense
