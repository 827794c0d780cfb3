import Mathlib.LinearAlgebra.Matrix.Determinant.Basic
import Eigenmesh.Dense.Determinant
import Eigenmesh.Proofs.Dense
import Eigenmesh.Proofs.Scalar.Exact

/-!
The leading part of a dense matrix, and its determinant by expansion along the first row.
-/

namespace Eigenmesh.Dense

variable {α : Type}

/-- The leading part of size `n`. -/
def leading [Zero α] (n : ℕ) (A : Dense α) : Matrix (Fin n) (Fin n) α :=
  .of fun i j => A.entry i j

@[simp] lemma leading_apply [Zero α] {n : ℕ} (A : Dense α) (i j : Fin n) :
    A.leading n i j = A.entry i j := rfl

variable [Scalar.Exact α] {A : Dense α} {n : ℕ}

lemma leading_minor (rows : n + 1 ≤ A.rows) (cols : n + 1 ≤ A.cols) (i j : Fin (n + 1)) :
    (A.minor i j).leading n = (A.leading (n + 1)).submatrix i.succAbove j.succAbove := by
  have skip (i : Fin (n + 1)) (k : Fin n) :
      (if (k : ℕ) < i then (k : ℕ) else k + 1) = i.succAbove k := by
    unfold Fin.succAbove
    split_ifs with h h' h'
    · rfl
    · exact absurd h h'
    · exact absurd h' h
    · rfl
  ext r c
  rw [leading_apply, minor, entry_ofFn _ (by omega) (by omega), skip, skip]
  rfl

lemma foldl_alternating (f : ℕ → α) (s : α) (n : ℕ) :
    (List.range n).foldl (fun s k => if k % 2 = 0 then s - f k else s + f k) s =
      s + ∑ k : Fin n, (-1) ^ (k + 1 : ℕ) * f k := by
  induction n with
  | zero => simp
  | succ n ih =>
    rw [List.range_succ, List.foldl_append, ih, Fin.sum_univ_castSucc, ← add_assoc]
    rcases Nat.even_or_odd n with even | odd
    · simp [Nat.even_iff.1 even, pow_succ, even.neg_one_pow, sub_eq_add_neg]
    · simp [Nat.odd_iff.1 odd, pow_succ, odd.neg_one_pow]

lemma expandedDet_eq_det (rows : n ≤ A.rows) (cols : n ≤ A.cols) :
    A.expandedDet n = (A.leading n).det := by
  induction n generalizing A with
  | zero => exact Matrix.det_isEmpty.symm
  | succ n ih =>
    have minor (j : Fin (n + 1)) : (A.minor 0 j).expandedDet n =
        ((A.leading (n + 1)).submatrix Fin.succ j.succAbove).det := by
      rw [ih (Nat.le_sub_one_of_lt rows) (Nat.le_sub_one_of_lt cols)]
      exact congrArg Matrix.det (leading_minor rows cols 0 j)
    rw [expandedDet,
      foldl_alternating fun k => A.entry 0 (k + 1) * (A.minor 0 (k + 1)).expandedDet n,
      Matrix.det_succ_row_zero, Fin.sum_univ_succ]
    refine congrArg₂ (· + ·) ?_ (Finset.sum_congr rfl fun k _ => ?_)
    · rw [← minor 0]
      simp
    · rw [← minor k.succ, mul_assoc]
      rfl

end Eigenmesh.Dense
