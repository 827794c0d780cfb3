import Mathlib.Tactic.Common
import Eigenmesh.Dense

/-!
Entries of dense matrices.
-/

namespace Eigenmesh.Dense

variable {α : Type}

lemma place_lt {rows cols i j : ℕ} (hi : i < rows) (hj : j < cols) :
    i * cols + j < rows * cols :=
  calc i * cols + j < (i + 1) * cols := by rw [Nat.add_mul, Nat.one_mul]; omega
    _ ≤ rows * cols := Nat.mul_le_mul_right cols hi

variable [Zero α]

lemma entry_ofFn {rows cols : ℕ} (f : ℕ → ℕ → α) {i j : ℕ} (hi : i < rows) (hj : j < cols) :
    (ofFn rows cols f).entry i j = f i j := by
  have row : (i * cols + j) / cols = i := by
    rw [Nat.mul_comm, Nat.mul_add_div (Nat.zero_lt_of_lt hj), Nat.div_eq_of_lt hj, Nat.add_zero]
  have col : (i * cols + j) % cols = j := by rw [Nat.mul_add_mod_self_right, Nat.mod_eq_of_lt hj]
  change (if j < cols then (Array.ofFn _).getD (i * cols + j) 0 else 0) = _
  rw [if_pos hj, Array.getD_eq_getD_getElem?, Array.getElem?_ofFn, dif_pos (place_lt hi hj),
    Option.getD_some, row, col]

lemma entry_selectCols (A : Dense α) (columns : List ℕ) {i c : ℕ} (hi : i < A.rows)
    (hc : c < columns.length) : (A.selectCols columns).entry i c = A.entry i columns[c] := by
  rw [selectCols, entry_ofFn _ hi (by simpa)]
  simp [hc]

lemma entry_transpose (A : Dense α) {i j : ℕ} (hi : i < A.cols) (hj : j < A.rows) :
    A.transpose.entry i j = A.entry j i := entry_ofFn _ hi hj

end Eigenmesh.Dense
