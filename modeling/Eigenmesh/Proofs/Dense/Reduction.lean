import Mathlib.Data.List.GetD
import Mathlib.LinearAlgebra.Matrix.Determinant.Basic
import Mathlib.Tactic.Ring
import Eigenmesh.Proofs.Dense.Expansion

/-!
Elimination of columns in exact arithmetic.

Bringing a row to the top changes the sign of the determinant, and what elimination leaves of the
other rows and columns has the determinant over the pivot. If the largest entry of the first column
is zero then all are, and the determinant is zero. So the product of the pivots is the determinant,
and a system is solved unless this is zero.
-/

namespace Eigenmesh.Dense

variable {α : Type} [Scalar.Exact α] {A : Dense α} {n : ℕ}

/-! ### The pivot -/

/-- Of the first rows, one with the largest entry in the first column. -/
structure IsLargest (A : Dense α) (m : ℕ) (best : ℕ × α) : Prop where
  row : best.1 < A.rows
  entry : best.2 = |A.entry best.1 0|
  largest : ∀ i < m, |A.entry i 0| ≤ best.2

lemma isLargest_fold (rows : 0 < A.rows) (m : ℕ) (hm : m ≤ A.rows) :
    A.IsLargest m (m.fold (fun i _ (best : ℕ × α) =>
      let v := Scalar.abs (A.entry i 0)
      if best.2 < v then (i, v) else best) (0, Scalar.abs (A.entry 0 0))) := by
  induction m with
  | zero => exact ⟨rows, Scalar.abs_eq, fun i hi => absurd hi (Nat.not_lt_zero i)⟩
  | succ m ih =>
    have before := ih (Nat.le_of_succ_le hm)
    rw [Nat.fold_succ]
    simp only [Scalar.abs_eq] at before ⊢
    split
    case isTrue larger =>
      refine ⟨hm, rfl, fun i hi => ?_⟩
      rcases Nat.lt_succ_iff_lt_or_eq.1 hi with hi | rfl
      · exact (before.largest i hi).trans larger.le
      · exact le_rfl
    case isFalse no_larger =>
      refine ⟨before.row, before.entry, fun i hi => ?_⟩
      rcases Nat.lt_succ_iff_lt_or_eq.1 hi with hi | rfl
      · exact before.largest i hi
      · exact not_lt.1 no_larger

lemma isLargest_pivotRow (rows : 0 < A.rows) :
    A.IsLargest A.rows (A.pivotRow, |A.entry A.pivotRow 0|) := by
  have found := isLargest_fold rows A.rows le_rfl
  have entry : _ = |A.entry A.pivotRow 0| := found.entry
  exact ⟨found.row, rfl, fun i hi => (found.largest i hi).trans_eq entry⟩

lemma det_eq_zero_of_pivot (rows : A.rows = n + 1) (zero : A.entry A.pivotRow 0 = 0) :
    (A.leading (n + 1)).det = 0 := by
  have largest := (isLargest_pivotRow (rows ▸ Nat.succ_pos n : 0 < A.rows)).largest
  refine Matrix.det_eq_zero_of_column_eq_zero 0 fun i => ?_
  have small := largest i (i.isLt.trans_eq rows.symm)
  simp only [zero, abs_zero] at small
  exact abs_nonpos_iff.1 small

/-! ### One column -/

lemma exchanged_eq_swap {p : ℕ} (hp : p < n + 1) (i : Fin (n + 1)) :
    exchanged p i = Equiv.swap 0 ⟨p, hp⟩ i := by
  have first : (i : ℕ) = 0 ↔ i = 0 := Fin.val_eq_zero_iff
  have raised : (i : ℕ) = p ↔ i = ⟨p, hp⟩ := (Fin.ext_iff (b := ⟨p, hp⟩)).symm
  rw [Equiv.swap_apply_def, exchanged]
  simp only [first, raised]
  split
  · rfl
  · split <;> rfl

lemma entry_raise (p : ℕ) {i j : ℕ} (hi : i < A.rows) (hj : j < A.cols) :
    (A.raise p).entry i j = A.entry (exchanged p i) j := entry_ofFn _ hi hj

lemma det_raise (rows : A.rows = n + 1) (cols : A.cols = n + 1) {p : ℕ} (hp : p < n + 1) :
    ((A.raise p).leading (n + 1)).det =
      if p = 0 then (A.leading (n + 1)).det else -(A.leading (n + 1)).det := by
  have permuted : (A.raise p).leading (n + 1) =
      (A.leading (n + 1)).submatrix (Equiv.swap 0 ⟨p, hp⟩) id := by
    ext i j
    rw [leading_apply, entry_raise p (i.isLt.trans_eq rows.symm) (j.isLt.trans_eq cols.symm),
      exchanged_eq_swap hp]
    rfl
  rw [permuted, Matrix.det_permute]
  split
  case isTrue first =>
    subst first
    simp
  case isFalse later =>
    have apart : (0 : Fin (n + 1)) ≠ ⟨p, hp⟩ := fun h => later (Fin.mk.inj h).symm
    rw [Equiv.Perm.sign_swap apart]
    simp

lemma det_eq_mul_schur {F : Type} [Field F] (M : Matrix (Fin (n + 1)) (Fin (n + 1)) F)
    (pivot : M 0 0 ≠ 0) : M.det = M 0 0 * (Matrix.of fun i j : Fin n =>
      M i.succ j.succ - M 0 j.succ * (M i.succ 0 * (1 / M 0 0))).det := by
  let c : Fin (n + 1) → F := Fin.cons 0 fun i => M i.succ 0 * (1 / M 0 0)
  let R : Matrix (Fin (n + 1)) (Fin (n + 1)) F := .of fun i j => M i j - c i * M 0 j
  have reduced : M.det = R.det := by
    refine Matrix.det_eq_of_forall_row_eq_smul_add_const c 0 rfl fun i j => ?_
    have first : R 0 j = M 0 j := by simp [R, c]
    rw [first]
    exact (sub_add_cancel _ _).symm
  have cleared (i : Fin n) : R i.succ 0 = 0 := by
    change M i.succ 0 - M i.succ 0 * (1 / M 0 0) * M 0 0 = 0
    rw [mul_assoc, one_div_mul_cancel pivot, mul_one, sub_self]
  have rest : R.submatrix (Fin.succAbove 0) Fin.succ = Matrix.of fun i j : Fin n =>
      M i.succ j.succ - M 0 j.succ * (M i.succ 0 * (1 / M 0 0)) := by
    ext i j
    exact congrArg _ (mul_comm _ _)
  have corner : R 0 0 = M 0 0 := by simp [R, c]
  rw [reduced, Matrix.det_succ_column_zero, Fin.sum_univ_succ, rest, corner,
    Finset.sum_eq_zero fun i _ => by rw [cleared, mul_zero, zero_mul]]
  simp

lemma det_eq_mul_complement (rows : A.rows = n + 1) (cols : A.cols = n + 1)
    (pivot : A.entry 0 0 ≠ 0) :
    (A.leading (n + 1)).det = A.entry 0 0 * (A.complement.leading n).det := by
  have rest : A.complement.leading n = Matrix.of fun i j : Fin n =>
      A.leading (n + 1) i.succ j.succ - A.leading (n + 1) 0 j.succ *
        (A.leading (n + 1) i.succ 0 * (1 / A.leading (n + 1) 0 0)) := by
    ext i j
    rw [leading_apply, complement, entry_ofFn _ (by omega) (by omega)]
    rfl
  rw [rest]
  exact det_eq_mul_schur (A.leading (n + 1)) pivot

section Step

variable (rows : A.rows = n + 1) (cols : A.cols = n + 1)
include rows

lemma pivotRow_lt : A.pivotRow < n + 1 :=
  (isLargest_pivotRow (rows ▸ Nat.succ_pos n)).row.trans_eq rows

include cols

lemma size_complement_raise (p : ℕ) :
    (A.raise p).complement.rows = n ∧ (A.raise p).complement.cols = n := by
  constructor
  · change A.rows - 1 = n
    omega
  · change A.cols - 1 = n
    omega

lemma entry_raise_pivotRow : (A.raise A.pivotRow).entry 0 0 = A.entry A.pivotRow 0 := by
  rw [entry_raise _ (by omega) (by omega), exchanged, if_pos rfl]

/-- **A step of elimination** takes the pivot and the sign of its exchange out of the
determinant. -/
lemma det_eq_pivot_mul (nonzero : A.entry A.pivotRow 0 ≠ 0) :
    (A.leading (n + 1)).det = (if A.pivotRow = 0 then 1 else -1) *
      ((A.raise A.pivotRow).entry 0 0 * ((A.raise A.pivotRow).complement.leading n).det) := by
  have pivot : (A.raise A.pivotRow).entry 0 0 ≠ 0 := by rwa [entry_raise_pivotRow rows cols]
  rw [← det_eq_mul_complement (A := A.raise A.pivotRow) rows cols pivot,
    det_raise rows cols (pivotRow_lt rows)]
  split_ifs <;> ring

end Step

/-! ### All columns -/

lemma pivotProduct_eq_det (rows : A.rows = n) (cols : A.cols = n) (d sign : α) :
    pivotProduct n d sign A = d * sign * (A.leading n).det := by
  induction n generalizing A d sign with
  | zero => rw [Matrix.det_isEmpty, mul_one]; rfl
  | succ n ih =>
    rw [pivotProduct]
    split
    case isTrue zero =>
      have zero := Scalar.beq_zero_iff.1 zero
      have pos : 0 < A.rows := by omega
      have corner : A.entry 0 0 = 0 := by
        have small := (isLargest_pivotRow pos).largest 0 pos
        simp only [zero, abs_zero] at small
        exact abs_nonpos_iff.1 small
      have minor : (A.minor 0 0).rows = n ∧ (A.minor 0 0).cols = n := by
        constructor
        · change A.rows - 1 = n
          omega
        · change A.cols - 1 = n
          omega
      rw [ih minor.1 minor.2, det_eq_zero_of_pivot rows zero, corner, mul_zero, zero_mul, zero_mul,
        mul_zero]
    case isFalse nonzero =>
      obtain ⟨height, width⟩ := size_complement_raise rows cols A.pivotRow
      have det := det_eq_pivot_mul rows cols fun zero => nonzero (Scalar.beq_zero_iff.2 zero)
      simp only
      rw [ih height width, det]
      split_ifs <;> ring

/-! ### Systems of equations -/

lemma exchanged_exchanged (p i : ℕ) : exchanged p (exchanged p i) = i := by
  unfold exchanged
  split_ifs <;> omega

lemma foldr_sub_eq_sum (x : List α) (f : ℕ → α) (s : α) :
    x.zipIdx.foldr (fun (v, j) s => s - v * f j) s =
      s - ∑ j ∈ Finset.range x.length, f j * x.getD j 0 := by
  induction x using List.reverseRecOn generalizing s with
  | nil => simp
  | append_singleton x v ih =>
    rw [List.zipIdx_append, List.foldr_append, ih, List.length_append, List.length_singleton,
      Finset.sum_range_succ, List.getD_append_right _ _ _ _ le_rfl, Nat.sub_self]
    have earlier : ∑ j ∈ Finset.range x.length, f j * (x ++ [v]).getD j 0 =
        ∑ j ∈ Finset.range x.length, f j * x.getD j 0 :=
      Finset.sum_congr rfl fun j hj => by
        rw [List.getD_append _ _ _ _ (Finset.mem_range.1 hj)]
    rw [earlier]
    simp
    ring

lemma sum_of_complement (rows : A.rows = n + 1) (cols : A.cols = n + 1)
    (pivot : A.entry 0 0 ≠ 0) {x : List α} (length : x.length = n) {b : ℕ → α}
    (solved : ∀ i < n, ∑ j ∈ Finset.range n, A.complement.entry i j * x.getD j 0 =
      b (i + 1) - b 0 * A.multiple i) : ∀ i < n + 1,
    ∑ j ∈ Finset.range (n + 1), A.entry i j *
      ((b 0 - ∑ j ∈ Finset.range n, A.entry 0 (j + 1) * x.getD j 0) / A.entry 0 0 :: x).getD j 0 =
        b i := by
  intro i hi
  have tail : ∑ j ∈ Finset.range n, A.entry i (j + 1) *
      ((b 0 - ∑ j ∈ Finset.range n, A.entry 0 (j + 1) * x.getD j 0) / A.entry 0 0 :: x).getD
        (j + 1) 0 = ∑ j ∈ Finset.range n, A.entry i (j + 1) * x.getD j 0 := rfl
  rw [Finset.sum_range_succ', tail, List.getD_cons_zero]
  cases i with
  | zero => rw [mul_div_cancel₀ _ pivot, add_sub_cancel]
  | succ i =>
    have equation := solved i (Nat.lt_of_succ_lt_succ hi)
    have entries : ∑ j ∈ Finset.range n, A.complement.entry i j * x.getD j 0 =
        ∑ j ∈ Finset.range n, A.entry (i + 1) (j + 1) * x.getD j 0 -
          A.multiple i * ∑ j ∈ Finset.range n, A.entry 0 (j + 1) * x.getD j 0 := by
      rw [Finset.mul_sum, ← Finset.sum_sub_distrib]
      refine Finset.sum_congr rfl fun j hj => ?_
      have hj := Finset.mem_range.1 hj
      rw [complement, entry_ofFn _ (by omega) (by omega)]
      ring
    have contained : A.entry (i + 1) 0 = A.multiple i * A.entry 0 0 := by
      rw [multiple, mul_assoc, one_div_mul_cancel pivot, mul_one]
    rw [entries] at equation
    rw [contained, mul_assoc, mul_div_cancel₀ _ pivot, eq_add_of_sub_eq equation]
    ring

/-- **Elimination solves every system** whose determinant is not zero. -/
lemma eliminate?_eq_some (rows : A.rows = n) (cols : A.cols = n)
    (regular : (A.leading n).det ≠ 0) (b : Array α) :
    ∃ x, A.eliminate? n b = some x ∧ x.length = n ∧
      ∀ i < n, ∑ j ∈ Finset.range n, A.entry i j * x.getD j 0 = b.getD i 0 := by
  induction n generalizing A b with
  | zero => exact ⟨[], rfl, rfl, fun i hi => absurd hi (Nat.not_lt_zero i)⟩
  | succ n ih =>
    have hp : A.pivotRow < n + 1 := pivotRow_lt rows
    have nonzero : A.entry A.pivotRow 0 ≠ 0 := fun zero =>
      regular (det_eq_zero_of_pivot rows zero)
    let B := A.raise A.pivotRow
    let right (i : ℕ) : α := b.getD (exchanged A.pivotRow i) 0
    have pivot : B.entry 0 0 ≠ 0 := by rwa [entry_raise_pivotRow rows cols]
    have complement : (B.complement.leading n).det ≠ 0 := fun zero => regular (by
      rw [det_eq_pivot_mul rows cols nonzero, zero, mul_zero, mul_zero])
    obtain ⟨height, width⟩ := size_complement_raise rows cols A.pivotRow
    obtain ⟨x, found, length, solved⟩ := ih height width complement
      (Array.ofFn fun i : Fin n => right (i + 1) - right 0 * B.multiple i)
    have all := sum_of_complement (A := B) (b := right) rows cols pivot length fun i hi => by
      rw [solved i hi]
      simp [hi]
    refine ⟨(right 0 - ∑ j ∈ Finset.range n, B.entry 0 (j + 1) * x.getD j 0) / B.entry 0 0 :: x,
      ?_, by rw [List.length_cons, length], fun i hi => ?_⟩
    · rw [eliminate?]
      rw [if_neg fun zero => nonzero (Scalar.beq_zero_iff.1 zero)]
      have rest := foldr_sub_eq_sum x (fun j => B.entry 0 (j + 1)) (right 0)
      rw [length] at rest
      rw [← rest]
      exact congrArg (Option.bind · _) found
    · have inside : exchanged A.pivotRow i < n + 1 := by
        unfold exchanged
        split_ifs <;> omega
      have row := all _ inside
      simp only [right, exchanged_exchanged] at row
      rw [← row]
      refine Finset.sum_congr rfl fun j hj => ?_
      have hj := (Finset.mem_range.1 hj).trans_eq cols.symm
      rw [entry_raise _ (inside.trans_eq rows.symm) hj, exchanged_exchanged]

end Eigenmesh.Dense
