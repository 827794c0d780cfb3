import Mathlib.Algebra.Order.Field.Basic
import Mathlib.Algebra.Order.Group.Abs
import Mathlib.Data.List.GetD
import Eigenmesh.Mesh.Simplicial
import Eigenmesh.Proofs.Dense.Inverse

/-!
Turning cells to positive orientation.

The determinant of a simplex is that of its corners as rows behind a column of ones. So the order
of the corners matters only for its sign, and it is zero unless all corners are different.
-/

namespace Eigenmesh

variable {α : Type} [Scalar.Exact α] {points : Dense α} {cell : List ℕ}

namespace Simplex

lemma det_eq_det : det (points.selectCols cell) =
    ((edges (points.selectCols cell)).leading points.rows).det := Dense.det_eq_det rfl

lemma leading_edges (length : cell.length = points.rows + 1) (i j : Fin points.rows) :
    (edges (points.selectCols cell)).leading points.rows i j =
      points.entry i (cell.getD (j + 1) 0) - points.entry i (cell.getD 0 0) := by
  have rows : (points.selectCols cell).rows = points.rows := rfl
  rw [Dense.leading_apply, edges, rows, Dense.entry_ofFn _ i.isLt j.isLt,
    Dense.entry_selectCols _ _ i.isLt (by omega), Dense.entry_selectCols _ _ i.isLt (by omega),
    List.getD_eq_getElem _ 0 (by omega), List.getD_eq_getElem _ 0 (by omega)]

/-- The corners as rows behind a column of ones. -/
def bordered (points : Dense α) (cell : List ℕ) :
    Matrix (Fin (points.rows + 1)) (Fin (points.rows + 1)) α :=
  .of fun k => Fin.cons 1 fun r : Fin points.rows => points.entry r (cell.getD k 0)

lemma bordered_zero (k : Fin (points.rows + 1)) : bordered points cell k 0 = 1 := rfl

lemma bordered_succ (k : Fin (points.rows + 1)) (r : Fin points.rows) :
    bordered points cell k r.succ = points.entry r (cell.getD k 0) := rfl

lemma det_eq_bordered (length : cell.length = points.rows + 1) :
    det (points.selectCols cell) = (bordered points cell).det := by
  have corner : bordered points cell 0 0 = 1 := bordered_zero 0
  have edges : (Matrix.of fun i j : Fin points.rows => bordered points cell i.succ j.succ -
      bordered points cell 0 j.succ * (bordered points cell i.succ 0 *
        (1 / bordered points cell 0 0))) =
      ((edges (points.selectCols cell)).leading points.rows).transpose := by
    ext i j
    rw [Matrix.transpose_apply, leading_edges length, Matrix.of_apply]
    simp [bordered_zero, bordered_succ]
  rw [det_eq_det, Dense.det_eq_mul_schur _ (corner ▸ one_ne_zero), edges, corner, one_mul,
    Matrix.det_transpose]

lemma det_reordered {cell' : List ℕ} (length : cell.length = points.rows + 1)
    (length' : cell'.length = points.rows + 1) (σ : Equiv.Perm (Fin (points.rows + 1)))
    (reordered : ∀ k : Fin (points.rows + 1), cell'.getD k 0 = cell.getD (σ k) 0) :
    det (points.selectCols cell') =
      (Equiv.Perm.sign σ : ℤ) * det (points.selectCols cell) := by
  have rows : bordered points cell' = (bordered points cell).submatrix σ id := by
    ext k j
    simp only [bordered, Matrix.submatrix_apply, Matrix.of_apply, reordered, id]
  rw [det_eq_bordered length, det_eq_bordered length', rows, Matrix.det_permute]

lemma det_swap {a b : ℕ} {rest : List ℕ} (length : (a :: b :: rest).length = points.rows + 1) :
    det (points.selectCols (b :: a :: rest)) = -det (points.selectCols (a :: b :: rest)) := by
  have second : 1 < points.rows + 1 := by simp only [List.length_cons] at length; omega
  have apart : (0 : Fin (points.rows + 1)) ≠ ⟨1, second⟩ := fun h => zero_ne_one (Fin.mk.inj h)
  let σ : Equiv.Perm (Fin (points.rows + 1)) := Equiv.swap 0 ⟨1, second⟩
  have swapped : ∀ k : Fin (points.rows + 1),
      (b :: a :: rest).getD k 0 = (a :: b :: rest).getD (σ k) 0 := fun k => by
    rw [← Dense.exchanged_eq_swap second]
    rcases k with ⟨_ | _ | k, hk⟩ <;> rfl
  have length' : (b :: a :: rest).length = points.rows + 1 := length
  rw [det_reordered length length' σ swapped, Equiv.Perm.sign_swap apart]
  simp

lemma nodup_of_det_ne_zero (length : cell.length = points.rows + 1)
    (regular : det (points.selectCols cell) ≠ 0) : cell.Nodup := by
  rw [List.nodup_iff_injective_getElem]
  intro i j same
  by_contra apart
  rw [det_eq_bordered length] at regular
  let i' : Fin (points.rows + 1) := i.cast length
  let j' : Fin (points.rows + 1) := j.cast length
  refine regular (Matrix.det_zero_of_row_eq (i := i') (j := j') (fun h => apart ?_) ?_)
  · have same : (i' : ℕ) = j' := congrArg Fin.val h
    exact Fin.ext same
  · have corner : cell.getD i' 0 = cell.getD j' 0 := by
      simpa [i', j'] using same
    funext r
    simp only [bordered, Matrix.of_apply, corner]

omit [Scalar.Exact α] in
lemma getD_idxOf {v : ℕ} (hv : v ∈ cell) : cell.getD (cell.idxOf v) 0 = v := by
  rw [List.getD_eq_getElem _ 0 (List.idxOf_lt_length_of_mem hv)]
  exact List.getElem_idxOf _

lemma exists_reordering {cell' : List ℕ} {n : ℕ} (perm : cell'.Perm cell) (nodup : cell.Nodup)
    (length : cell.length = n) :
    ∃ σ : Equiv.Perm (Fin n), ∀ k : Fin n, cell'.getD k 0 = cell.getD (σ k) 0 := by
  have length' : cell'.length = n := perm.length_eq.trans length
  have there (k : Fin n) : cell'.getD k 0 ∈ cell := by
    rw [List.getD_eq_getElem _ 0 (length' ▸ k.isLt)]
    exact perm.mem_iff.1 (List.getElem_mem _)
  let place (k : Fin n) : Fin n :=
    ⟨cell.idxOf (cell'.getD k 0), (List.idxOf_lt_length_of_mem (there k)).trans_eq length⟩
  have found (k : Fin n) : cell.getD (place k) 0 = cell'.getD k 0 := getD_idxOf (there k)
  have injective : Function.Injective place := fun k l same => by
    have equal := (found k).symm.trans ((congrArg (fun i : Fin n => cell.getD i 0) same).trans
      (found l))
    rw [List.getD_eq_getElem _ 0 (length' ▸ k.isLt), List.getD_eq_getElem _ 0 (length' ▸ l.isLt)]
      at equal
    exact Fin.ext ((perm.nodup_iff.2 nodup).getElem_inj_iff.1 equal)
  exact ⟨Equiv.ofBijective place (Finite.injective_iff_bijective.1 injective),
    fun k => (found k).symm⟩

lemma abs_det_of_perm {cell' : List ℕ} (length : cell.length = points.rows + 1)
    (regular : det (points.selectCols cell) ≠ 0) (perm : cell'.Perm cell) :
    |det (points.selectCols cell')| = |det (points.selectCols cell)| := by
  obtain ⟨σ, reordered⟩ := exists_reordering perm (nodup_of_det_ne_zero length regular) length
  rw [det_reordered length (perm.length_eq.trans length) σ reordered]
  rcases Int.units_eq_one_or (Equiv.Perm.sign σ) with even | odd
  · simp [even]
  · simp [odd]

/-- A cell whose corners span a volume. -/
structure Spans (points : Dense α) (cell : List ℕ) : Prop where
  hasCell : points.HasCell cell
  regular : det (points.selectCols cell) ≠ 0

instance : Decidable (Spans points cell) :=
  decidable_of_iff (points.HasCell cell ∧ det (points.selectCols cell) ≠ 0)
    ⟨fun h => ⟨h.1, h.2⟩, fun h => ⟨h.1, h.2⟩⟩

namespace Spans

variable (h : Spans points cell)
include h

lemma length : cell.length = points.rows + 1 := h.hasCell.1

lemma nodup : cell.Nodup := nodup_of_det_ne_zero h.length h.regular

lemma of_perm {cell' : List ℕ} (perm : cell'.Perm cell) : Spans points cell' where
  hasCell := ⟨perm.length_eq.trans h.length, fun v hv => h.hasCell.2 v (perm.mem_iff.1 hv)⟩
  regular := by
    rw [← abs_ne_zero, abs_det_of_perm h.length h.regular perm, abs_ne_zero]
    exact h.regular

end Spans

end Simplex

namespace SimplicialMesh

omit [Scalar.Exact α] in
lemma orient_perm [Scalar α] (points : Dense α) (cell : List ℕ) :
    (orient points cell).Perm cell := by
  unfold orient
  split
  · split
    · exact .swap _ _ _
    · exact .refl _
  · exact .refl _

/-- **Every cell becomes positive**, unless it has no volume. -/
lemma det_orient (pos : 1 ≤ points.rows)
    (length : cell.length = points.rows + 1) :
    Simplex.det (points.selectCols (orient points cell)) =
      |Simplex.det (points.selectCols cell)| := by
  match cell, length with
  | a :: b :: rest, length =>
    rw [orient]
    split
    case isTrue negative => rw [Simplex.det_swap length, abs_of_neg negative]
    case isFalse nonneg => rw [abs_of_nonneg (not_lt.1 nonneg)]
  | [_], length => simp at length; omega
  | [], length => simp at length

end SimplicialMesh

end Eigenmesh
