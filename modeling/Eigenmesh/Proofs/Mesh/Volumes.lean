import Mathlib.Data.List.NodupEquivFin
import Mathlib.LinearAlgebra.Matrix.Block
import Eigenmesh.Element
import Eigenmesh.Proofs.Mesh.Boundary
import Eigenmesh.Proofs.Mesh.Orientation

/-!
The volume of the cells of a grid.

With the axes in the order in which a cell goes along them, its edges are the rows of a triangular
matrix, so their determinant is, up to sign, a power of the length of a box.
-/

namespace Eigenmesh

lemma Element.factorial_eq (n : ℕ) : factorial n = n.factorial := by
  induction n with
  | zero => rfl
  | succ n ih => rw [factorial, ih, Nat.factorial_succ]

namespace Grid

variable {α : Type} [Scalar.Exact α] {g : Grid} {t : List ℕ × List ℕ} {cell : List ℕ}

lemma getD_walk {cart axes : List ℕ} {k : ℕ} (hk : k ≤ axes.length) :
    (walk cart axes).getD k [] = advance cart (axes.take k) := by
  induction axes generalizing cart k with
  | nil =>
    obtain rfl := Nat.le_zero.1 hk
    rfl
  | cons a axes ih =>
    cases k with
    | zero => rfl
    | succ k =>
      rw [walk_cons, List.getD_cons_succ, ih (Nat.le_of_succ_le_succ hk), List.take_succ_cons,
        ← advance_cons]

namespace IsPath

variable (h : g.IsPath t)
include h

lemma getD_cellAt {k : ℕ} (hk : k ≤ g.dim) :
    (g.cellAt t).getD k 0 = g.vertexNumber (advance t.1 (t.2.take k)) := by
  have inside : k < (walk t.1 t.2).length := by
    rw [length_walk, h.length_axes]
    omega
  rw [cellAt, ← getD_walk (h.length_axes.symm ▸ hk), List.getD_eq_getElem _ 0 (by simpa),
    List.getElem_map, List.getD_eq_getElem _ [] inside]

lemma isPoint_advance_take (k : ℕ) : g.IsPoint (advance t.1 (t.2.take k)) :=
  h.isPoint_of_mem_walk (mem_walk.2 ⟨_, List.take_prefix k t.2, rfl⟩)

lemma leading_edges (i j : Fin g.dim) :
    (Simplex.edges ((g.points : Dense α).selectCols (g.cellAt t))).leading g.dim i j =
      (g.boxes : α)⁻¹ * if t.2.idxOf (i : ℕ) ≤ j then 1 else 0 := by
  have hi : (i : ℕ) ∈ t.2 := h.mem_axes.2 i.isLt
  have start : (advance t.1 (t.2.take 0)).getD i 0 = t.1.getD i 0 := rfl
  have moved : (advance t.1 (t.2.take (j + 1))).getD i 0 =
      t.1.getD i 0 + if t.2.idxOf (i : ℕ) ≤ j then 1 else 0 := by
    rw [getD_advance (h.length.symm ▸ i.isLt), ((List.take_sublist _ _).nodup h.nodup_axes).count,
      if_congr ((List.mem_take_iff_idxOf_lt hi).trans Nat.lt_succ_iff) rfl rfl]
  have length : (g.cellAt t).length = (g.points : Dense α).rows + 1 := h.length_cellAt
  have edge := Simplex.leading_edges length i j
  change (Simplex.edges _).leading g.dim i j = _ at edge
  rw [edge, h.getD_cellAt (Nat.succ_le_of_lt j.isLt), h.getD_cellAt (Nat.zero_le _),
    entry_points (h.isPoint_advance_take _) i.isLt, entry_points (h.isPoint_advance_take _) i.isLt,
    moved, start]
  push_cast
  ring

lemma abs_det_cellAt : |Simplex.det ((g.points : Dense α).selectCols (g.cellAt t))| =
    (g.boxes : α)⁻¹ ^ g.dim := by
  have inside (i : Fin g.dim) : t.2.idxOf (i : ℕ) < g.dim :=
    (List.idxOf_lt_length_of_mem (h.mem_axes.2 i.isLt)).trans_eq h.length_axes
  let place : Fin g.dim ≃ Fin g.dim := Equiv.ofBijective (fun i => ⟨t.2.idxOf (i : ℕ), inside i⟩)
    (Finite.injective_iff_bijective.1 fun i k eq =>
      Fin.ext ((List.idxOf_inj (h.mem_axes.2 i.isLt)).1 (congrArg Fin.val eq)))
  let U : Matrix (Fin g.dim) (Fin g.dim) α := .of fun i j => if i ≤ j then 1 else 0
  have triangular : U.IsUpperTriangular := fun i j hij => if_neg (not_le.2 hij)
  have upper : U.det = 1 := by
    rw [Matrix.det_of_isUpperTriangular triangular]
    exact Finset.prod_eq_one fun i _ => if_pos le_rfl
  have edges : (Simplex.edges ((g.points : Dense α).selectCols (g.cellAt t))).leading g.dim =
      (g.boxes : α)⁻¹ • U.submatrix place (Equiv.refl _) := by
    ext i j
    rw [h.leading_edges]
    rfl
  have det : Simplex.det ((g.points : Dense α).selectCols (g.cellAt t)) =
      ((g.boxes : α)⁻¹ • U.submatrix place (Equiv.refl _)).det := by
    rw [← edges]
    exact Simplex.det_eq_det
  rw [det, Matrix.det_smul, Fintype.card_fin, abs_mul, Matrix.abs_det_submatrix_equiv_equiv, upper,
    abs_one, mul_one, abs_of_nonneg (by positivity)]

end IsPath

/-! ### The cells of the mesh -/

variable (α) in
/-- The cell that a path has in the mesh. -/
def meshCell (g : Grid) (t : List ℕ × List ℕ) : List ℕ :=
  SimplicialMesh.orient (g.points : Dense α) (g.cellAt t)

lemma meshCell_perm : (g.meshCell α t).Perm (g.cellAt t) := SimplicialMesh.orient_perm _ _

lemma cells_eq_map_paths :
    (g.simplicial : SimplicialMesh α).cells = g.paths.map (g.meshCell α) := by
  change g.kuhnCells.map (SimplicialMesh.orient g.points) = _
  rw [kuhnCells_eq_map_paths, List.map_map]
  rfl

lemma mem_cells_simplicial : cell ∈ (g.simplicial : SimplicialMesh α).cells ↔
    ∃ t, g.IsPath t ∧ g.meshCell α t = cell := by
  simp only [cells_eq_map_paths, List.mem_map, mem_paths]

lemma det_cell (hcell : cell ∈ (g.simplicial : SimplicialMesh α).cells) :
    Simplex.det ((g.simplicial : SimplicialMesh α).cellPoints cell) =
      (g.boxes : α)⁻¹ ^ g.dim := by
  obtain ⟨t, ht, rfl⟩ := mem_cells_simplicial.1 hcell
  rw [← ht.abs_det_cellAt]
  exact SimplicialMesh.det_orient g.dim_pos ht.length_cellAt

lemma volume_cell (hcell : cell ∈ (g.simplicial : SimplicialMesh α).cells) :
    Element.volume ((g.simplicial : SimplicialMesh α).cellPoints cell) =
      1 / (g.dim.factorial * g.boxes ^ g.dim) := by
  have rows : ((g.simplicial : SimplicialMesh α).cellPoints cell).rows = g.dim := rfl
  rw [Element.volume, det_cell hcell, Scalar.abs_eq, rows, Element.factorial_eq,
    abs_of_nonneg (by positivity), inv_pow, div_eq_mul_inv, one_div, mul_inv, mul_comm]

end Grid

end Eigenmesh
