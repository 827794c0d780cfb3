import Mathlib.Algebra.Order.Field.Basic
import Eigenmesh.Assembly
import Eigenmesh.Proofs.Lists
import Eigenmesh.Proofs.Sparse.Sums

/-!
Matrices of a space as sums over its cells.

A matrix is assembled from what the cells contribute to it. The unknowns of a cell do not repeat, so
each cell has one entry at most for a pair of unknowns, and none unless it has both.
-/

namespace Eigenmesh

variable {α : Type} [Scalar.Exact α]

namespace LinearSpace

lemma cellTriplets_eq {dofs : List ℕ} {m : Dense α} {f : ℕ → ℕ → α}
    (h : ∀ a b (ha : a < dofs.length) (hb : b < dofs.length),
      m.entry a b = f dofs[a] dofs[b]) :
    cellTriplets dofs m = dofs.flatMap fun i =>
      dofs.filterMap fun j => if f i j == 0 then none else some (i, j, f i j) := by
  have entries {x y : ℕ × ℕ} (hx : x ∈ dofs.zipIdx) (hy : y ∈ dofs.zipIdx) :
      m.entry x.2 y.2 = f x.1 y.1 := by
    obtain ⟨-, ha, hi⟩ := List.mem_zipIdx hx
    obtain ⟨-, hb, hj⟩ := List.mem_zipIdx hy
    rw [hi, hj]
    simpa using h x.2 y.2 (by simpa using ha) (by simpa using hb)
  have row {x : ℕ × ℕ} (hx : x ∈ dofs.zipIdx) :
      (dofs.zipIdx.filterMap fun y =>
        if m.entry x.2 y.2 == 0 then none else some (x.1, y.1, m.entry x.2 y.2)) =
        dofs.filterMap fun j => if f x.1 j == 0 then none else some (x.1, j, f x.1 j) := by
    simpa only [List.filterMap_map, Function.id_comp] using
      congrArg (List.filterMap id) (map_zipIdx fun y hy => by rw [entries hx hy])
  rw [cellTriplets, List.flatMap_def, List.flatMap_def]
  exact congrArg _ (map_zipIdx fun x hx => row hx)

lemma sum_cellTriplets {dofs : List ℕ} (nodup : dofs.Nodup) {m : Dense α} {f : ℕ → ℕ → α}
    (h : ∀ a b (ha : a < dofs.length) (hb : b < dofs.length),
      m.entry a b = f dofs[a] dofs[b]) (v w : ℕ) :
    ((cellTriplets dofs m).map fun t => if t.1 = v ∧ t.2.1 = w then t.2.2 else 0).sum =
      if v ∈ dofs ∧ w ∈ dofs then f v w else 0 := by
  -- an entry that is left out is zero
  have entry (i j : ℕ) : (if f i j == 0 then none else some (i, j, f i j)).elim 0
      (fun t => if t.1 = v ∧ t.2.1 = w then t.2.2 else 0) =
        if j = w then if i = v then f i j else 0 else 0 := by
    by_cases zero : f i j = 0
    · simp [zero]
    · rw [if_neg (mt Scalar.beq_zero_iff.1 zero)]
      exact (if_congr and_comm rfl rfl).trans (ite_and _ _ _ _)
  have row (i : ℕ) :
      ((dofs.filterMap fun j => if f i j == 0 then none else some (i, j, f i j)).map fun t =>
        if t.1 = v ∧ t.2.1 = w then t.2.2 else 0).sum =
        if i = v then if w ∈ dofs then f i w else 0 else 0 := by
    simp only [sum_filterMap, entry]
    rw [sum_of_nodup nodup w]
    split_ifs <;> rfl
  simp only [cellTriplets_eq h, sum_flatMap, row]
  rw [sum_of_nodup nodup v, ite_and]

lemma exists_assembleMatrix {E ι : Type} {V : LinearSpace α}
    {element : Dense α → Except E (Dense α)} {l : List ι} {cell : ι → List ℕ}
    (cells : V.mesh.cells = l.map cell) {f : ι → ℕ → ℕ → α}
    (nodup : ∀ t ∈ l, (cell t).Nodup)
    (h : ∀ t ∈ l, ∃ m, element (V.mesh.cellPoints (cell t)) = .ok m ∧
      ∀ a b (ha : a < (cell t).length) (hb : b < (cell t).length),
        m.entry a b = f t (cell t)[a] (cell t)[b]) :
    ∃ K, V.assembleMatrix element = .ok K ∧ K.rows = V.dofCount ∧ K.cols = V.dofCount ∧
      ∀ v w, K.entry v w =
        (l.map fun t => if v ∈ cell t ∧ w ∈ cell t then f t v w else 0).sum := by
  obtain ⟨locals, computed, agree⟩ := exists_mapM_eq_ok h
  have cellwise : V.mesh.cells.mapM (fun c => element (V.mesh.cellPoints c)) = .ok locals := by
    rw [cells, List.mapM_map]
    exact computed
  refine ⟨V.ofCells locals, by rw [assembleMatrix, cellwise]; rfl, rfl, rfl, fun v w => ?_⟩
  obtain ⟨length, agree⟩ := List.forall₂_iff_zip.1 agree
  have contribution : ∀ x ∈ l.zip locals,
      ((cellTriplets (cell x.1) x.2).map fun t => if t.1 = v ∧ t.2.1 = w then t.2.2 else 0).sum =
        if v ∈ cell x.1 ∧ w ∈ cell x.1 then f x.1 v w else 0 := fun x hx =>
    sum_cellTriplets (nodup x.1 (List.of_mem_zip hx).1) (agree hx) v w
  have listed : (V.ofCells locals).entries.toList =
      (l.zip locals).flatMap fun x => cellTriplets (cell x.1) x.2 := by
    change (V.mesh.cells.zip locals).flatMap _ = _
    rw [cells, List.zip_map_left, List.flatMap_map]
    rfl
  rw [Triplets.entry_eq_sum, listed, sum_flatMap, List.map_congr_left contribution]
  conv_rhs => rw [← List.map_fst_zip length.le, List.map_map]
  rfl

/-! ### Place by place -/

/-- The entry of two unknowns is the sum of the entries of the cell matrices, over all cells and all
two places of the cell at which it has these unknowns. -/
def IsSum {E : Type} (V : LinearSpace α) (element : Dense α → Except E (Dense α))
    (K : Triplets α) : Prop :=
  ∃ locals, (V.mesh.cells.mapM fun c => element (V.mesh.cellPoints c)) = .ok locals ∧
    ∀ i j, K.toCsr.entry i j = ((V.mesh.cells.zip locals).map fun x =>
      ∑ a : Fin x.1.length, ∑ b : Fin x.1.length,
        if x.1[a] = i ∧ x.1[b] = j then x.2.entry a b else 0).sum

lemma sum_map_cellTriplets (dofs : List ℕ) (m : Dense α) {g : ℕ × ℕ × α → α}
    (zero : ∀ i j, g (i, j, 0) = 0) : ((cellTriplets dofs m).map g).sum =
      ∑ a : Fin dofs.length, ∑ b : Fin dofs.length, g (dofs[a], dofs[b], m.entry a b) := by
  rw [cellTriplets, sum_flatMap, sum_zipIdx_eq_sum]
  refine Finset.sum_congr rfl fun a _ => ?_
  rw [sum_filterMap, sum_zipIdx_eq_sum]
  refine Finset.sum_congr rfl fun b _ => ?_
  by_cases none : m.entry a b = 0
  · rw [none, zero]
    simp [none]
  · simp [none]

lemma sum_cellTriplets_eq_sum (dofs : List ℕ) (m : Dense α) (i j : ℕ) :
    ((cellTriplets dofs m).map fun t => if t.1 = i ∧ t.2.1 = j then t.2.2 else 0).sum =
      ∑ a : Fin dofs.length, ∑ b : Fin dofs.length,
        if dofs[a] = i ∧ dofs[b] = j then m.entry a b else 0 :=
  sum_map_cellTriplets dofs m fun _ _ => ite_self 0

lemma isSum_of_assembleMatrix {E : Type} {V : LinearSpace α}
    {element : Dense α → Except E (Dense α)} {K : Triplets α}
    (assembled : V.assembleMatrix element = .ok K) : V.IsSum element K := by
  rw [assembleMatrix] at assembled
  cases computed : V.mesh.cells.mapM fun c => element (V.mesh.cellPoints c) with
  | error e =>
    rw [computed] at assembled
    cases assembled
  | ok locals =>
    rw [computed] at assembled
    obtain rfl := Except.ok.inj assembled
    refine ⟨locals, computed, fun i j => ?_⟩
    have listed : (V.ofCells locals).entries.toList =
        (V.mesh.cells.zip locals).flatMap fun x => cellTriplets x.1 x.2 := rfl
    rw [Triplets.entry_toCsr, Triplets.entry_eq_sum, listed, sum_flatMap]
    simp only [sum_cellTriplets_eq_sum]

end LinearSpace

end Eigenmesh
