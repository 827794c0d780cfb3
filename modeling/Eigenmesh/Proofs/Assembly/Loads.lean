import Eigenmesh.Proofs.Assembly.Rearranged
import Eigenmesh.Proofs.Mesh.Partition
import Eigenmesh.Proofs.Sparse.Operations

/-!
The load vector and the mass matrix.

A vector is assembled by adding up at each unknown what the cells have there, and so is every row of
a product with an assembled matrix. The load vector of a cell is the product of its mass matrix with
the values of the source at its corners, and these are values of the interpolant. So nothing else
than the order of additions tells the load vector from the product of the mass matrix with the
interpolant, also where a cell has an unknown twice or no volume.
-/

namespace Eigenmesh

variable {α : Type} [Scalar.Exact α]

lemma toList_sum_eq (x : Array α) : x.toList.sum = ∑ i ∈ Finset.range x.size, x.getD i 0 := by
  rw [← Array.length_toList, Finset.sum_range, ← Fin.sum_univ_getElem]
  exact Finset.sum_congr rfl fun i _ => by simp

namespace Element

variable {corners : Dense α}

lemma massEntry_eq (a b : ℕ) : massEntry corners a b = (1 + if a = b then 1 else 0) *
    (volume corners / Nat.cast ((corners.rows + 1) * (corners.rows + 2))) := by
  have two := Scalar.Exact.ofScientific_eq (α := α) 20 true 1
  rw [massEntry]
  split
  · rw [two]
    norm_num
  · rw [add_zero]

lemma sum_massEntry (simplex : IsSimplex corners) :
    ∑ a ∈ Finset.range corners.cols, ∑ b ∈ Finset.range corners.cols, massEntry corners a b =
      volume corners := by
  have width : corners.cols = corners.rows + 1 := simplex
  have row {a : ℕ} (ha : a ∈ Finset.range corners.cols) :
      ∑ b ∈ Finset.range corners.cols, massEntry corners a b = (corners.rows + 2) *
        (volume corners / Nat.cast ((corners.rows + 1) * (corners.rows + 2))) := by
    simp only [massEntry_eq, ← Finset.sum_mul, Finset.sum_add_distrib, Finset.sum_ite_eq, if_pos ha]
    rw [Finset.sum_const, Finset.card_range, nsmul_eq_mul, mul_one, width]
    push_cast
    ring
  rw [Finset.sum_congr rfl fun a ha => row ha, Finset.sum_const, Finset.card_range, nsmul_eq_mul,
    width]
  push_cast
  field_simp

end Element

namespace LinearSpace

variable {V : LinearSpace α} {f : Array α → α} {s : Array α} {es : List (ℕ × α)}

/-! ### Vectors as sums over the cells -/

@[simp] lemma size_accumulate (s : Array α) (e : ℕ × α) : (accumulate s e).size = s.size := by
  unfold accumulate
  split
  · rfl
  · exact Array.size_modify

lemma size_foldl_accumulate (es : List (ℕ × α)) (s : Array α) :
    (es.foldl accumulate s).size = s.size := by
  induction es generalizing s with
  | nil => rfl
  | cons e es ih => rw [List.foldl_cons, ih, size_accumulate]

lemma getD_accumulate (s : Array α) (e : ℕ × α) {i : ℕ} (hi : i < s.size) :
    (accumulate s e).getD i 0 = s.getD i 0 + if e.1 = i then e.2 else 0 := by
  rw [Array.getD_eq_getD_getElem?, Array.getD_eq_getD_getElem?, getElem?_accumulate,
    Array.getElem?_eq_getElem hi, Option.map_some, Option.getD_some, Option.getD_some]
  split
  · rfl
  · rw [add_zero]

lemma getD_foldl_accumulate (es : List (ℕ × α)) {s : Array α} {i : ℕ} (hi : i < s.size) :
    (es.foldl accumulate s).getD i 0 =
      s.getD i 0 + (es.map fun e => if e.1 = i then e.2 else 0).sum := by
  induction es generalizing s with
  | nil => simp
  | cons e es ih =>
    rw [List.foldl_cons, ih ((size_accumulate s e).symm ▸ hi), getD_accumulate s e hi,
      List.map_cons, List.sum_cons, add_assoc]

lemma sum_zip_eq_sum {dofs : List ℕ} {x : Array α} (size : x.size = dofs.length) (i : ℕ) :
    ((dofs.zip x.toList).map fun e => if e.1 = i then e.2 else 0).sum =
      ∑ a : Fin dofs.length, if dofs.get a = i then x.getD a 0 else 0 := by
  have length : (dofs.zip x.toList).length = dofs.length := by simp [size]
  rw [← Fin.sum_univ_fun_getElem]
  refine Fintype.sum_equiv (finCongr length) _ _ fun a => ?_
  have inside : (a : ℕ) < x.size := size ▸ length ▸ a.isLt
  simp [inside]

lemma sum_cellTriplets_mul (dofs : List ℕ) (m : Dense α) (i : ℕ) (f : ℕ → α) :
    ((cellTriplets dofs m).map fun t => if t.1 = i then t.2.2 * f t.2.1 else 0).sum =
      ∑ a : Fin dofs.length, if dofs.get a = i then
        ∑ b : Fin dofs.length, m.entry a b * f (dofs.get b) else 0 := by
  rw [sum_map_cellTriplets dofs m fun i j => by rw [zero_mul, ite_self]]
  refine Finset.sum_congr rfl fun a _ => ?_
  by_cases here : dofs.get a = i
  · rw [if_pos here]
    exact Finset.sum_congr rfl fun b _ => if_pos here
  · rw [if_neg here]
    exact Finset.sum_eq_zero fun b _ => if_neg here

section Computed

variable {E : Type} {x : List ℕ → Array α} {m : List ℕ → Dense α}

lemma exists_assembleVector {element : Dense α → Except E (Array α)}
    (computed : ∀ cell ∈ V.mesh.cells, element (V.mesh.cellPoints cell) = .ok (x cell))
    (size : ∀ cell ∈ V.mesh.cells, (x cell).size = cell.length) :
    ∃ b, V.assembleVector element = .ok b ∧ b.size = V.dofCount ∧
      ∀ i < V.dofCount, b.getD i 0 = (V.mesh.cells.map fun cell =>
        ∑ a : Fin cell.length, if cell.get a = i then (x cell).getD a 0 else 0).sum := by
  let contributions := V.mesh.cells.flatMap fun cell => cell.zip (x cell).toList
  refine ⟨contributions.foldl accumulate (Coords.zeros V.dofCount), ?_,
    (size_foldl_accumulate _ _).trans Array.size_replicate, fun i hi => ?_⟩
  · have listed : (V.mesh.cells.zip (V.mesh.cells.map x)).flatMap
        (fun c => c.1.zip c.2.toList) = contributions := by
      rw [← List.map_prod_left_eq_zip, List.flatMap_map]
    rw [← listed, assembleVector, mapM_eq_ok_map computed]
    rfl
  · have inside : i < (Coords.zeros V.dofCount : Array α).size :=
      Array.size_replicate.symm ▸ hi
    rw [getD_foldl_accumulate _ inside, Coords.zeros, Coords.getD_replicate_zero, zero_add,
      sum_flatMap]
    congr 1
    exact List.map_congr_left fun cell hcell => sum_zip_eq_sum (size cell hcell) i

lemma assembleMatrix_eq_ok {element : Dense α → Except E (Dense α)}
    (computed : ∀ cell ∈ V.mesh.cells, element (V.mesh.cellPoints cell) = .ok (m cell)) :
    V.assembleMatrix element = .ok (V.ofCells (V.mesh.cells.map m)) := by
  rw [assembleMatrix, mapM_eq_ok_map computed]
  rfl

lemma rowDot_ofCells (m : List ℕ → Dense α) (i : ℕ) (f : ℕ → α) :
    (V.ofCells (V.mesh.cells.map m)).rowDot i f = (V.mesh.cells.map fun cell =>
      ∑ a : Fin cell.length, if cell.get a = i then
        ∑ b : Fin cell.length, (m cell).entry a b * f (cell.get b) else 0).sum := by
  have listed : (V.ofCells (V.mesh.cells.map m)).entries.toList =
      V.mesh.cells.flatMap fun cell => cellTriplets cell (m cell) := by
    change (V.mesh.cells.zip (V.mesh.cells.map m)).flatMap _ = _
    rw [← List.map_prod_left_eq_zip, List.flatMap_map]
  rw [Triplets.rowDot_eq_sum, listed, sum_flatMap]
  simp only [sum_cellTriplets_mul]

end Computed

lemma sum_range_cells (x : List ℕ → ℕ → α) :
    ∑ i ∈ Finset.range V.dofCount, (V.mesh.cells.map fun cell =>
      ∑ a : Fin cell.length, if cell.get a = i then x cell a else 0).sum =
      (V.mesh.cells.map fun cell => ∑ a : Fin cell.length, x cell a).sum := by
  rw [sum_list_sum]
  congr 1
  refine List.map_congr_left fun cell hcell => ?_
  rw [Finset.sum_comm]
  refine Finset.sum_congr rfl fun a _ => ?_
  have inside : cell.get a < V.dofCount := (V.mesh.hasCell cell hcell).2 _ (List.getElem_mem a.isLt)
  rw [Finset.sum_ite_eq, if_pos (Finset.mem_range.2 inside)]

/-! ### The mass matrix and the load vector -/

omit [Scalar.Exact α] in
lemma getD_interpolate [Zero α] {v : ℕ} (hv : v < V.dofCount) :
    (V.interpolate f).getD v 0 = f (V.mesh.points.col v) := by
  simp [interpolate, hv]

/-- The factorial in the volumes of the cells is a size, or there is no volume to compute. -/
def Measurable (V : LinearSpace α) : Prop :=
  V.mesh.cells = [] ∨ Element.factorial V.mesh.dim < Word.limit

/-- The mass matrix of a cell. -/
def cellMass (V : LinearSpace α) (cell : List ℕ) : Dense α :=
  .ofFn (V.mesh.dim + 1) (V.mesh.dim + 1) (Element.massEntry (V.mesh.cellPoints cell))

/-- The load vector of a cell, with the source replaced by its interpolant. -/
def cellLoad (V : LinearSpace α) (f : Array α → α) (cell : List ℕ) : Array α :=
  Array.ofFn fun a : Fin cell.length =>
    ∑ b : Fin cell.length, (V.cellMass cell).entry a b * (V.interpolate f).getD (cell.get b) 0

lemma size_cellLoad (cell : List ℕ) : (V.cellLoad f cell).size = cell.length := Array.size_ofFn

lemma getD_cellLoad {cell : List ℕ} (a : Fin cell.length) : (V.cellLoad f cell).getD a 0 =
    ∑ b : Fin cell.length, (V.cellMass cell).entry a b * (V.interpolate f).getD (cell.get b) 0 := by
  unfold cellLoad
  rw [Array.getD_eq_getD_getElem?, Array.getElem?_ofFn, dif_pos a.isLt, Option.getD_some]

namespace Measurable

variable (h : V.Measurable) {cell : List ℕ} (hcell : cell ∈ V.mesh.cells)
include h hcell

omit [Scalar.Exact α] in
lemma size : Element.factorial V.mesh.dim < Word.limit :=
  h.resolve_left (List.ne_nil_of_mem hcell)

lemma mass?_eq_ok : Element.mass? (V.mesh.cellPoints cell) = .ok (V.cellMass cell) :=
  Element.mass?_eq_ok (V.mesh.hasCell cell hcell).1 (h.size hcell)

lemma load?_eq_ok : Element.load? f (V.mesh.cellPoints cell) = .ok (V.cellLoad f cell) := by
  obtain ⟨length, inside⟩ := V.mesh.hasCell cell hcell
  have simplex : Element.IsSimplex (V.mesh.cellPoints cell) := length
  obtain ⟨x, loaded, width, entries⟩ := Element.load?_eq_ok (f := f) simplex (h.size hcell)
  rw [loaded]
  refine congrArg _ ((Coords.eq_iff_getD (width.trans (size_cellLoad cell).symm)).2 fun a ha => ?_)
  have ha : a < cell.length := ha.trans_eq width
  rw [entries a ha, Finset.sum_range, getD_cellLoad ⟨a, ha⟩]
  refine Finset.sum_congr rfl fun b _ => ?_
  have corner : (V.mesh.cellPoints cell).col b = V.mesh.points.col (cell.get b) :=
    Element.col_selectCols b.isLt
  have point : cell.get b < V.dofCount := inside _ (List.getElem_mem b.isLt)
  have entry : (V.cellMass cell).entry a b = Element.massEntry (V.mesh.cellPoints cell) a b :=
    Dense.entry_ofFn _ (length ▸ ha) (length ▸ b.isLt)
  rw [corner, entry]
  exact congrArg _ (getD_interpolate point).symm

end Measurable

lemma sum_cellLoad_one {cell : List ℕ} (hcell : cell ∈ V.mesh.cells) :
    ∑ a : Fin cell.length, (V.cellLoad (fun _ => 1) cell).getD a 0 =
      Element.volume (V.mesh.cellPoints cell) := by
  obtain ⟨length, inside⟩ := V.mesh.hasCell cell hcell
  have simplex : Element.IsSimplex (V.mesh.cellPoints cell) := length
  rw [← Element.sum_massEntry simplex, Finset.sum_range]
  refine Finset.sum_congr rfl fun a _ => ?_
  rw [getD_cellLoad, Finset.sum_range]
  refine Finset.sum_congr rfl fun b _ => ?_
  have point : cell.get b < V.dofCount := inside _ (List.getElem_mem b.isLt)
  have entry : (V.cellMass cell).entry a b = Element.massEntry (V.mesh.cellPoints cell) a b :=
    Dense.entry_ofFn _ (length ▸ a.isLt) (length ▸ b.isLt)
  rw [entry, getD_interpolate point, mul_one]

namespace Measurable

variable (h : V.Measurable)
include h

lemma exists_load : ∃ M b, V.assembleMatrix Element.mass? = .ok M ∧
    V.assembleVector (Element.load? f) = .ok b ∧ M.toCsr.mulVec (V.interpolate f) = b := by
  obtain ⟨b, assembled, size, entries⟩ := exists_assembleVector
    (fun c hc => h.load?_eq_ok (f := f) hc) fun c _ => size_cellLoad c
  refine ⟨_, b, assembleMatrix_eq_ok fun c hc => h.mass?_eq_ok hc, assembled, ?_⟩
  refine (Coords.eq_iff_getD ((Triplets.size_mulVec_toCsr _ _).trans size.symm)).2 fun i hi => ?_
  rw [Triplets.size_mulVec_toCsr] at hi
  rw [Triplets.mulVec_toCsr, rowDot_ofCells, entries i hi]
  simp only [getD_cellLoad]

lemma exists_load_one : ∃ b, V.assembleVector (Element.load? fun _ => 1) = .ok b ∧
    (V.mesh.cells.mapM fun c => Element.volume? (V.mesh.cellPoints c)) =
      .ok (V.mesh.cells.map fun c => Element.volume (V.mesh.cellPoints c)) ∧
    b.toList.sum = (V.mesh.cells.map fun c => Element.volume (V.mesh.cellPoints c)).sum := by
  obtain ⟨b, assembled, size, entries⟩ := exists_assembleVector
    (fun c hc => h.load?_eq_ok (f := fun _ => 1) hc) fun c _ => size_cellLoad c
  refine ⟨b, assembled, mapM_eq_ok_map fun c hc =>
    Element.volume?_eq_ok (V.mesh.hasCell c hc).1 (h.size hc), ?_⟩
  rw [toList_sum_eq, size, Finset.sum_congr rfl fun i hi => entries i (Finset.mem_range.1 hi),
    sum_range_cells fun c a => (V.cellLoad (fun _ => 1) c).getD a 0]
  congr 1
  exact List.map_congr_left fun c hc => sum_cellLoad_one hc

end Measurable

lemma eq_error_of_not_measurable (h : ¬V.Measurable) (f : Array α → α) :
    V.assembleMatrix Element.mass? = .error .dimension ∧
      V.assembleVector (Element.load? f) = .error .dimension ∧
      (V.mesh.cells.mapM fun c => Element.volume? (V.mesh.cellPoints c)) =
        .error .dimension := by
  obtain ⟨ne, size⟩ := not_or.1 h
  have volume {c : List ℕ} (hc : c ∈ V.mesh.cells) :
      Element.volume? (V.mesh.cellPoints c) = .error .dimension :=
    Element.volume?_eq_error (V.mesh.hasCell c hc).1 size
  refine ⟨assembleMatrix_eq_error ne fun c hc => ?_, assembleVector_eq_error ne fun c hc => ?_,
    mapM_eq_error ne fun c hc => volume hc⟩
  · rw [Element.mass?, volume hc]
    rfl
  · rw [Element.load?, Element.mass?, volume hc]
    rfl

lemma sum_volume_simplicial (g : Grid) : ((g.simplicial : SimplicialMesh α).cells.map fun c =>
    Element.volume ((g.simplicial : SimplicialMesh α).cellPoints c)).sum = 1 := by
  have boxes : (g.boxes : α) ≠ 0 := Nat.cast_ne_zero.2 g.boxes_pos.ne'
  have orders : (g.dim.factorial : α) ≠ 0 := Nat.cast_ne_zero.2 g.dim.factorial_ne_zero
  rw [List.map_congr_left fun c hc => Grid.volume_cell hc, List.map_const', List.sum_replicate,
    Grid.length_cells_simplicial, nsmul_eq_mul]
  push_cast
  field_simp

/-- **The load vector is the product of the mass matrix with the interpolant.** For every mesh, with
cells of whatever shape, and every source, one is computed if the other is, and then they are the
same. The load vector of the constant one adds up to the volume of all cells, and for the cells of a
grid this is one. Nothing is computed only if there are cells in so many dimensions that the
factorial in their volume is no size. -/
theorem assembleVector_load (V : LinearSpace α) (f : Array α → α) :
    V.assembleVector (Element.load? f) =
        (V.assembleMatrix Element.mass?).map (fun M => M.toCsr.mulVec (V.interpolate f)) ∧
      V.assembleVector (Element.load? f) =
        (V.assembleMatrix Element.mass?).map (fun M => M.toDense.mulVec (V.interpolate f)) ∧
      ((∃ b, V.assembleVector (Element.load? f) = .ok b) ↔
        V.mesh.cells = [] ∨ Element.factorial V.mesh.dim < Word.limit) ∧
      (V.assembleVector (Element.load? fun _ => 1)).map (fun b => b.toList.sum) =
        (V.mesh.cells.mapM fun c => Element.volume? (V.mesh.cellPoints c)).map List.sum ∧
      ∀ g : Grid, ∃ b,
        (⟨g.simplicial⟩ : LinearSpace α).assembleVector (Element.load? fun _ => 1) = .ok b ∧
        b.toList.sum = 1 := by
  refine ⟨?_, ?_, ?_, ?_, fun g => ?_⟩
  · by_cases h : V.Measurable
    · obtain ⟨M, b, mass, load, product⟩ := h.exists_load (f := f)
      rw [mass, load, ← product]
      rfl
    · obtain ⟨mass, load, -⟩ := eq_error_of_not_measurable h f
      rw [mass, load]
      rfl
  · by_cases h : V.Measurable
    · obtain ⟨M, b, mass, load, product⟩ := h.exists_load (f := f)
      rw [mass, load, ← product, Csr.mulVec_toDense, Triplets.toDense_toCsr]
      rfl
    · obtain ⟨mass, load, -⟩ := eq_error_of_not_measurable h f
      rw [mass, load]
      rfl
  · refine ⟨fun ⟨b, load⟩ => ?_, fun h => ?_⟩
    · by_contra h
      rw [(eq_error_of_not_measurable h f).2.1] at load
      cases load
    · obtain ⟨M, b, -, load, -⟩ := Measurable.exists_load (V := V) (f := f) h
      exact ⟨b, load⟩
  · by_cases h : V.Measurable
    · obtain ⟨b, load, volumes, sum⟩ := h.exists_load_one
      rw [load, volumes]
      exact congrArg _ sum
    · obtain ⟨-, load, volumes⟩ := eq_error_of_not_measurable h fun _ => 1
      rw [load, volumes]
      rfl
  · have h : (⟨g.simplicial⟩ : LinearSpace α).Measurable :=
      .inr (Element.factorial_lt_limit g.dim_le)
    obtain ⟨b, load, -, sum⟩ := h.exists_load_one
    exact ⟨b, load, sum.trans (sum_volume_simplicial g)⟩

end LinearSpace

end Eigenmesh
