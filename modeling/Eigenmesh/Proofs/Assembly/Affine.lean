import Eigenmesh.Proofs.Assembly.Energy
import Eigenmesh.Proofs.Assembly.Essential

/-!
Affine functions and the stiffness matrix.

An affine function changes by the same amount in all steps along an axis. Within the cube, as many
cells step to a point along the axis as away from it, so its row of the stiffness matrix gives zero.
On the boundary the values are given, and by its values there and its rows within the cube a
function is determined.
-/

namespace Eigenmesh

variable {α : Type} [Scalar.Exact α]

namespace Grid

variable {g : Grid} {c : α} {slopes : ℕ → α} {t : List ℕ × List ℕ} {p : List ℕ} {axis v : ℕ}
  {K : Triplets α}

/-- A constant and a multiple of each coordinate. -/
def affine (g : Grid) (c : α) (slopes : ℕ → α) (x : Array α) : α :=
  c + ∑ axis ∈ Finset.range g.dim, slopes axis * x.getD axis 0

/-- The values of an affine function at the points. -/
def affineValues (g : Grid) (c : α) (slopes : ℕ → α) : Array α :=
  (⟨g.simplicial⟩ : LinearSpace α).interpolate (g.affine c slopes)

lemma size_affineValues : (g.affineValues c slopes).size = g.vertexCount := by
  rw [affineValues, LinearSpace.interpolate, Array.size_map, Array.size_range, dofCount_simplicial]

lemma getD_affineValues (hp : g.IsPoint p) : (g.affineValues c slopes).getD (g.vertexNumber p) 0 =
    c + ∑ axis ∈ Finset.range g.dim, slopes axis * (p.getD axis 0 / g.boxes) := by
  have inside : g.vertexNumber p < (⟨g.simplicial⟩ : LinearSpace α).dofCount :=
    (dofCount_simplicial (α := α)).symm ▸ hp.number_lt
  have value : (g.affineValues c slopes).getD (g.vertexNumber p) 0 =
      g.affine c slopes ((g.points : Dense α).col (g.vertexNumber p)) := by
    simp only [affineValues, LinearSpace.interpolate, Array.getD_eq_getD_getElem?,
      Array.getElem?_map, Array.getElem?_range, inside, if_true, Option.map_some, Option.getD_some]
    rfl
  rw [value, affine]
  congr 1
  refine Finset.sum_congr rfl fun axis haxis => ?_
  have haxis : axis < g.dim := Finset.mem_range.1 haxis
  have row : axis < (g.points : Dense α).rows := haxis
  rw [← entry_points hp haxis]
  simp [Dense.col, row]

lemma IsPath.rise_affineValues (h : g.IsPath t) (haxis : axis < g.dim) :
    g.rise t axis (fun v => (g.affineValues c slopes).getD v 0) = slopes axis / g.boxes := by
  have start : g.IsPoint (advance t.1 (t.2.takeWhile (· != axis))) :=
    h.isPoint_of_mem_walk departure_mem_walk
  have reached := h.isPoint_of_mem_walk (h.arrival_mem_walk haxis)
  rw [rise, arrival, departure, getD_affineValues start, getD_affineValues reached,
    add_sub_add_left_eq_sub, ← Finset.sum_sub_distrib, Finset.sum_eq_single_of_mem axis
      (Finset.mem_range.2 haxis) fun i hi ne => ?_]
  · rw [advance_append, getD_advance (start.length.symm ▸ haxis), List.count_singleton_self]
    push_cast
    ring
  · rw [advance_append, getD_advance (start.length.symm ▸ Finset.mem_range.1 hi),
      List.count_singleton, if_neg (by simpa using ne.symm), Nat.add_zero, sub_self]

lemma sum_slope_of_isInner (hv : v < g.vertexCount) (inner : g.IsInner v) (haxis : axis < g.dim) :
    ∑ t ∈ g.paths.toFinset, (g.slope t axis v : α) = 0 := by
  simp only [slope, Finset.sum_sub_distrib]
  rw [sum_paths_ite, sum_paths_ite, countP_arrival hv inner haxis, countP_departure hv inner,
    sub_self]

/-- **Within the cube the product with an affine function vanishes.** -/
lemma IsStiffness.sum_entry_mul_affineValues (h : g.IsStiffness K) (hv : v < g.vertexCount)
    (inner : g.IsInner v) :
    ∑ w ∈ Finset.range g.vertexCount, K.entry v w * (g.affineValues c slopes).getD w 0 = 0 := by
  calc ∑ w ∈ Finset.range g.vertexCount, K.entry v w * (g.affineValues c slopes).getD w 0
      = g.stepWeight * ∑ t ∈ g.paths.toFinset, ∑ axis ∈ Finset.range g.dim,
          g.slope t axis v * g.rise t axis fun v => (g.affineValues c slopes).getD v 0 :=
        h.sum_entry_mul v _
    _ = g.stepWeight * ∑ t ∈ g.paths.toFinset, ∑ axis ∈ Finset.range g.dim,
          g.slope t axis v * (slopes axis / g.boxes) := by
        congr 1
        refine Finset.sum_congr rfl fun t ht => Finset.sum_congr rfl fun axis haxis => ?_
        rw [(mem_paths.1 (List.mem_toFinset.1 ht)).rise_affineValues (Finset.mem_range.1 haxis)]
    _ = g.stepWeight * ∑ axis ∈ Finset.range g.dim,
          (∑ t ∈ g.paths.toFinset, g.slope t axis v) * (slopes axis / g.boxes) := by
        rw [Finset.sum_comm]
        simp only [Finset.sum_mul]
    _ = 0 := by
        rw [Finset.sum_eq_zero fun axis haxis => ?_, mul_zero]
        rw [sum_slope_of_isInner hv inner (Finset.mem_range.1 haxis), zero_mul]

lemma zero_mem_boundary : 0 ∈ (g.simplicial : SimplicialMesh α).boundary := by
  refine mem_boundary_of_onBoundary (Nat.pow_pos (Nat.succ_pos g.boxes)) ?_
  obtain ⟨d, dim⟩ := Nat.exists_eq_add_one.2 g.dim_pos
  rw [onBoundary, vertexCoords, dim, Index.coords, List.any_cons, Nat.zero_mod]
  rfl

lemma IsStiffness.eq_affineValues_iff (h : g.IsStiffness K) {x : Array α}
    (size : x.size = g.vertexCount) : x = g.affineValues c slopes ↔
      (∀ v ∈ (g.simplicial : SimplicialMesh α).boundary,
        x.getD v 0 = (g.affineValues c slopes).getD v 0) ∧
      ∀ v < g.vertexCount, v ∉ (g.simplicial : SimplicialMesh α).boundary →
        ∑ w ∈ Finset.range g.vertexCount, K.entry v w * x.getD w 0 = 0 := by
  have inner {v : ℕ} (hv : v < g.vertexCount)
      (free : v ∉ (g.simplicial : SimplicialMesh α).boundary) : g.IsInner v :=
    isInner_of_onBoundary (Bool.not_eq_true _ ▸ mt (mem_boundary_of_onBoundary hv) free)
  constructor
  · rintro rfl
    exact ⟨fun _ _ => rfl, fun v hv free => h.sum_entry_mul_affineValues hv (inner hv free)⟩
  · rintro ⟨values, products⟩
    rw [Coords.eq_iff_getD (size.trans size_affineValues.symm), size]
    refine h.eq_of_rows (fun v hv => ?_)
      ⟨0, lt_of_mem_boundary (α := α) zero_mem_boundary, values 0 zero_mem_boundary⟩
    by_cases bound : v ∈ (g.simplicial : SimplicialMesh α).boundary
    · exact .inl (values v bound)
    · exact .inr ((products v hv bound).trans
        (h.sum_entry_mul_affineValues hv (inner hv bound)).symm)

end Grid

namespace LinearSpace

/-- **Affine functions are reproduced.** With the values of an affine function on the boundary and
without a load, the system of the stiffness matrix has one solution, the values of that function at
all points. -/
theorem solves_iff_interpolate_affine (g : Grid) (c : α) (slopes : ℕ → α) :
    let V : LinearSpace α := ⟨g.simplicial⟩
    let u := V.interpolate (g.affine c slopes)
    ∃ K A b, V.assembleMatrix Element.stiffness? = .ok K ∧
      linearSystem? K (Coords.zeros V.dofCount) V.essentialDofs (some u) = some (A, b) ∧
      A.rows = V.dofCount ∧ A.cols = V.dofCount ∧
      ∀ x : Array α, x.size = V.dofCount ∧ A.mulVec x = b ↔ x = u := by
  intro V u
  obtain ⟨K, assembled, h⟩ := Grid.exists_isStiffness α g
  have dofs : V.dofCount = K.rows := Grid.dofCount_simplicial.trans h.rows.symm
  have square : K.rows = K.cols := h.rows.trans h.cols.symm
  have nodup : V.essentialDofs.Nodup := (SimplicialMesh.pairwise_corners _).imp ne_of_lt
  have inside : ∀ v ∈ V.essentialDofs, v < K.rows := fun v hv => h.rows ▸ Grid.lt_of_mem_boundary hv
  have complete : Complete K (Coords.zeros V.dofCount) V.essentialDofs (some u) :=
    ⟨Array.size_replicate.trans dofs, fun _ eq v hv => Option.some.inj eq ▸
      (Grid.lt_of_mem_boundary hv).trans_eq Grid.size_affineValues.symm⟩
  obtain ⟨A, b, system, rows, cols, solves⟩ := exists_linearSystem? square nodup inside complete
  have solves_iff {x : Array α} (size : x.size = V.dofCount) : A.mulVec x = b ↔ x = u := by
    rw [solves x (size.trans dofs), h.rows]
    refine Iff.trans ?_ (h.eq_affineValues_iff (size.trans Grid.dofCount_simplicial)).symm
    refine and_congr_right fun _ => forall₃_congr fun v _ _ => ?_
    rw [Coords.zeros, Coords.getD_replicate_zero]
  have size : u.size = V.dofCount := Grid.size_affineValues.trans Grid.dofCount_simplicial.symm
  exact ⟨K, A, b, assembled, system, rows.trans dofs.symm,
    cols.trans (square.symm.trans dofs.symm), fun x => ⟨fun h => (solves_iff h.1).1 h.2,
      fun eq => ⟨eq ▸ size, (solves_iff (eq ▸ size)).2 eq⟩⟩⟩

end LinearSpace

end Eigenmesh
