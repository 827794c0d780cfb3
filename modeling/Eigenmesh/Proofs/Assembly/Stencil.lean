import Mathlib.Tactic.FieldSimp
import Eigenmesh.Proofs.Assembly.Sums
import Eigenmesh.Proofs.Element.Order
import Eigenmesh.Proofs.Mesh.Steps
import Eigenmesh.Proofs.Mesh.Volumes

/-!
The stiffness matrix of a grid within the cube.

Two points have a common entry where some cell steps along an axis from the one to the other, and a
point has one with itself where a cell steps to it or away from it. So the diagonals of boxes and of
their sides drop out, and what remains is the difference quotient along each axis.
-/

namespace Eigenmesh

namespace Grid

variable {α : Type} [Scalar.Exact α] {g : Grid} {t : List ℕ × List ℕ} {axis v w : ℕ}

/-! ### Products of slopes -/

/-- One step along the axis leads from `v` to `w`. -/
def Leads (g : Grid) (axis v w : ℕ) : Prop :=
  advance (g.vertexCoords v) [axis] = g.vertexCoords w

instance : Decidable (g.Leads axis v w) := inferInstanceAs (Decidable (_ = _))

namespace IsPath

variable (h : g.IsPath t)
include h

lemma departure_lt : g.departure t axis < g.vertexCount :=
  (h.isPoint_of_mem_walk departure_mem_walk).number_lt

lemma arrival_lt (haxis : axis < g.dim) : g.arrival t axis < g.vertexCount :=
  (h.isPoint_of_mem_walk (h.arrival_mem_walk haxis)).number_lt

lemma leads (haxis : axis < g.dim) : g.Leads axis (g.departure t axis) (g.arrival t axis) := by
  rw [Leads, departure, arrival, (h.isPoint_of_mem_walk departure_mem_walk).coords_number,
    (h.isPoint_of_mem_walk (h.arrival_mem_walk haxis)).coords_number, advance_append]

lemma step_iff_arrival (haxis : axis < g.dim) (hw : w < g.vertexCount) :
    g.arrival t axis = v ∧ g.departure t axis = w ↔ g.Leads axis w v ∧ g.arrival t axis = v := by
  have leads := h.leads haxis
  constructor
  · rintro ⟨rfl, rfl⟩
    exact ⟨leads, rfl⟩
  · rintro ⟨leads', rfl⟩
    refine ⟨rfl, eq_of_vertexCoords h.departure_lt hw ?_⟩
    exact advance_left_injective (by simp [vertexCoords]) (leads.trans leads'.symm)

lemma step_iff_departure (haxis : axis < g.dim) (hv : v < g.vertexCount) :
    g.arrival t axis = v ∧ g.departure t axis = w ↔ g.Leads axis w v ∧ g.departure t axis = w := by
  have leads := h.leads haxis
  constructor
  · rintro ⟨rfl, rfl⟩
    exact ⟨leads, rfl⟩
  · rintro ⟨leads', rfl⟩
    exact ⟨eq_of_vertexCoords (h.arrival_lt haxis) hv (leads.symm.trans leads'), rfl⟩

end IsPath

lemma slope_mul_slope : (g.slope t axis v : α) * g.slope t axis w =
    (if v = w then (if g.arrival t axis = v then 1 else 0) +
      if g.departure t axis = v then 1 else 0 else 0) -
    (if g.arrival t axis = v ∧ g.departure t axis = w then 1 else 0) -
      if g.arrival t axis = w ∧ g.departure t axis = v then 1 else 0 := by
  unfold slope
  by_cases hvw : v = w
  · subst hvw
    by_cases ha : g.arrival t axis = v <;> by_cases hd : g.departure t axis = v <;> simp [ha, hd]
  · by_cases ha : g.arrival t axis = v <;> by_cases hd : g.departure t axis = v <;>
      by_cases ha' : g.arrival t axis = w <;> by_cases hd' : g.departure t axis = w <;>
        simp_all

/-! ### Sums over all cells -/

lemma sum_paths_ite (p : List ℕ × List ℕ → Prop) [DecidablePred p] :
    ∑ t ∈ g.paths.toFinset, (if p t then (1 : α) else 0) = g.paths.countP fun t => p t := by
  rw [List.sum_toFinset _ nodup_paths, sum_ite_one]

lemma sum_slope_mul_slope (hv : v < g.vertexCount) (inner : g.IsInner v) (hw : w < g.vertexCount)
    (haxis : axis < g.dim) :
    ∑ t ∈ g.paths.toFinset, (g.slope t axis v : α) * g.slope t axis w =
      g.dim.factorial * ((if v = w then 2 else 0) - (if g.Leads axis w v then 1 else 0) -
        if g.Leads axis v w then 1 else 0) := by
  have path {t} (ht : t ∈ g.paths.toFinset) : g.IsPath t := mem_paths.1 (List.mem_toFinset.1 ht)
  have towards : ∑ t ∈ g.paths.toFinset,
      (if g.arrival t axis = v ∧ g.departure t axis = w then (1 : α) else 0) =
        if g.Leads axis w v then (g.dim.factorial : α) else 0 := by
    rw [Finset.sum_congr rfl fun t ht =>
      if_congr ((path ht).step_iff_arrival haxis hw) rfl rfl]
    split
    case isTrue leads => simp only [leads, true_and, sum_paths_ite, countP_arrival hv inner haxis]
    case isFalse leads => simp only [leads, false_and, if_false, Finset.sum_const_zero]
  have away : ∑ t ∈ g.paths.toFinset,
      (if g.arrival t axis = w ∧ g.departure t axis = v then (1 : α) else 0) =
        if g.Leads axis v w then (g.dim.factorial : α) else 0 := by
    rw [Finset.sum_congr rfl fun t ht =>
      if_congr ((path ht).step_iff_departure haxis hw) rfl rfl]
    split
    case isTrue leads => simp only [leads, true_and, sum_paths_ite, countP_departure hv inner]
    case isFalse leads => simp only [leads, false_and, if_false, Finset.sum_const_zero]
  have both : ∑ t ∈ g.paths.toFinset, (if v = w then (if g.arrival t axis = v then (1 : α) else 0) +
      if g.departure t axis = v then 1 else 0 else 0) =
        if v = w then 2 * (g.dim.factorial : α) else 0 := by
    split
    · rw [Finset.sum_add_distrib, sum_paths_ite, sum_paths_ite, countP_arrival hv inner haxis,
        countP_departure hv inner, two_mul]
    · exact Finset.sum_const_zero
  simp only [slope_mul_slope, Finset.sum_sub_distrib]
  rw [towards, away, both]
  split_ifs <;> ring

/-! ### The matrices of the cells -/

/-- What the stiffness matrix of a cell has for two points. -/
def localStiffness (g : Grid) (t : List ℕ × List ℕ) (v w : ℕ) : α :=
  1 / (g.dim.factorial * g.boxes ^ g.dim) *
    ∑ axis ∈ Finset.range g.dim, g.boxes * (g.slope t axis v : α) * (g.boxes * g.slope t axis w)

namespace IsPath

variable (h : g.IsPath t)
include h

lemma hasSlopes : Element.HasSlopes (g.points : Dense α) (g.cellAt t)
    fun axis v => g.boxes * g.slope t axis v where
  edge _ _ _ hu _ hu' := h.sum_slope_mul_edge hu hu'
  sum axis haxis := by
    rw [List.sum_map_mul_left, ← List.sum_toFinset _ h.nodup_cellAt, h.sum_slope_cellAt haxis,
      mul_zero]

lemma exists_stiffness : ∃ m,
    Element.stiffness? ((g.simplicial : SimplicialMesh α).cellPoints (g.meshCell α t)) = .ok m ∧
      ∀ a b (ha : a < (g.meshCell α t).length) (hb : b < (g.meshCell α t).length),
        m.entry a b = g.localStiffness t (g.meshCell α t)[a] (g.meshCell α t)[b] := by
  have length : (g.meshCell α t).length = g.dim + 1 :=
    meshCell_perm.length_eq.trans h.length_cellAt
  have slopes : Element.AreSlopes ((g.points : Dense α).selectCols (g.meshCell α t)) _ :=
    (h.hasSlopes.of_perm meshCell_perm).areSlopes (meshCell_perm.nodup_iff.2 h.nodup_cellAt) length
  have size := Element.factorial_lt_limit g.dim_le
  obtain ⟨m, computed, entry⟩ := slopes.stiffness?_eq_ok length size
  refine ⟨m, computed, fun a b ha hb => ?_⟩
  have volume : Element.volume ((g.points : Dense α).selectCols (g.meshCell α t)) =
      1 / (g.dim.factorial * g.boxes ^ g.dim) :=
    volume_cell (mem_cells_simplicial.2 ⟨t, h, rfl⟩)
  rw [entry a (length ▸ ha) b (length ▸ hb), volume, localStiffness,
    List.getD_eq_getElem _ 0 ha, List.getD_eq_getElem _ 0 hb]
  rfl

end IsPath

/-! ### The neighbours of a point -/

/-- The points are one apart along one axis and not apart along the others. -/
def Beside (g : Grid) (v w : ℕ) : Prop :=
  ∃ axis < g.dim, ((g.vertexCoords v).getD axis 0 + 1 = (g.vertexCoords w).getD axis 0 ∨
      (g.vertexCoords w).getD axis 0 + 1 = (g.vertexCoords v).getD axis 0) ∧
    ∀ i < g.dim, i ≠ axis → (g.vertexCoords v).getD i 0 = (g.vertexCoords w).getD i 0

instance : Decidable (g.Beside v w) := inferInstanceAs (Decidable (∃ axis, axis < g.dim ∧ _))

lemma leads_iff (haxis : axis < g.dim) : g.Leads axis v w ↔
    (g.vertexCoords v).getD axis 0 + 1 = (g.vertexCoords w).getD axis 0 ∧
      ∀ i < g.dim, i ≠ axis → (g.vertexCoords v).getD i 0 = (g.vertexCoords w).getD i 0 := by
  have length (v : ℕ) : (g.vertexCoords v).length = g.dim := Index.length_coords
  have place {i : ℕ} (hi : i < g.dim) : (advance (g.vertexCoords v) [axis]).getD i 0 =
      (g.vertexCoords v).getD i 0 + if axis = i then 1 else 0 := by
    rw [getD_advance ((length v).symm ▸ hi), List.count_singleton]
    simp only [beq_iff_eq]
  constructor
  · intro leads
    rw [leads] at place
    exact ⟨by rw [place haxis, if_pos rfl], fun i hi ne => by
      rw [place hi, if_neg ne.symm, Nat.add_zero]⟩
  · rintro ⟨step, rest⟩
    refine eq_of_getD (by rw [length_advance, length, length]) fun i hi => ?_
    rw [length_advance, length] at hi
    rw [place hi]
    split
    case isTrue eq => exact eq ▸ step
    case isFalse ne => exact rest i hi fun eq => ne eq.symm

lemma leads_asymm (haxis : axis < g.dim) (h : g.Leads axis v w) : ¬g.Leads axis w v := fun h' => by
  have up := ((leads_iff haxis).1 h).1
  have down := ((leads_iff haxis).1 h').1
  omega

lemma beside_iff : g.Beside v w ↔ ∃ axis < g.dim, g.Leads axis v w ∨ g.Leads axis w v := by
  refine exists_congr fun axis => and_congr_right fun haxis => ?_
  rw [leads_iff haxis, leads_iff haxis, or_and_right]
  exact or_congr_right (and_congr_right fun _ => forall₃_congr fun _ _ _ => eq_comm)

lemma eq_of_leads {b : ℕ} (haxis : axis < g.dim) (hb : b < g.dim)
    (h : g.Leads axis v w ∨ g.Leads axis w v) (h' : g.Leads b v w ∨ g.Leads b w v) : b = axis := by
  by_contra ne
  rw [leads_iff haxis, leads_iff haxis] at h
  rw [leads_iff hb, leads_iff hb] at h'
  have same : (g.vertexCoords v).getD axis 0 = (g.vertexCoords w).getD axis 0 :=
    h'.elim (fun h => h.2 axis haxis (Ne.symm ne)) fun h => (h.2 axis haxis (Ne.symm ne)).symm
  omega

lemma sum_leads : ∑ axis ∈ Finset.range g.dim,
    ((if g.Leads axis w v then (1 : α) else 0) + if g.Leads axis v w then 1 else 0) =
      if g.Beside v w then 1 else 0 := by
  split
  case isTrue beside =>
    obtain ⟨axis, haxis, step⟩ := beside_iff.1 beside
    rw [Finset.sum_eq_single axis (fun b hb ne => ?_) fun h => absurd (Finset.mem_range.2 haxis) h]
    · rcases step with up | down
      · rw [if_neg (leads_asymm haxis up), if_pos up, zero_add]
      · rw [if_pos down, if_neg (leads_asymm haxis down), add_zero]
    · have other (h : g.Leads b v w ∨ g.Leads b w v) : False :=
        ne (eq_of_leads haxis (Finset.mem_range.1 hb) step h)
      rw [if_neg fun h => other (.inr h), if_neg fun h => other (.inl h), add_zero]
  case isFalse away =>
    refine Finset.sum_eq_zero fun axis haxis => ?_
    have none (h : g.Leads axis v w ∨ g.Leads axis w v) : False :=
      away (beside_iff.2 ⟨axis, Finset.mem_range.1 haxis, h⟩)
    rw [if_neg fun h => none (.inr h), if_neg fun h => none (.inl h), add_zero]

/-! ### The assembled matrix -/

lemma localStiffness_eq_zero (h : g.IsPath t) (away : ¬(v ∈ g.cellAt t ∧ w ∈ g.cellAt t)) :
    (g.localStiffness t v w : α) = 0 := by
  rw [localStiffness, Finset.sum_eq_zero, mul_zero]
  intro axis haxis
  have haxis := Finset.mem_range.1 haxis
  rcases not_and_or.1 away with away | away
  · rw [h.slope_eq_zero haxis away, mul_zero, zero_mul]
  · rw [h.slope_eq_zero haxis away, mul_zero, mul_zero]

lemma isInner_of_onBoundary (h : g.onBoundary v = false) : g.IsInner v := by
  intro axis haxis
  have place : g.IsPoint (g.vertexCoords v) := isPoint_vertexCoords
  have inside : axis < (g.vertexCoords v).length := place.length.symm ▸ haxis
  have below := place.le axis haxis
  have free := List.any_eq_false.1 h _ (List.getElem_mem inside)
  rw [List.getD_eq_getElem _ 0 inside] at below ⊢
  simp only [Bool.or_eq_true, decide_eq_true_eq] at free
  omega

lemma not_beside_self : ¬g.Beside v v := by
  rintro ⟨_, _, step, _⟩
  omega

lemma volume_mul_boxes_sq : 1 / (g.dim.factorial * (g.boxes : α) ^ g.dim) * g.boxes ^ 2 *
    g.dim.factorial = (g.meshWidth : α) ^ ((g.dim : ℤ) - 2) := by
  have boxes : (g.boxes : α) ≠ 0 := Nat.cast_ne_zero.2 g.boxes_pos.ne'
  have orders : (g.dim.factorial : α) ≠ 0 := Nat.cast_ne_zero.2 g.dim.factorial_ne_zero
  rw [meshWidth, one_div (g.boxes : α), inv_zpow, ← zpow_neg, neg_sub, zpow_sub₀ boxes,
    zpow_ofNat, zpow_natCast]
  field_simp

lemma sum_localStiffness (hv : v < g.vertexCount) (inner : g.IsInner v) (hw : w < g.vertexCount) :
    ∑ t ∈ g.paths.toFinset, (g.localStiffness t v w : α) =
      if w = v then 2 * g.dim * (g.meshWidth : α) ^ ((g.dim : ℤ) - 2)
      else if g.Beside v w then -(g.meshWidth : α) ^ ((g.dim : ℤ) - 2)
      else 0 := by
  calc ∑ t ∈ g.paths.toFinset, (g.localStiffness t v w : α)
      = 1 / (g.dim.factorial * (g.boxes : α) ^ g.dim) * g.boxes ^ 2 * ∑ axis ∈ Finset.range g.dim,
          ∑ t ∈ g.paths.toFinset, (g.slope t axis v : α) * g.slope t axis w := by
        rw [Finset.sum_comm]
        simp only [localStiffness, Finset.mul_sum]
        exact Finset.sum_congr rfl fun t _ => Finset.sum_congr rfl fun axis _ => by ring
    _ = (g.meshWidth : α) ^ ((g.dim : ℤ) - 2) * ∑ axis ∈ Finset.range g.dim,
          ((if v = w then 2 else 0) -
            ((if g.Leads axis w v then 1 else 0) + if g.Leads axis v w then 1 else 0)) := by
        rw [← volume_mul_boxes_sq, mul_assoc (_ * _) (g.dim.factorial : α),
          Finset.mul_sum _ _ (g.dim.factorial : α)]
        congr 1
        refine Finset.sum_congr rfl fun axis haxis => ?_
        rw [sum_slope_mul_slope hv inner hw (Finset.mem_range.1 haxis), sub_sub]
    _ = (g.meshWidth : α) ^ ((g.dim : ℤ) - 2) *
          ((if v = w then 2 * (g.dim : α) else 0) - if g.Beside v w then 1 else 0) := by
        rw [Finset.sum_sub_distrib, sum_leads, Finset.sum_const, Finset.card_range, nsmul_eq_mul]
        congr 2
        split_ifs <;> ring
    _ = _ := by
        by_cases same : w = v
        · subst same
          rw [if_pos rfl, if_neg not_beside_self, if_pos rfl]
          ring
        · rw [if_neg (Ne.symm same), if_neg same]
          split_ifs <;> ring

end Grid

namespace LinearSpace

variable {α : Type} [Scalar.Exact α]

variable (α) in
/-- **The stiffness matrix is the difference quotient of second order.** Within the cube, a point
has the entry `2 d h ^ (d - 2)` with itself, `-h ^ (d - 2)` with its neighbours along the axes, and
zero with all others, also with those that it shares a cell with. -/
theorem stiffness_stencil (g : Grid) : ∃ K : Triplets α,
    (⟨g.simplicial⟩ : LinearSpace α).assembleMatrix Element.stiffness? = .ok K ∧
      K.rows = g.vertexCount ∧ K.cols = g.vertexCount ∧
      ∀ v < g.vertexCount, g.onBoundary v = false → ∀ w < g.vertexCount,
        K.toCsr.entry v w =
          if w = v then 2 * g.dim * (g.meshWidth : α) ^ ((g.dim : ℤ) - 2)
          else if g.Beside v w then -(g.meshWidth : α) ^ ((g.dim : ℤ) - 2)
          else 0 := by
  have path {t} (ht : t ∈ g.paths) : g.IsPath t := Grid.mem_paths.1 ht
  have dofs : (⟨g.simplicial⟩ : LinearSpace α).dofCount = g.vertexCount := by
    change ((List.range g.vertexCount).map _).toArray.size = _
    simp
  obtain ⟨K, assembled, rows, cols, entry⟩ :=
    exists_assembleMatrix (V := (⟨g.simplicial⟩ : LinearSpace α)) Grid.cells_eq_map_paths
      (fun t ht => Grid.meshCell_perm.nodup_iff.2 (path ht).nodup_cellAt)
      fun t ht => (path ht).exists_stiffness
  refine ⟨K, assembled, rows.trans dofs, cols.trans dofs, fun v hv inner w hw => ?_⟩
  have contribution {t} (ht : t ∈ g.paths) :
      (if v ∈ g.meshCell α t ∧ w ∈ g.meshCell α t then (g.localStiffness t v w : α) else 0) =
        g.localStiffness t v w := by
    split
    case isTrue => rfl
    case isFalse away =>
      rw [Grid.meshCell_perm.mem_iff, Grid.meshCell_perm.mem_iff] at away
      exact (Grid.localStiffness_eq_zero (path ht) away).symm
  rw [Triplets.entry_toCsr, entry, List.map_congr_left fun t ht => contribution ht,
    ← List.sum_toFinset _ Grid.nodup_paths,
    Grid.sum_localStiffness hv (Grid.isInner_of_onBoundary inner) hw]

/-- The middle of four boxes, and the end of the diagonal that leads away from it. -/
theorem stiffness_stencil_fourBoxes : ∃ K : Triplets ℚ,
    (⟨Grid.fourBoxes.simplicial⟩ : LinearSpace ℚ).assembleMatrix Element.stiffness? = .ok K ∧
      K.toCsr.entry 4 4 = 4 ∧ K.toCsr.entry 4 5 = -1 ∧ K.toCsr.entry 4 8 = 0 := by
  obtain ⟨K, assembled, -, -, entry⟩ := stiffness_stencil ℚ Grid.fourBoxes
  refine ⟨K, assembled, ?_, ?_, ?_⟩
  · rw [entry 4 (by decide) (by decide) 4 (by decide), if_pos rfl]
    norm_num [Grid.fourBoxes]
  · rw [entry 4 (by decide) (by decide) 5 (by decide), if_neg (by decide), if_pos (by decide)]
    norm_num [Grid.fourBoxes]
  · rw [entry 4 (by decide) (by decide) 8 (by decide), if_neg (by decide), if_neg (by decide)]

end LinearSpace

end Eigenmesh
