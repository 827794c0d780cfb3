import Eigenmesh.Proofs.Assembly.Stencil
import Eigenmesh.Proofs.Dense.Positive

/-!
The energy of a function on the points of a grid.

The stiffness matrix adds up, over the steps of all cells, the products of what two functions change
in a step. A function without energy changes in no step. Every point but the first is where some
step leads that starts from a lower point, so such a function is constant, and it vanishes if it
vanishes at one point.
-/

namespace Eigenmesh

namespace Grid

variable {α : Type} [Scalar.Exact α] {g : Grid} {t : List ℕ × List ℕ} {axis v w : ℕ}
  {x y : ℕ → α} {K : Triplets α} {dofs : List ℕ}

/-! ### Changes along steps -/

/-- How much a function on the points changes in the step of a path along an axis. -/
def rise (g : Grid) (t : List ℕ × List ℕ) (axis : ℕ) (x : ℕ → α) : α :=
  x (g.arrival t axis) - x (g.departure t axis)

/-- What a cell contributes for one unit of change. -/
def stepWeight (g : Grid) : α := 1 / (g.dim.factorial * g.boxes ^ g.dim) * g.boxes ^ 2

lemma stepWeight_pos : 0 < (g.stepWeight : α) := by
  have boxes : (0 : α) < g.boxes := Nat.cast_pos.2 g.boxes_pos
  have orders : (0 : α) < g.dim.factorial := Nat.cast_pos.2 g.dim.factorial_pos
  rw [stepWeight]
  positivity

lemma IsPath.sum_slope_mul (h : g.IsPath t) (haxis : axis < g.dim) :
    ∑ v ∈ Finset.range g.vertexCount, g.slope t axis v * x v = g.rise t axis x := by
  have arrival := Finset.mem_range.2 (h.arrival_lt haxis)
  have departure : g.departure t axis ∈ Finset.range g.vertexCount :=
    Finset.mem_range.2 h.departure_lt
  simp only [slope, sub_mul, Finset.sum_sub_distrib, ite_mul, one_mul, zero_mul, Finset.sum_ite_eq]
  rw [if_pos arrival, if_pos departure, rise]

lemma IsPath.sum_localStiffness_mul (h : g.IsPath t) :
    ∑ w ∈ Finset.range g.vertexCount, g.localStiffness t v w * y w =
      g.stepWeight * ∑ axis ∈ Finset.range g.dim, g.slope t axis v * g.rise t axis y := by
  calc ∑ w ∈ Finset.range g.vertexCount, g.localStiffness t v w * y w
      = g.stepWeight * ∑ axis ∈ Finset.range g.dim, g.slope t axis v *
          ∑ w ∈ Finset.range g.vertexCount, g.slope t axis w * y w := by
        simp only [localStiffness, stepWeight, Finset.mul_sum, Finset.sum_mul]
        rw [Finset.sum_comm]
        exact Finset.sum_congr rfl fun axis _ => Finset.sum_congr rfl fun w _ => by ring
    _ = _ := by
        congr 1
        refine Finset.sum_congr rfl fun axis haxis => ?_
        rw [h.sum_slope_mul (Finset.mem_range.1 haxis)]

/-! ### Steps join all points -/

lemma exists_arrival (hv : v < g.vertexCount) (haxis : axis < g.dim)
    (pos : (g.vertexCoords v).getD axis 0 ≠ 0) : ∃ t, g.IsPath t ∧ g.arrival t axis = v := by
  have place : g.IsPoint (g.vertexCoords v) := isPoint_vertexCoords
  -- first along the other axes across which the point lies in the highest layer, then along this
  let first (i : ℕ) : Bool := i ≠ axis ∧ (g.vertexCoords v).getD i 0 = g.boxes
  let l := (List.range g.dim).filter first
  let rest := ((List.range g.dim).filter fun i => !first i).erase axis
  have away : axis ∉ l := fun h => by simp [l, first] at h
  have later : axis ∈ (List.range g.dim).filter fun i => !first i := by simp [first, haxis]
  have perm : (l ++ axis :: rest).Perm (List.range g.dim) :=
    ((List.perm_cons_erase later).symm.append_left l).trans (List.filter_append_perm first _)
  have nodup : (l ++ [axis]).Nodup :=
    List.nodup_append.2 ⟨List.nodup_range.filter _, List.nodup_singleton _,
      fun a ha b hb eq => away (List.mem_singleton.1 hb ▸ eq ▸ ha)⟩
  have high {i : ℕ} (hi : i ∈ l) : i < g.dim ∧ (g.vertexCoords v).getD i 0 = g.boxes := by
    simp only [l, first, List.mem_filter, List.mem_range, decide_eq_true_eq] at hi
    exact ⟨hi.1, hi.2.2⟩
  obtain ⟨back, length, reached⟩ := exists_back nodup (p := g.vertexCoords v) fun i hi => by
    rcases List.mem_append.1 hi with hi | hi
    · exact ⟨place.length.symm ▸ (high hi).1, (high hi).2 ▸ g.boxes_pos.ne'⟩
    · obtain rfl := List.mem_singleton.1 hi
      exact ⟨place.length.symm ▸ haxis, pos⟩
  rw [place.length] at length
  refine ⟨(back, l ++ axis :: rest), ⟨length, fun i hi => ?_, perm⟩, ?_⟩
  · have moved : (advance back (l ++ [axis])).getD i 0 = back.getD i 0 + (l ++ [axis]).count i :=
      getD_advance (length.symm ▸ hi)
    have below := place.le i hi
    rw [reached] at moved
    by_cases taken : i ∈ l ++ [axis]
    · rw [List.count_eq_one_of_mem nodup taken] at moved
      change back.getD i 0 < g.boxes
      omega
    · have low : (g.vertexCoords v).getD i 0 ≠ g.boxes := fun eq => taken (List.mem_append.2 (by
        by_cases same : i = axis
        · exact .inr (List.mem_singleton.2 same)
        · exact .inl (List.mem_filter.2 ⟨List.mem_range.2 hi, decide_eq_true ⟨same, eq⟩⟩)))
      rw [List.count_eq_zero_of_not_mem taken] at moved
      change back.getD i 0 < g.boxes
      omega
  · rw [arrival, takeWhile_ne away, reached, vertexNumber_vertexCoords hv]

lemma IsPath.departure_lt_arrival (h : g.IsPath t) (haxis : axis < g.dim) :
    g.departure t axis < g.arrival t axis := by
  rw [departure, arrival, advance_append]
  exact vertexNumber_lt_advance (by rwa [length_advance, h.length])

omit [Scalar.Exact α] in
lemma eq_of_steps (still : ∀ t, g.IsPath t → ∀ axis < g.dim,
    x (g.arrival t axis) = x (g.departure t axis)) (hv : v < g.vertexCount)
    (hw : w < g.vertexCount) : x v = x w := by
  have lowest : ∀ v, v < g.vertexCount →
      ∃ u < g.vertexCount, (∀ i < g.dim, (g.vertexCoords u).getD i 0 = 0) ∧ x v = x u := by
    intro v
    induction v using Nat.strong_induction_on with
    | _ v ih =>
      intro hv
      by_cases low : ∀ i < g.dim, (g.vertexCoords v).getD i 0 = 0
      · exact ⟨v, hv, low, rfl⟩
      · push Not at low
        obtain ⟨axis, haxis, pos⟩ := low
        obtain ⟨t, ht, rfl⟩ := exists_arrival hv haxis pos
        rw [still t ht axis haxis]
        exact ih _ (ht.departure_lt_arrival haxis) ht.departure_lt
  obtain ⟨u, hu, low, eq⟩ := lowest v hv
  obtain ⟨u', hu', low', eq'⟩ := lowest w hw
  have length (u : ℕ) : (g.vertexCoords u).length = g.dim := Index.length_coords
  have same : u = u' := eq_of_vertexCoords hu hu' (eq_of_getD ((length u).trans (length u').symm)
    fun i hi => by rw [low i (length u ▸ hi), low' i (length u ▸ hi)])
  rw [eq, eq', same]

/-! ### The stiffness matrix -/

/-- The matrix has the size and the entries of the stiffness matrix of the grid. -/
structure IsStiffness (g : Grid) (K : Triplets α) : Prop where
  rows : K.rows = g.vertexCount
  cols : K.cols = g.vertexCount
  entry : ∀ v w, K.entry v w = ∑ t ∈ g.paths.toFinset, g.localStiffness t v w

lemma dofCount_simplicial : (⟨g.simplicial⟩ : LinearSpace α).dofCount = g.vertexCount := by
  change ((List.range g.vertexCount).map _).toArray.size = _
  simp

variable (α) in
/-- **The matrix that is assembled is the stiffness matrix.** -/
lemma exists_isStiffness (g : Grid) : ∃ K : Triplets α,
    (⟨g.simplicial⟩ : LinearSpace α).assembleMatrix Element.stiffness? = .ok K ∧
      g.IsStiffness K := by
  have path {t} (ht : t ∈ g.paths) : g.IsPath t := mem_paths.1 ht
  obtain ⟨K, assembled, rows, cols, entry⟩ :=
    LinearSpace.exists_assembleMatrix (V := (⟨g.simplicial⟩ : LinearSpace α)) cells_eq_map_paths
      (fun t ht => meshCell_perm.nodup_iff.2 (path ht).nodup_cellAt)
      fun t ht => (path ht).exists_stiffness
  refine ⟨K, assembled, rows.trans dofCount_simplicial, cols.trans dofCount_simplicial,
    fun v w => ?_⟩
  rw [entry, ← List.sum_toFinset _ nodup_paths]
  refine Finset.sum_congr rfl fun t ht => ?_
  simp only [meshCell_perm.mem_iff]
  exact ite_eq_left_iff.2 fun away =>
    (localStiffness_eq_zero (path (List.mem_toFinset.1 ht)) away).symm

namespace IsStiffness

variable (h : g.IsStiffness K)
include h

lemma symm (v w : ℕ) : K.entry v w = K.entry w v := by
  rw [h.entry, h.entry]
  refine Finset.sum_congr rfl fun t _ => ?_
  simp only [localStiffness, mul_comm]

lemma sum_entry_mul (v : ℕ) (y : ℕ → α) :
    ∑ w ∈ Finset.range g.vertexCount, K.entry v w * y w = g.stepWeight *
      ∑ t ∈ g.paths.toFinset, ∑ axis ∈ Finset.range g.dim,
        g.slope t axis v * g.rise t axis y := by
  simp only [h.entry, Finset.sum_mul]
  rw [Finset.sum_comm, Finset.mul_sum]
  exact Finset.sum_congr rfl fun t ht =>
    (mem_paths.1 (List.mem_toFinset.1 ht)).sum_localStiffness_mul

/-- **Energy is the sum of the squares of all changes.** -/
lemma form_self (x : ℕ → α) : form g.vertexCount K.entry x x = g.stepWeight *
    ∑ t ∈ g.paths.toFinset, ∑ axis ∈ Finset.range g.dim, g.rise t axis x ^ 2 := by
  have squares {t} (ht : t ∈ g.paths.toFinset) {axis} (haxis : axis ∈ Finset.range g.dim) :
      ∑ v ∈ Finset.range g.vertexCount, x v * (g.slope t axis v * g.rise t axis x) =
        g.rise t axis x ^ 2 := by
    have path := mem_paths.1 (List.mem_toFinset.1 ht)
    rw [sq]
    nth_rewrite 2 [← path.sum_slope_mul (Finset.mem_range.1 haxis)]
    rw [Finset.sum_mul]
    exact Finset.sum_congr rfl fun v _ => by ring
  calc form g.vertexCount K.entry x x
      = g.stepWeight * ∑ v ∈ Finset.range g.vertexCount, ∑ t ∈ g.paths.toFinset,
          ∑ axis ∈ Finset.range g.dim, x v * (g.slope t axis v * g.rise t axis x) := by
        simp only [form_eq_sum_mul, h.sum_entry_mul, Finset.mul_sum, mul_left_comm]
    _ = g.stepWeight * ∑ t ∈ g.paths.toFinset, ∑ axis ∈ Finset.range g.dim,
          ∑ v ∈ Finset.range g.vertexCount, x v * (g.slope t axis v * g.rise t axis x) := by
        rw [Finset.sum_comm]
        congr 1
        exact Finset.sum_congr rfl fun t _ => Finset.sum_comm
    _ = _ := by
        congr 1
        exact Finset.sum_congr rfl fun t ht => Finset.sum_congr rfl fun axis haxis =>
          squares ht haxis

lemma eq_of_form_nonpos (zero : form g.vertexCount K.entry x x ≤ 0) (hv : v < g.vertexCount)
    (hw : w < g.vertexCount) : x v = x w := by
  rw [h.form_self] at zero
  have nonneg (t : List ℕ × List ℕ) : 0 ≤ ∑ axis ∈ Finset.range g.dim, g.rise t axis x ^ 2 :=
    Finset.sum_nonneg fun _ _ => sq_nonneg _
  refine eq_of_steps (fun t ht axis haxis => ?_) hv hw
  have square : g.rise t axis x ^ 2 ≤ 0 :=
    calc g.rise t axis x ^ 2
        ≤ ∑ axis ∈ Finset.range g.dim, g.rise t axis x ^ 2 :=
          Finset.single_le_sum (f := fun axis => g.rise t axis x ^ 2) (fun _ _ => sq_nonneg _)
            (Finset.mem_range.2 haxis)
      _ ≤ ∑ t ∈ g.paths.toFinset, ∑ axis ∈ Finset.range g.dim, g.rise t axis x ^ 2 :=
          Finset.single_le_sum (fun t _ => nonneg t) (List.mem_toFinset.2 (mem_paths.2 ht))
      _ ≤ 0 := nonpos_of_mul_nonpos_right zero stepWeight_pos
  exact sub_eq_zero.1 (sq_nonpos_iff _ |>.1 square)

/-- **A function is given by its values and rows.** If at each point two functions have the same
value or the same row of the product, and the same value at one point at least, they are the same. -/
lemma eq_of_rows (rows : ∀ v < g.vertexCount, x v = y v ∨
      ∑ w ∈ Finset.range g.vertexCount, K.entry v w * x w =
        ∑ w ∈ Finset.range g.vertexCount, K.entry v w * y w)
    (common : ∃ u < g.vertexCount, x u = y u) : ∀ v < g.vertexCount, x v = y v := by
  obtain ⟨u, hu, eq⟩ := common
  have energy : form g.vertexCount K.entry (x - y) (x - y) = 0 := by
    rw [form_eq_sum_mul]
    refine Finset.sum_eq_zero fun v hv => ?_
    rcases rows v (Finset.mem_range.1 hv) with value | row
    · rw [Pi.sub_apply, value, sub_self, zero_mul]
    · have zero : ∑ w ∈ Finset.range g.vertexCount, K.entry v w * (x - y) w = 0 := by
        simp only [Pi.sub_apply, mul_sub, Finset.sum_sub_distrib, row, sub_self]
      rw [zero, mul_zero]
  intro v hv
  have constant := h.eq_of_form_nonpos energy.le hv hu
  rwa [Pi.sub_apply, Pi.sub_apply, eq, sub_self, sub_eq_zero] at constant

/-- **Apart from one point the matrix is positive definite.** -/
lemma posDef_principal (nodup : dofs.Nodup) (inside : ∀ v ∈ dofs, v < g.vertexCount)
    (omitted : ∃ u < g.vertexCount, u ∉ dofs) :
    PosDef dofs.length fun a b => K.entry (dofs.getD a 0) (dofs.getD b 0) := by
  obtain ⟨u, hu, away⟩ := omitted
  refine ⟨fun a _ b _ => h.symm _ _, fun y ⟨a, ha, nonzero⟩ => ?_⟩
  rw [← form_apply, ← form_spread inside]
  by_contra zero
  have constant := h.eq_of_form_nonpos (not_lt.1 zero) (inside _ (getD_mem ha)) hu
  rw [spread_getD nodup ha, spread_of_notMem away] at constant
  exact nonzero constant

end IsStiffness

end Grid

end Eigenmesh
