import Mathlib.Tactic.FieldSimp
import Eigenmesh.Proofs.Mesh.Volumes
import Eigenmesh.Proofs.Mesh.Weights

/-!
The triangulated cube is partitioned into its cells.

A place in the cube lies in a box, and in the cell of that box that goes along the axes by
decreasing distance from the corner of the box. Whatever cell a place lies in, the corners of
positive weight are found by rounding its coordinates, so they are the same in every cell that has
the place.
-/

namespace Eigenmesh

variable {α : Type} [Scalar.Exact α]

namespace Dense

/-- The weights, one for each point number, make up the place `x` from the points with the given
numbers. -/
structure Balances (points : Dense α) (corners : Finset ℕ) (x w : ℕ → α) : Prop where
  nonneg : ∀ v ∈ corners, 0 ≤ w v
  sum_eq_one : ∑ v ∈ corners, w v = 1
  place : ∀ axis < points.rows, ∑ v ∈ corners, w v * points.entry axis v = x axis

/-- The place is a convex combination of the points with the given numbers. -/
def InHull (points : Dense α) (corners : Finset ℕ) (x : ℕ → α) : Prop :=
  ∃ w, points.Balances corners x w

/-- The place is a convex combination to which every point contributes. -/
def InInterior (points : Dense α) (corners : Finset ℕ) (x : ℕ → α) : Prop :=
  ∃ w, points.Balances corners x w ∧ ∀ v ∈ corners, 0 < w v

lemma Balances.restrict {points : Dense α} {corners some : Finset ℕ} {x w : ℕ → α}
    (h : points.Balances corners x w) (sub : some ⊆ corners)
    (zero : ∀ v ∈ corners, v ∉ some → w v = 0) : points.Balances some x w where
  nonneg v hv := h.nonneg v (sub hv)
  sum_eq_one := (Finset.sum_subset sub zero).trans h.sum_eq_one
  place axis haxis := by
    rw [← h.place axis haxis]
    exact Finset.sum_subset sub fun v hv hv' => by rw [zero v hv hv', zero_mul]

end Dense

namespace Grid

variable {g : Grid} {t u : List ℕ × List ℕ} {x w : ℕ → α}

/-! ### Places in a cell -/

/-- How far a place is from a point of the grid along each axis, in lengths of a box. -/
def distance (g : Grid) (x : ℕ → α) (b : List ℕ) (i : ℕ) : α := g.boxes * x i - b.getD i 0

namespace IsPath

variable (h : g.IsPath t)
include h

lemma sum_cellAt (f : ℕ → α) : ∑ v ∈ (g.cellAt t).toFinset, f v =
    ((walk t.1 t.2).map fun p => f (g.vertexNumber p)).sum := by
  rw [List.sum_toFinset f h.nodup_cellAt, cellAt, List.map_map]
  rfl

lemma place_cellAt_iff {axis : ℕ} (haxis : axis < g.dim) :
    ∑ v ∈ (g.cellAt t).toFinset, w v * (g.points : Dense α).entry axis v = x axis ↔
      ((walk t.1 t.2).map fun p => w (g.vertexNumber p) * (p.getD axis 0 : α)).sum =
        g.boxes * x axis := by
  have boxes : (g.boxes : α) ≠ 0 := Nat.cast_ne_zero.2 (Nat.ne_of_gt g.boxes_pos)
  have scaled : (walk t.1 t.2).map
        (fun p => w (g.vertexNumber p) * (g.points : Dense α).entry axis (g.vertexNumber p)) =
      (walk t.1 t.2).map fun p => w (g.vertexNumber p) * (p.getD axis 0 : α) * (g.boxes : α)⁻¹ :=
    List.map_congr_left fun p hp => by
      rw [entry_points (h.isPoint_of_mem_walk hp) haxis, mul_assoc, div_eq_mul_inv]
  rw [h.sum_cellAt, scaled, List.sum_map_mul_right, mul_inv_eq_iff_eq_mul₀ boxes,
    mul_comm (x axis)]

lemma map_of_balances (hb : (g.points : Dense α).Balances (g.cellAt t).toFinset x w) :
    (walk t.1 t.2).map (fun p => w (g.vertexNumber p)) = weights (g.distance x t.1) 1 t.2 := by
  have whole : ((walk t.1 t.2).map fun p => w (g.vertexNumber p)).sum = 1 := by
    rw [← h.sum_cellAt, hb.sum_eq_one]
  rw [map_eq_weights h.nodup_axes (fun _ => h.lt_length), whole]
  refine weights_congr fun a ha => ?_
  rw [lead, whole, one_mul, (h.place_cellAt_iff (h.mem_axes.1 ha)).1
    (hb.place a (h.mem_axes.1 ha)), distance]

lemma nonneg_of_balances (hb : (g.points : Dense α).Balances (g.cellAt t).toFinset x w) :
    ∀ c ∈ weights (g.distance x t.1) 1 t.2, 0 ≤ c := by
  rw [← h.map_of_balances hb, List.forall_mem_map]
  exact fun p hp => hb.nonneg _ (List.mem_toFinset.2 (List.mem_map_of_mem hp))

lemma inHull_of_nonneg (nonneg : ∀ c ∈ weights (g.distance x t.1) 1 t.2, 0 ≤ c) :
    (g.points : Dense α).InHull (g.cellAt t).toFinset x := by
  let cs := weights (g.distance x t.1) 1 t.2
  let w (v : ℕ) : α := cs.getD ((g.cellAt t).idxOf v) 0
  have size : (g.cellAt t).length = cs.length := by
    rw [h.length_cellAt, length_weights, h.length_axes]
  have listed : (g.cellAt t).map w = cs := by
    refine List.ext_getElem (by rw [List.length_map, size]) fun k hk hk' => ?_
    rw [List.getElem_map]
    change cs.getD ((g.cellAt t).idxOf _) 0 = _
    rw [h.nodup_cellAt.idxOf_getElem, List.getD_eq_getElem _ 0 hk']
  have onWalk : (walk t.1 t.2).map (fun p => w (g.vertexNumber p)) = cs := by
    rw [← listed, cellAt, List.map_map]
    rfl
  refine ⟨w, fun v hv => ?_, ?_, fun axis haxis => ?_⟩
  · have mem : w v ∈ cs := listed ▸ List.mem_map_of_mem (List.mem_toFinset.1 hv)
    exact nonneg _ mem
  · rw [h.sum_cellAt, onWalk, sum_weights]
  · have inside : axis < t.1.length := h.length.symm ▸ haxis
    rw [h.place_cellAt_iff haxis, sum_weights_mul onWalk inside,
      List.count_eq_one_of_mem h.nodup_axes (h.mem_axes.2 haxis), distance]
    push_cast
    ring

lemma mem_cellAt_of_pos (hu : g.IsPath u)
    (hb : (g.points : Dense α).Balances (g.cellAt t).toFinset x w)
    (hull : (g.points : Dense α).InHull (g.cellAt u).toFinset x) {v : ℕ} (hv : v ∈ g.cellAt t)
    (pos : 0 < w v) : v ∈ g.cellAt u := by
  obtain ⟨w', hb'⟩ := hull
  obtain ⟨p, hp, rfl⟩ := List.mem_map.1 hv
  have bounds {t : List ℕ × List ℕ} (h : g.IsPath t)
      (nonneg : ∀ c ∈ weights (g.distance x t.1) 1 t.2, 0 ≤ c) (i : ℕ) (hi : i < g.dim) :
      0 ≤ g.distance x t.1 i ∧ g.distance x t.1 i ≤ 1 :=
    (bounds_of_nonneg nonneg).2 i (h.mem_axes.2 hi)
  obtain ⟨τ, hτ, le, before, after, axes, rfl, early, late⟩ :=
    exists_threshold (h.nonneg_of_balances hb) (h.map_of_balances hb) hp pos
  obtain ⟨before', after', axes', early', late'⟩ := exists_parting (hu.nonneg_of_balances hb') τ
  have rounds := rounds_advance h.length (axes ▸ h.perm) (bounds h (h.nonneg_of_balances hb)) hτ le
    early late
  have rounds' := rounds_advance hu.length (axes' ▸ hu.perm)
    (bounds hu (hu.nonneg_of_balances hb')) hτ le early' late'
  rw [rounds.eq rounds' (by rw [length_advance, h.length]) (by rw [length_advance, hu.length])]
  exact List.mem_map_of_mem (mem_walk.2 ⟨before', axes' ▸ List.prefix_append _ _, rfl⟩)

lemma balances_inter (hu : g.IsPath u)
    (hb : (g.points : Dense α).Balances (g.cellAt t).toFinset x w)
    (hull : (g.points : Dense α).InHull (g.cellAt u).toFinset x) :
    (g.points : Dense α).Balances ((g.cellAt t).toFinset ∩ (g.cellAt u).toFinset) x w := by
  refine hb.restrict Finset.inter_subset_left fun v hv hv' => ?_
  refine le_antisymm (le_of_not_gt fun pos => hv' (Finset.mem_inter.2 ⟨hv, ?_⟩)) (hb.nonneg v hv)
  exact List.mem_toFinset.2 (h.mem_cellAt_of_pos hu hb hull (List.mem_toFinset.1 hv) pos)

lemma eq_of_toFinset (hu : g.IsPath u) (eq : (g.cellAt t).toFinset = (g.cellAt u).toFinset) :
    t = u := by
  have numbers : g.cellAt t = g.cellAt u :=
    h.pairwise_cellAt.eq_of_mem_iff hu.pairwise_cellAt fun v => by
      rw [← List.mem_toFinset, eq, List.mem_toFinset]
  have points {t : List ℕ × List ℕ} (h : g.IsPath t) :
      (g.cellAt t).map g.vertexCoords = walk t.1 t.2 := by
    rw [cellAt, List.map_map]
    exact (List.map_congr_left fun p hp => (h.isPoint_of_mem_walk hp).coords_number).trans
      (List.map_id _)
  have walks : walk t.1 t.2 = walk u.1 u.2 := by rw [← points h, numbers, points hu]
  obtain ⟨start, axes⟩ := walk_injective (h.length.trans hu.length.symm) (fun _ => h.lt_length)
    (fun a ha => by rw [h.length, ← hu.length]; exact hu.lt_length ha) walks
  exact Prod.ext start axes

end IsPath

/-! ### Every place lies in a cell -/

lemma exists_layer {n : ℕ} (pos : 0 < n) {z : α} (low : 0 ≤ z) (high : z ≤ n) :
    ∃ c < n, (c : α) ≤ z ∧ z ≤ c + 1 := by
  induction n with
  | zero => exact absurd pos (Nat.lt_irrefl 0)
  | succ n ih =>
    rcases le_or_gt (n : α) z with le | gt
    · exact ⟨n, Nat.lt_succ_self n, le, by exact_mod_cast high⟩
    · have pos : 0 < n := by
        by_contra h
        obtain rfl := Nat.eq_zero_of_not_pos h
        exact absurd low (not_le.2 (by simpa using gt))
      obtain ⟨c, hc, bounds⟩ := ih pos gt.le
      exact ⟨c, Nat.lt_succ_of_lt hc, bounds⟩

lemma exists_box (hx : ∀ axis < g.dim, 0 ≤ x axis ∧ x axis ≤ 1) : ∃ b : List ℕ,
    b.length = g.dim ∧ ∀ i < g.dim, b.getD i 0 < g.boxes ∧
      0 ≤ g.distance x b i ∧ g.distance x b i ≤ 1 := by
  have pos : (0 : α) ≤ g.boxes := Nat.cast_nonneg _
  have layer (i : ℕ) : ∃ c, i < g.dim →
      c < g.boxes ∧ (c : α) ≤ g.boxes * x i ∧ g.boxes * x i ≤ c + 1 := by
    by_cases hi : i < g.dim
    · obtain ⟨c, hc, bounds⟩ := exists_layer g.boxes_pos (mul_nonneg pos (hx i hi).1)
        (mul_le_of_le_one_right pos (hx i hi).2)
      exact ⟨c, fun _ => ⟨hc, bounds⟩⟩
    · exact ⟨0, fun h => absurd h hi⟩
  choose c hc using layer
  refine ⟨(List.range g.dim).map c, by simp, fun i hi => ?_⟩
  have value : ((List.range g.dim).map c).getD i 0 = c i := by simp [hi]
  obtain ⟨below, low, high⟩ := hc i hi
  rw [distance, value]
  exact ⟨below, sub_nonneg.2 low, sub_le_iff_le_add'.2 high⟩

lemma exists_inHull (hx : ∀ axis < g.dim, 0 ≤ x axis ∧ x axis ≤ 1) :
    ∃ t, g.IsPath t ∧ (g.points : Dense α).InHull (g.cellAt t).toFinset x := by
  obtain ⟨b, length, hb⟩ := exists_box hx
  let farther (i k : ℕ) : Bool := decide (g.distance x b k ≤ g.distance x b i)
  have perm := List.mergeSort_perm (List.range g.dim) farther
  have sorted := @List.pairwise_mergeSort ℕ farther
    (fun i k l => by simpa [farther] using fun h h' => le_trans h' h)
    (fun i k => by simpa [farther] using le_total _ _) (List.range g.dim)
  have path : g.IsPath (b, (List.range g.dim).mergeSort farther) :=
    ⟨length, fun i hi => (hb i hi).1, perm⟩
  refine ⟨_, path, path.inHull_of_nonneg (weights_nonneg ?_ zero_le_one fun a ha => ?_)⟩
  · simpa [farther] using sorted
  · exact (hb a (path.mem_axes.1 ha)).2

lemma bounds_of_inHull (h : g.IsPath t)
    (hull : (g.points : Dense α).InHull (g.cellAt t).toFinset x) {axis : ℕ} (haxis : axis < g.dim) :
    0 ≤ x axis ∧ x axis ≤ 1 := by
  obtain ⟨w, hb⟩ := hull
  obtain ⟨low, high⟩ := (bounds_of_nonneg (h.nonneg_of_balances hb)).2 axis (h.mem_axes.2 haxis)
  have boxes : (0 : α) < g.boxes := Nat.cast_pos.2 g.boxes_pos
  have below : (t.1.getD axis 0 : α) + 1 ≤ g.boxes := by exact_mod_cast h.lt axis haxis
  rw [distance] at low high
  have start : (0 : α) ≤ t.1.getD axis 0 := Nat.cast_nonneg _
  constructor
  · exact nonneg_of_mul_nonneg_right (by linarith) boxes
  · exact le_of_mul_le_mul_left (by linarith) boxes

/-! ### The cells of the mesh -/

lemma toFinset_meshCell : (g.meshCell α t).toFinset = (g.cellAt t).toFinset :=
  List.toFinset_eq_of_perm _ _ meshCell_perm

lemma nodup_map_toFinset_cells :
    ((g.simplicial : SimplicialMesh α).cells.map List.toFinset).Nodup := by
  rw [cells_eq_map_paths, List.map_map]
  refine List.Nodup.map_on (fun t ht u hu eq => ?_) nodup_paths
  simp only [Function.comp_apply, toFinset_meshCell] at eq
  exact (mem_paths.1 ht).eq_of_toFinset (mem_paths.1 hu) eq

lemma length_cells_simplicial : (g.simplicial : SimplicialMesh α).cells.length =
    g.boxes ^ g.dim * g.dim.factorial := by
  rw [cells_eq_map_paths, List.length_map, paths, List.length_product,
    length_axisOrders List.length_range, origins, List.length_map, List.length_range]
  rfl

lemma mem_cube_iff : (∀ axis < g.dim, 0 ≤ x axis ∧ x axis ≤ 1) ↔
    ∃ cell ∈ (g.simplicial : SimplicialMesh α).cells,
      (g.points : Dense α).InHull cell.toFinset x := by
  constructor
  · intro hx
    obtain ⟨t, ht, hull⟩ := exists_inHull hx
    refine ⟨_, mem_cells_simplicial.2 ⟨t, ht, rfl⟩, ?_⟩
    rwa [toFinset_meshCell]
  · rintro ⟨cell, hcell, hull⟩ axis haxis
    obtain ⟨t, ht, rfl⟩ := mem_cells_simplicial.1 hcell
    rw [toFinset_meshCell] at hull
    exact bounds_of_inHull ht hull haxis

section Conforming

variable {cell cell' : List ℕ} (hcell : cell ∈ (g.simplicial : SimplicialMesh α).cells)
  (hcell' : cell' ∈ (g.simplicial : SimplicialMesh α).cells)
  (hull' : (g.points : Dense α).InHull cell'.toFinset x)
include hcell hcell' hull'

lemma inHull_inter (hull : (g.points : Dense α).InHull cell.toFinset x) :
    (g.points : Dense α).InHull (cell.toFinset ∩ cell'.toFinset) x := by
  obtain ⟨t, ht, rfl⟩ := mem_cells_simplicial.1 hcell
  obtain ⟨u, hu, rfl⟩ := mem_cells_simplicial.1 hcell'
  rw [toFinset_meshCell] at hull hull' ⊢
  rw [toFinset_meshCell]
  obtain ⟨w, hb⟩ := hull
  exact ⟨w, ht.balances_inter hu hb hull'⟩

/-- All corners of a cell are corners of the other one, and both have as many. -/
lemma eq_of_inInterior (interior : (g.points : Dense α).InInterior cell.toFinset x) :
    cell = cell' := by
  obtain ⟨t, ht, rfl⟩ := mem_cells_simplicial.1 hcell
  obtain ⟨u, hu, rfl⟩ := mem_cells_simplicial.1 hcell'
  rw [toFinset_meshCell] at interior hull'
  obtain ⟨w, hb, pos⟩ := interior
  have sub : (g.cellAt t).toFinset ⊆ (g.cellAt u).toFinset := fun v hv => List.mem_toFinset.2
    (ht.mem_cellAt_of_pos hu hb hull' (List.mem_toFinset.1 hv) (pos v hv))
  have card {t : List ℕ × List ℕ} (h : g.IsPath t) : (g.cellAt t).toFinset.card = g.dim + 1 := by
    rw [List.toFinset_card_of_nodup h.nodup_cellAt, h.length_cellAt]
  rw [ht.eq_of_toFinset hu (Finset.eq_of_subset_of_card_le sub (by rw [card ht, card hu]))]

end Conforming

variable (α) in
/-- **The cells are a conforming partition of the cube.** There are as many for every box as orders
of the axes, all different. A place is in the cube if it is in some cell; if it is in two cells, it
is a convex combination of the corners that they share, and in the interior of neither unless they
are the same. Each cell is positively oriented and has its share of the volume of a box. -/
theorem simplicial_partition (g : Grid) :
    let m : SimplicialMesh α := g.simplicial
    m.cells.length = g.boxes ^ g.dim * g.dim.factorial ∧
    (m.cells.map List.toFinset).Nodup ∧
    (∀ x : ℕ → α, (∀ axis < g.dim, 0 ≤ x axis ∧ x axis ≤ 1) ↔
      ∃ cell ∈ m.cells, m.points.InHull cell.toFinset x) ∧
    (∀ cell ∈ m.cells, ∀ cell' ∈ m.cells, ∀ x : ℕ → α,
      m.points.InHull cell'.toFinset x →
        (m.points.InHull cell.toFinset x →
          m.points.InHull (cell.toFinset ∩ cell'.toFinset) x) ∧
        (m.points.InInterior cell.toFinset x → cell = cell')) ∧
    ∀ cell ∈ m.cells, 0 < Simplex.det (m.cellPoints cell) ∧
      Element.volume (m.cellPoints cell) = 1 / (g.dim.factorial * g.boxes ^ g.dim) := by
  intro m
  refine ⟨length_cells_simplicial, nodup_map_toFinset_cells, fun x => mem_cube_iff,
    fun cell hcell cell' hcell' x hull' => ⟨inHull_inter hcell hcell' hull',
      eq_of_inInterior hcell hcell' hull'⟩, fun cell hcell => ⟨?_, volume_cell hcell⟩⟩
  have boxes : (0 : α) < g.boxes := Nat.cast_pos.2 g.boxes_pos
  rw [det_cell hcell]
  positivity

/-- A place in the unit square, in one of eight triangles. -/
theorem simplicial_partition_fourBoxes :
    let m : SimplicialMesh ℚ := fourBoxes.simplicial
    let x : ℕ → ℚ := fun axis => 1 / (axis + 3)
    m.cells.length = 8 ∧ (∀ axis < fourBoxes.dim, 0 ≤ x axis ∧ x axis ≤ 1) ∧
    ∃ cell ∈ m.cells, m.points.InHull cell.toFinset x ∧
      Element.volume (m.cellPoints cell) = 1 / 8 := by
  intro m x
  obtain ⟨count, -, places, -, shares⟩ := simplicial_partition ℚ fourBoxes
  have inside : ∀ axis < fourBoxes.dim, 0 ≤ x axis ∧ x axis ≤ 1 := by decide +kernel
  obtain ⟨cell, hcell, hull⟩ := (places x).1 inside
  exact ⟨count, inside, cell, hcell, hull, (shares cell hcell).2.trans (by decide +kernel)⟩

end Grid

end Eigenmesh
