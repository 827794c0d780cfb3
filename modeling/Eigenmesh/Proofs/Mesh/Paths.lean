import Mathlib.Data.Nat.Factorial.Basic
import Eigenmesh.Proofs.Mesh.Numbering
import Eigenmesh.Proofs.Mesh.Walks

/-!
The cells of a grid as walks.

A cell walks from the lowest corner of a box to the highest, along each axis once. Two cells meet in
a side in one of two ways: they go through the same box and take two steps in different order, or
the one begins with the step that the other ends with.
-/

namespace Eigenmesh.Grid

/-! ### The orders of the axes -/

lemma mem_axisOrders {axes order : List ℕ} :
    order ∈ axisOrders axes.length axes ↔ order.Perm axes := by
  induction h : axes.length generalizing axes order with
  | zero =>
    obtain rfl := List.eq_nil_of_length_eq_zero h
    rw [axisOrders, List.mem_singleton, List.perm_nil]
  | succ n ih =>
    rw [axisOrders, List.mem_flatMap]
    have erased {a : ℕ} (ha : a ∈ axes) : (axes.erase a).length = n := by
      rw [List.length_erase_of_mem ha, h, Nat.add_sub_cancel]
    constructor
    · rintro ⟨a, ha, horder⟩
      obtain ⟨rest, hrest, rfl⟩ := List.mem_map.1 horder
      exact List.cons_perm_iff_perm_erase.2 ⟨ha, (ih (erased ha)).1 hrest⟩
    · intro hperm
      cases order with
      | nil => rw [← hperm.length_eq] at h; exact absurd h (Nat.succ_ne_zero n).symm
      | cons a rest =>
        obtain ⟨ha, hrest⟩ := List.cons_perm_iff_perm_erase.1 hperm
        exact ⟨a, ha, List.mem_map_of_mem ((ih (erased ha)).2 hrest)⟩

lemma mem_axisOrders_range {n : ℕ} {order : List ℕ} :
    order ∈ axisOrders n (List.range n) ↔ order.Perm (List.range n) := by
  rw [← mem_axisOrders, List.length_range]

lemma nodup_axisOrders {n : ℕ} {axes : List ℕ} (h : axes.Nodup) : (axisOrders n axes).Nodup := by
  induction n generalizing axes with
  | zero => exact List.nodup_singleton _
  | succ n ih =>
    rw [axisOrders, List.nodup_flatMap]
    refine ⟨fun a _ => (ih (h.erase a)).map fun _ _ => List.tail_eq_of_cons_eq, h.imp fun hne => ?_⟩
    intro order ha hb
    obtain ⟨_, -, rfl⟩ := List.mem_map.1 ha
    obtain ⟨_, -, eq⟩ := List.mem_map.1 hb
    exact hne (List.head_eq_of_cons_eq eq).symm

lemma length_axisOrders {n : ℕ} {axes : List ℕ} (h : axes.length = n) :
    (axisOrders n axes).length = n.factorial := by
  induction n generalizing axes with
  | zero => rfl
  | succ n ih =>
    rw [axisOrders, List.length_flatMap, List.map_congr_left fun a ha => ?_, List.map_const',
      List.sum_replicate_nat, h, Nat.factorial_succ]
    rw [List.length_map, ih (by rw [List.length_erase_of_mem ha, h, Nat.add_sub_cancel])]

/-! ### The walks of the cells -/

variable (g : Grid)

/-- The lowest corners of the boxes. -/
def origins : List (List ℕ) := (List.range g.boxCount).map g.boxCoords

/-- Where each cell starts and in which order it goes along the axes. -/
def paths : List (List ℕ × List ℕ) := g.origins ×ˢ axisOrders g.dim (List.range g.dim)

def cellAt (t : List ℕ × List ℕ) : List ℕ := (walk t.1 t.2).map g.vertexNumber

lemma kuhnCells_eq_map_paths : g.kuhnCells = g.paths.map g.cellAt := by
  change _ = (g.origins.flatMap fun b => (axisOrders g.dim (List.range g.dim)).map
    (Prod.mk b)).map g.cellAt
  rw [kuhnCells, origins, List.flatMap_map, List.map_flatMap]
  simp only [List.map_map]
  rfl

/-- A path starts at the lowest corner of a box and goes along each axis once. -/
structure IsPath (t : List ℕ × List ℕ) : Prop where
  length : t.1.length = g.dim
  lt : ∀ i < g.dim, t.1.getD i 0 < g.boxes
  perm : t.2.Perm (List.range g.dim)

/-- A point of the grid. -/
structure IsPoint (p : List ℕ) : Prop where
  length : p.length = g.dim
  le : ∀ i < g.dim, p.getD i 0 ≤ g.boxes

variable {g} {t : List ℕ × List ℕ}

lemma forall_mem_lt_iff_getD {p : List ℕ} {n : ℕ} :
    (∀ c ∈ p, c < n) ↔ ∀ i < p.length, p.getD i 0 < n := by
  rw [List.forall_mem_iff_getElem]
  exact forall₂_congr fun i hi => by rw [List.getD_eq_getElem _ 0 hi]

lemma mem_origins {b : List ℕ} :
    b ∈ g.origins ↔ b.length = g.dim ∧ ∀ i < g.dim, b.getD i 0 < g.boxes := by
  rw [origins, List.mem_map]
  constructor
  · rintro ⟨k, -, rfl⟩
    have length : (g.boxCoords k).length = g.dim := Index.length_coords
    refine ⟨length, ?_⟩
    rw [← length, ← forall_mem_lt_iff_getD]
    exact fun c hc => Index.lt_of_mem_coords g.boxes_pos hc
  · rintro ⟨length, h⟩
    rw [← length, ← forall_mem_lt_iff_getD] at h
    refine ⟨Index.number g.boxes b, List.mem_range.2 ?_, ?_⟩
    · rw [boxCount, ← length]
      exact Index.number_lt h
    · rw [boxCoords, ← length, Index.coords_number h]

lemma mem_paths : t ∈ g.paths ↔ g.IsPath t := by
  obtain ⟨b, axes⟩ := t
  rw [paths, List.mem_product, mem_origins, mem_axisOrders_range]
  exact ⟨fun h => ⟨h.1.1, h.1.2, h.2⟩, fun h => ⟨⟨h.length, h.lt⟩, h.perm⟩⟩

lemma nodup_origins : g.origins.Nodup := by
  refine List.Nodup.map_on (fun k hk l hl eq => ?_) List.nodup_range
  rw [← Index.number_coords (List.mem_range.1 hk), ← Index.number_coords (List.mem_range.1 hl)]
  exact congrArg (Index.number g.boxes) eq

lemma nodup_paths : g.paths.Nodup :=
  nodup_origins.product (nodup_axisOrders List.nodup_range)

namespace IsPath

variable (h : g.IsPath t)
include h

lemma mem_axes {a : ℕ} : a ∈ t.2 ↔ a < g.dim := by rw [h.perm.mem_iff, List.mem_range]

lemma nodup_axes : t.2.Nodup := h.perm.nodup_iff.2 List.nodup_range

lemma length_axes : t.2.length = g.dim := by rw [h.perm.length_eq, List.length_range]

lemma lt_length {a : ℕ} (ha : a ∈ t.2) : a < t.1.length := by
  rw [h.length]
  exact h.mem_axes.1 ha

lemma isPoint_of_mem_walk {p : List ℕ} (hp : p ∈ walk t.1 t.2) : g.IsPoint p := by
  obtain ⟨l, hl, rfl⟩ := mem_walk.1 hp
  refine ⟨by rw [length_advance, h.length], fun i hi => ?_⟩
  rw [getD_advance (h.length.symm ▸ hi)]
  have once := List.nodup_iff_count_le_one.1 (hl.sublist.nodup h.nodup_axes) i
  have := h.lt i hi
  omega

end IsPath

lemma IsPoint.digits {p : List ℕ} (hp : g.IsPoint p) : ∀ c ∈ p, c < g.verticesPerAxis :=
  forall_mem_lt_iff_getD.2 fun i hi => Nat.lt_succ_of_le (hp.le i (hp.length ▸ hi))

lemma IsPoint.coords_number {p : List ℕ} (hp : g.IsPoint p) :
    g.vertexCoords (g.vertexNumber p) = p := by
  rw [vertexCoords, vertexNumber, ← hp.length, Index.coords_number hp.digits]

lemma vertexNumber_vertexCoords {v : ℕ} (hv : v < g.vertexCount) :
    g.vertexNumber (g.vertexCoords v) = v := Index.number_coords hv

lemma eq_of_vertexCoords {v w : ℕ} (hv : v < g.vertexCount) (hw : w < g.vertexCount)
    (h : g.vertexCoords v = g.vertexCoords w) : v = w := by
  rw [← vertexNumber_vertexCoords hv, h, vertexNumber_vertexCoords hw]

/-! ### Cells increase -/

lemma vertexNumber_lt_advance {cart : List ℕ} {a : ℕ} (ha : a < cart.length) :
    g.vertexNumber cart < g.vertexNumber (advance cart [a]) := by
  change _ < Index.number _ (cart.modify a (· + 1))
  rw [Index.number_modify ha]
  exact Nat.lt_add_of_pos_right (Nat.pow_pos (Nat.succ_pos g.boxes))

lemma pairwise_map_walk {cart axes : List ℕ} (h : ∀ a ∈ axes, a < cart.length) :
    ((walk cart axes).map g.vertexNumber).Pairwise (· < ·) := by
  induction axes generalizing cart with
  | nil => exact List.pairwise_singleton _ _
  | cons a axes ih =>
    have next := @ih (advance cart [a])
      fun b hb => by rw [length_advance]; exact h b (List.mem_cons_of_mem _ hb)
    rw [walk_cons, List.map_cons, List.pairwise_cons]
    refine ⟨fun v hv => ?_, next⟩
    have step := vertexNumber_lt_advance (g := g) (h a List.mem_cons_self)
    cases axes with
    | nil =>
      obtain rfl := List.mem_singleton.1 hv
      exact step
    | cons b axes =>
      rcases List.mem_cons.1 hv with rfl | hv
      · exact step
      · exact step.trans ((List.pairwise_cons.1 next).1 v hv)

namespace IsPath

variable (h : g.IsPath t)
include h

lemma pairwise_cellAt : (g.cellAt t).Pairwise (· < ·) := pairwise_map_walk fun _ => h.lt_length

lemma nodup_cellAt : (g.cellAt t).Nodup := h.pairwise_cellAt.imp ne_of_lt

lemma length_cellAt : (g.cellAt t).length = g.dim + 1 := by
  rw [cellAt, List.length_map, length_walk, h.length_axes]

lemma isPoint_of_mem_sides {s : List (List ℕ)} (hs : s ∈ Simplex.sides (walk t.1 t.2)) :
    ∀ p ∈ s, g.IsPoint p := fun _ hp =>
  h.isPoint_of_mem_walk ((Simplex.mem_sides_iff_sublist.1 hs).1.subset hp)

lemma pairwise_map_side {s : List (List ℕ)} (hs : s ∈ Simplex.sides (walk t.1 t.2)) :
    (s.map g.vertexNumber).Pairwise (· < ·) :=
  h.pairwise_cellAt.sublist ((Simplex.mem_sides_iff_sublist.1 hs).1.map _)

lemma length_side {s : List (List ℕ)} (hs : s ∈ Simplex.sides (walk t.1 t.2)) :
    s.length = g.dim := by
  have := (Simplex.mem_sides_iff_sublist.1 hs).2
  rw [length_walk, h.length_axes] at this
  exact Nat.succ.inj this

lemma card_side {s : List (List ℕ)} (hs : s ∈ Simplex.sides (walk t.1 t.2)) :
    (s.map g.vertexNumber).toFinset.card = g.dim := by
  rw [List.toFinset_card_of_nodup ((h.pairwise_map_side hs).imp ne_of_lt), List.length_map,
    h.length_side hs]

lemma subset_cellAt_iff {side : Finset ℕ} (card : side.card = g.dim) :
    side ⊆ (g.cellAt t).toFinset ↔
      ∃ s ∈ Simplex.sides (walk t.1 t.2), (s.map g.vertexNumber).toFinset = side := by
  rw [Simplex.subset_toFinset_iff h.nodup_cellAt (by rw [card, h.length_cellAt]),
    cellAt, Simplex.sides_map]
  simp only [List.mem_map, exists_exists_and_eq_and]

end IsPath

end Eigenmesh.Grid
