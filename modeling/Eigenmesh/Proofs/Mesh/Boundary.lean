import Mathlib.Algebra.Order.Field.Basic
import Mathlib.Tactic.NormNum
import Eigenmesh.Proofs.Mesh.Orientation
import Eigenmesh.Proofs.Mesh.Pairing
import Eigenmesh.Proofs.Scalar.Rational

/-!
The boundary of the triangulated cube.

With exact coordinates, the sides that one cell has alone are those on the faces of the cube, and
their corners are the boundary points of the grid. A coordinate within the tolerance of a face is on
it as long as the boxes are longer than the tolerance.
-/

namespace Eigenmesh

variable {α : Type} [Scalar.Exact α]

/-- The points with the given numbers lie on a face of the unit cube, where the coordinate along an
axis is zero or one. The number of the face is twice the axis, and one more where the coordinate is
one. -/
def Dense.OnCubeFace (points : Dense α) (side : Finset ℕ) (face : ℕ) : Prop :=
  ∃ axis < points.rows, ∃ c < 2, face = 2 * axis + c ∧ ∀ v ∈ side, points.entry axis v = c

namespace Grid

open SimplicialMesh

variable {g : Grid} {s : List (List ℕ)} {p : List ℕ} {axis : ℕ}

/-! ### Coordinates -/

lemma IsPoint.number_lt (hp : g.IsPoint p) : g.vertexNumber p < g.vertexCount := by
  rw [vertexCount, ← hp.length]
  exact Index.number_lt hp.digits

lemma isPoint_vertexCoords {v : ℕ} : g.IsPoint (g.vertexCoords v) where
  length := Index.length_coords
  le i hi := by
    have digits : ∀ c ∈ g.vertexCoords v, c < g.boxes + 1 := fun _ =>
      Index.lt_of_mem_coords (Nat.succ_pos g.boxes)
    exact Nat.le_of_lt_succ (forall_mem_lt_iff_getD.1 digits i (by simpa [vertexCoords] using hi))

lemma entry_points (hp : g.IsPoint p) (haxis : axis < g.dim) :
    (g.points : Dense α).entry axis (g.vertexNumber p) = (p.getD axis 0 : α) / g.boxes := by
  have position : (g.position (g.vertexNumber p) : List α) =
      p.map fun c : ℕ => (Nat.cast c : α) * g.meshWidth := by
    rw [position, hp.coords_number]
  rw [points, Dense.ofCols, Dense.entry_ofFn _ haxis (by simpa using hp.number_lt)]
  have hi := hp.length.symm ▸ haxis
  simp [hp.number_lt, position, hi, meshWidth, div_eq_mul_inv]

lemma entry_points_eq_iff (hp : g.IsPoint p) (haxis : axis < g.dim) (c : ℕ) :
    (g.points : Dense α).entry axis (g.vertexNumber p) = c ↔ p.getD axis 0 = c * g.boxes := by
  have boxes : (g.boxes : α) ≠ 0 := Nat.cast_ne_zero.2 (Nat.ne_of_gt g.boxes_pos)
  rw [entry_points hp haxis, div_eq_iff boxes]
  exact_mod_cast Iff.rfl

lemma onCubeFace_iff (hs : ∀ p ∈ s, g.IsPoint p) {face : ℕ} :
    (g.points : Dense α).OnCubeFace (s.map g.vertexNumber).toFinset face ↔ g.OnFace s face := by
  have corners {axis : ℕ} (haxis : axis < g.dim) (c : ℕ) :
      (∀ v ∈ (s.map g.vertexNumber).toFinset, (g.points : Dense α).entry axis v = c) ↔
        ∀ p ∈ s, p.getD axis 0 = c * g.boxes := by
    simp only [List.mem_toFinset, List.forall_mem_map]
    exact forall₂_congr fun p hp => entry_points_eq_iff (hs p hp) haxis c
  rw [onFace_iff]
  exact exists_congr fun axis => and_congr_right fun haxis => exists_congr fun c =>
    and_congr_right fun _ => and_congr_right fun _ => corners haxis c

lemma tolerance_eq : (1e-12 : α) = 1 / 10 ^ 12 := by
  rw [Scalar.Exact.ofScientific_eq]
  norm_num

lemma abs_sub_lt (hp : g.IsPoint p) (haxis : axis < g.dim) {c : ℕ}
    (h : p.getD axis 0 = c * g.boxes) :
    Scalar.abs ((g.points : Dense α).entry axis (g.vertexNumber p) - c) < (1e-12 : α) := by
  rw [(entry_points_eq_iff hp haxis c).2 h, Scalar.abs_eq, sub_self, abs_zero, tolerance_eq]
  norm_num

lemma eq_of_abs_sub_lt (small : g.boxes ≤ 10 ^ 11) (hp : g.IsPoint p) (haxis : axis < g.dim) {c : ℕ}
    (h : Scalar.abs ((g.points : Dense α).entry axis (g.vertexNumber p) - c) < (1e-12 : α)) :
    p.getD axis 0 = c * g.boxes := by
  have pos : (0 : α) < g.boxes := Nat.cast_pos.2 g.boxes_pos
  rw [Scalar.abs_eq, tolerance_eq, entry_points hp haxis] at h
  by_contra hne
  have apart : (1 : α) ≤ |(p.getD axis 0 : α) - c * g.boxes| := by
    have : (1 : ℤ) ≤ |(p.getD axis 0 : ℤ) - c * g.boxes| := by
      refine Int.one_le_abs (sub_ne_zero.2 fun eq => hne ?_)
      exact_mod_cast eq
    exact_mod_cast this
  have scaled : |(p.getD axis 0 : α) / g.boxes - c| * g.boxes =
      |(p.getD axis 0 : α) - c * g.boxes| := by
    rw [← abs_of_pos pos, ← abs_mul, abs_of_pos pos, sub_mul, div_mul_cancel₀ _ pos.ne']
  have few : (g.boxes : α) ≤ 10 ^ 11 := by exact_mod_cast small
  have : |(p.getD axis 0 : α) / g.boxes - c| * g.boxes < 1 :=
    calc _ < 1 / 10 ^ 12 * (g.boxes : α) := mul_lt_mul_of_pos_right h pos
      _ ≤ 1 / 10 ^ 12 * 10 ^ 11 := mul_le_mul_of_nonneg_left few (by norm_num)
      _ < 1 := by norm_num
  exact absurd apart (not_le.2 (scaled ▸ this))

lemma all_near_iff {corners : Dense α}
    (hcorners : (g.points : Dense α).selectCols (s.map g.vertexNumber) = corners)
    (haxis : axis < g.dim) {c : ℕ} {x : α} (hx : x = c) :
    ((List.range corners.cols).all fun k =>
      decide (Scalar.abs (corners.entry axis k - x) < (1e-12 : α))) = true ↔
        ∀ p ∈ s, Scalar.abs ((g.points : Dense α).entry axis (g.vertexNumber p) - c) <
          (1e-12 : α) := by
  have cols : ((g.points : Dense α).selectCols (s.map g.vertexNumber)).cols = s.length :=
    List.length_map _
  subst hx hcorners
  rw [List.all_eq_true, cols, @List.forall_mem_iff_getElem _ s]
  simp only [List.mem_range, decide_eq_true_eq]
  refine forall₂_congr fun k hk => ?_
  rw [Dense.entry_selectCols _ _ haxis (by simpa), List.getElem_map]

lemma exists_cubeFace_of_onFace (hs : ∀ p ∈ s, g.IsPoint p) {face : ℕ} (h : g.OnFace s face) :
    ∃ f, cubeFace ((g.points : Dense α).selectCols (s.map g.vertexNumber)) = some f := by
  generalize hcorners : (g.points : Dense α).selectCols (s.map g.vertexNumber) = corners
  have rows : corners.rows = g.dim := hcorners ▸ rfl
  rw [← Option.isSome_iff_exists, Option.isSome_iff_ne_none]
  intro missed
  rw [cubeFace, rows, List.findSome?_eq_none_iff] at missed
  obtain ⟨axis, haxis, c, hc, -, h⟩ := onFace_iff.1 h
  replace missed := missed axis (List.mem_range.2 haxis)
  have low := all_near_iff hcorners haxis (c := 0) Nat.cast_zero.symm
  have high := all_near_iff hcorners haxis (c := 1) Nat.cast_one.symm
  obtain rfl | rfl : c = 0 ∨ c = 1 := by omega
  · rw [if_pos (low.2 fun p hp => abs_sub_lt (hs p hp) haxis (h p hp))] at missed
    exact nomatch missed
  · split at missed
    · exact nomatch missed
    · rw [if_pos (high.2 fun p hp => abs_sub_lt (hs p hp) haxis (h p hp))] at missed
      exact nomatch missed

lemma onFace_of_cubeFace (small : g.boxes ≤ 10 ^ 11) (hs : ∀ p ∈ s, g.IsPoint p) {face : ℕ}
    (found : cubeFace ((g.points : Dense α).selectCols (s.map g.vertexNumber)) = some face) :
    g.OnFace s face := by
  generalize hcorners : (g.points : Dense α).selectCols (s.map g.vertexNumber) = corners at found
  have rows : corners.rows = g.dim := hcorners ▸ rfl
  rw [cubeFace, rows] at found
  obtain ⟨axis, haxis, hf⟩ := List.exists_of_findSome?_eq_some found
  have haxis := List.mem_range.1 haxis
  have low := all_near_iff hcorners haxis (c := 0) Nat.cast_zero.symm
  have high := all_near_iff hcorners haxis (c := 1) Nat.cast_one.symm
  rw [onFace_iff]
  split at hf
  case isTrue near => exact ⟨axis, haxis, 0, Nat.two_pos, (Option.some.inj hf).symm,
    fun p hp => eq_of_abs_sub_lt small (hs p hp) haxis (low.1 near p hp)⟩
  case isFalse =>
    split at hf
    case isTrue near => exact ⟨axis, haxis, 1, Nat.one_lt_two, (Option.some.inj hf).symm,
      fun p hp => eq_of_abs_sub_lt small (hs p hp) haxis (high.1 near p hp)⟩
    case isFalse => exact nomatch hf

lemma cubeFace_eq_some (small : g.boxes ≤ 10 ^ 11) (hs : ∀ p ∈ s, g.IsPoint p) {face : ℕ}
    (unique : ∀ f, g.OnFace s f ↔ f = face) :
    cubeFace ((g.points : Dense α).selectCols (s.map g.vertexNumber)) = some face := by
  obtain ⟨f, found⟩ := exists_cubeFace_of_onFace (α := α) hs ((unique face).2 rfl)
  rwa [(unique f).1 (onFace_of_cubeFace small hs found)] at found

/-! ### The mesh -/

lemma nodup_of_mem_kuhnCells : ∀ cell ∈ g.kuhnCells, cell.Nodup := by
  rw [kuhnCells_eq_map_paths, List.forall_mem_map]
  exact fun t ht => (mem_paths.1 ht).nodup_cellAt

lemma length_of_mem_kuhnCells : ∀ cell ∈ g.kuhnCells, cell.length = g.dim + 1 := by
  rw [kuhnCells_eq_map_paths, List.forall_mem_map]
  exact fun t ht => (mem_paths.1 ht).length_cellAt

lemma exists_side {side : Finset ℕ} (card : side.card = g.dim) (h : 0 < sharing g.kuhnCells side) :
    ∃ t, g.IsPath t ∧ ∃ s ∈ Simplex.sides (walk t.1 t.2),
      (s.map g.vertexNumber).toFinset = side := by
  obtain ⟨cell, hcell, hside⟩ := List.countP_pos_iff.1 h
  rw [kuhnCells_eq_map_paths] at hcell
  obtain ⟨t, ht, rfl⟩ := List.mem_map.1 hcell
  have ht := mem_paths.1 ht
  exact ⟨t, ht, (ht.subset_cellAt_iff card).1 (of_decide_eq_true hside)⟩

lemma length_singles_kuhnCells : (singles (sides g.kuhnCells)).length =
    2 * g.dim * (g.dim - 1).factorial * g.boxes ^ (g.dim - 1) := by
  rw [length_singles_sides nodup_of_mem_kuhnCells length_of_mem_kuhnCells, ← countP_adjacent_paths,
    List.countP_flatMap, List.countP_flatMap, kuhnCells_eq_map_paths, List.map_map]
  refine congrArg List.sum (List.map_congr_left fun t ht => ?_)
  have ht := mem_paths.1 ht
  simp only [Function.comp_apply]
  rw [cellAt, Simplex.sides_map, List.countP_map, ← kuhnCells_eq_map_paths]
  refine List.countP_congr fun s hs => ?_
  rw [Function.comp_apply, ht.sharing_eq_adjacent hs]

lemma mem_singles_kuhnCells {side : List ℕ} : side ∈ singles (sides g.kuhnCells) ↔
    ∃ t, g.IsPath t ∧ ∃ s ∈ Simplex.sides (walk t.1 t.2),
      s.map g.vertexNumber = side ∧ g.adjacent s = 1 := by
  rw [mem_singles_sides nodup_of_mem_kuhnCells length_of_mem_kuhnCells]
  constructor
  · rintro ⟨increasing, length, single⟩
    have card : side.toFinset.card = g.dim := by
      rw [List.toFinset_card_of_nodup (increasing.imp ne_of_lt), length]
    obtain ⟨t, ht, s, hs, eq⟩ := exists_side card (single ▸ Nat.one_pos)
    refine ⟨t, ht, s, hs, (ht.pairwise_map_side hs).eq_of_mem_iff increasing fun v => ?_, ?_⟩
    · rw [← List.mem_toFinset, eq, List.mem_toFinset]
    · rw [← ht.sharing_eq_adjacent hs, eq, single]
  · rintro ⟨t, ht, s, hs, rfl, single⟩
    exact ⟨ht.pairwise_map_side hs, by rw [List.length_map, ht.length_side hs],
      (ht.sharing_eq_adjacent hs).trans single⟩

lemma facets_simplicial : (g.simplicial : SimplicialMesh α).facets =
    (singles (sides g.kuhnCells)).filterMap fun side =>
      (cubeFace ((g.points : Dense α).selectCols side)).map fun face => ⟨face, side⟩ := by
  rw [← sides_map_of_perm fun cell _ => orient_perm (g.points : Dense α) cell]
  rfl

lemma mem_boundary_simplicial {v : ℕ} : v ∈ (g.simplicial : SimplicialMesh α).boundary ↔
    ∃ f ∈ (g.simplicial : SimplicialMesh α).facets, v ∈ f.vertices := mem_corners

lemma lt_of_mem_boundary {v : ℕ} (h : v ∈ (g.simplicial : SimplicialMesh α).boundary) :
    v < g.vertexCount := by
  obtain ⟨facet, hfacet, hv⟩ := mem_boundary_simplicial.1 h
  rw [facets_simplicial] at hfacet
  obtain ⟨side, hside, hfacet⟩ := List.mem_filterMap.1 hfacet
  obtain ⟨face, -, rfl⟩ := Option.map_eq_some_iff.1 hfacet
  obtain ⟨t, ht, s, hs, rfl, -⟩ := mem_singles_kuhnCells.1 hside
  obtain ⟨p, hp, rfl⟩ := List.mem_map.1 hv
  exact (ht.isPoint_of_mem_sides hs p hp).number_lt

/-- However short the boxes are, no point on the boundary is missed. -/
lemma mem_boundary_of_onBoundary {v : ℕ} (hv : v < g.vertexCount) (h : g.onBoundary v = true) :
    v ∈ (g.simplicial : SimplicialMesh α).boundary := by
  obtain ⟨c, hc, bound⟩ := List.any_eq_true.1 h
  simp only [Bool.or_eq_true, decide_eq_true_eq] at bound
  obtain ⟨axis, haxis, rfl⟩ := List.mem_iff_getElem.1 hc
  rw [← List.getD_eq_getElem _ 0 haxis] at bound
  obtain ⟨t, ht, s, hs, hp, single⟩ := exists_adjacent_eq_one isPoint_vertexCoords
    (isPoint_vertexCoords.length ▸ haxis) bound
  rcases ht.adjacent_cases hs with ⟨-, face, unique⟩ | ⟨double, -⟩
  · obtain ⟨f, found⟩ :=
      exists_cubeFace_of_onFace (α := α) (ht.isPoint_of_mem_sides hs) ((unique face).2 rfl)
    refine mem_boundary_simplicial.2 ⟨⟨f, s.map g.vertexNumber⟩, ?_, ?_⟩
    · rw [facets_simplicial, List.mem_filterMap]
      exact ⟨_, mem_singles_kuhnCells.2 ⟨t, ht, s, hs, rfl, single⟩, by rw [found]; rfl⟩
    · exact List.mem_map.2 ⟨_, hp, vertexNumber_vertexCoords hv⟩
  · exact absurd (single.symm.trans double) (Nat.ne_of_lt Nat.one_lt_two)

section Facets

variable (small : g.boxes ≤ 10 ^ 11)
include small

variable (α) in
lemma exists_cubeFace {t : List ℕ × List ℕ} (ht : g.IsPath t)
    (hs : s ∈ Simplex.sides (walk t.1 t.2)) (single : g.adjacent s = 1) :
    ∃ face, cubeFace ((g.points : Dense α).selectCols (s.map g.vertexNumber)) = some face ∧
      ∀ f, g.OnFace s f ↔ f = face := by
  rcases ht.adjacent_cases hs with ⟨-, face, unique⟩ | ⟨double, -⟩
  · exact ⟨face, cubeFace_eq_some small (ht.isPoint_of_mem_sides hs) unique, unique⟩
  · exact absurd (single.symm.trans double) (Nat.ne_of_lt Nat.one_lt_two)

lemma mem_facets_simplicial {facet : Facet} : facet ∈ (g.simplicial : SimplicialMesh α).facets ↔
    ∃ t, g.IsPath t ∧ ∃ s ∈ Simplex.sides (walk t.1 t.2), s.map g.vertexNumber = facet.vertices ∧
      g.adjacent s = 1 ∧ ∀ f, g.OnFace s f ↔ f = facet.face := by
  rw [facets_simplicial, List.mem_filterMap]
  simp only [mem_singles_kuhnCells, Option.map_eq_some_iff]
  constructor
  · rintro ⟨_, ⟨t, ht, s, hs, rfl, single⟩, face, hface, rfl⟩
    obtain ⟨face', found, unique⟩ := exists_cubeFace α small ht hs single
    obtain rfl := Option.some.inj (hface.symm.trans found)
    exact ⟨t, ht, s, hs, rfl, single, unique⟩
  · rintro ⟨t, ht, s, hs, vertices, single, unique⟩
    refine ⟨_, ⟨t, ht, s, hs, rfl, single⟩, facet.face,
      cubeFace_eq_some small (ht.isPoint_of_mem_sides hs) unique, ?_⟩
    rw [vertices]

lemma mem_facets_simplicial_iff {facet : Facet} :
    facet ∈ (g.simplicial : SimplicialMesh α).facets ↔
      facet.vertices ∈ singles (sides g.kuhnCells) ∧
      ∀ face, (g.points : Dense α).OnCubeFace facet.vertices.toFinset face ↔ face = facet.face := by
  rw [mem_facets_simplicial small, mem_singles_kuhnCells]
  constructor
  · rintro ⟨t, ht, s, hs, vertices, single, unique⟩
    refine ⟨⟨t, ht, s, hs, vertices, single⟩, fun face => ?_⟩
    rw [← vertices, onCubeFace_iff (ht.isPoint_of_mem_sides hs), unique]
  · rintro ⟨⟨t, ht, s, hs, vertices, single⟩, unique⟩
    refine ⟨t, ht, s, hs, vertices, single, fun face => ?_⟩
    rw [← unique, ← vertices, onCubeFace_iff (ht.isPoint_of_mem_sides hs)]

lemma vertices_facets_simplicial :
    (g.simplicial : SimplicialMesh α).facets.map (·.vertices) = singles (sides g.kuhnCells) := by
  rw [facets_simplicial, List.map_filterMap]
  refine (List.filterMap_congr fun side hside => ?_).trans List.filterMap_some
  obtain ⟨t, ht, s, hs, rfl, single⟩ := mem_singles_kuhnCells.1 hside
  obtain ⟨face, found, -⟩ := exists_cubeFace α small ht hs single
  rw [found]
  rfl

lemma boundary_simplicial : (g.simplicial : SimplicialMesh α).boundary = g.boundaryVertices := by
  have increasing : g.boundaryVertices.Pairwise (· < ·) := List.pairwise_lt_range.filter _
  refine (pairwise_corners _).eq_of_mem_iff increasing fun v => ?_
  rw [boundaryVertices, List.mem_filter, List.mem_range]
  refine ⟨fun h => ⟨lt_of_mem_boundary h, ?_⟩, fun h => mem_boundary_of_onBoundary h.1 h.2⟩
  obtain ⟨facet, hfacet, hv⟩ := mem_boundary_simplicial.1 h
  obtain ⟨t, ht, s, hs, vertices, -, unique⟩ := (mem_facets_simplicial small).1 hfacet
  rw [← vertices] at hv
  obtain ⟨p, hp, rfl⟩ := List.mem_map.1 hv
  have point := ht.isPoint_of_mem_sides hs p hp
  obtain ⟨axis, haxis, c, hc, -, h⟩ := onFace_iff.1 ((unique _).2 rfl)
  have value := h p hp
  rw [List.getD_eq_getElem _ 0 (point.length.symm ▸ haxis)] at value
  rw [onBoundary, point.coords_number, List.any_eq_true]
  refine ⟨_, List.getElem_mem (point.length.symm ▸ haxis), ?_⟩
  simp only [Bool.or_eq_true, decide_eq_true_eq]
  obtain rfl | rfl : c = 0 ∨ c = 1 := by omega
  · exact .inl (by omega)
  · exact .inr (by omega)

end Facets

variable (α) in
/-- **The sides on the boundary are those on the faces of the cube.** A side belongs to one cell or
to two, and to one if it lies on a face. The facets of the mesh are these sides, each once and with
the only face that it lies on, and their corners are the boundary points of the grid. -/
theorem simplicial_boundary (g : Grid) (small : g.boxes ≤ 10 ^ 11) :
    let m : SimplicialMesh α := g.simplicial
    (∀ side : Finset ℕ, side.card = g.dim → 0 < sharing m.cells side →
      (sharing m.cells side = 1 ∨ sharing m.cells side = 2) ∧
      (sharing m.cells side = 1 ↔ ∃ face, m.points.OnCubeFace side face)) ∧
    (∀ facet : Facet, facet ∈ m.facets ↔
      facet.vertices.Pairwise (· < ·) ∧ facet.vertices.length = g.dim ∧
      sharing m.cells facet.vertices.toFinset = 1 ∧
      ∀ face, m.points.OnCubeFace facet.vertices.toFinset face ↔ face = facet.face) ∧
    (m.facets.map (·.vertices)).Nodup ∧
    m.facets.length = 2 * g.dim * (g.dim - 1).factorial * g.boxes ^ (g.dim - 1) ∧
    m.boundary = g.boundaryVertices := by
  intro m
  have cells (side : Finset ℕ) : sharing m.cells side = sharing g.kuhnCells side :=
    sharing_map_of_perm (fun cell _ => orient_perm (g.points : Dense α) cell) side
  have vertices : m.facets.map (·.vertices) = singles (sides g.kuhnCells) :=
    vertices_facets_simplicial small
  refine ⟨fun side card shared => ?_, fun facet => ?_, ?_, ?_, boundary_simplicial small⟩
  · rw [cells] at shared ⊢
    obtain ⟨t, ht, s, hs, rfl⟩ := exists_side card shared
    have faces : (∃ face, m.points.OnCubeFace (s.map g.vertexNumber).toFinset face) ↔
        ∃ face, g.OnFace s face :=
      exists_congr fun _ => onCubeFace_iff (ht.isPoint_of_mem_sides hs)
    rw [faces, ht.sharing_eq_adjacent hs]
    rcases ht.adjacent_cases hs with ⟨single, face, unique⟩ | ⟨double, inner⟩
    · exact ⟨.inl single, fun _ => ⟨face, (unique face).2 rfl⟩, fun _ => single⟩
    · refine ⟨.inr double, fun single => ?_, fun ⟨face, h⟩ => absurd h (inner face)⟩
      exact absurd (single.symm.trans double) (Nat.ne_of_lt Nat.one_lt_two)
  · rw [mem_facets_simplicial_iff small,
      mem_singles_sides nodup_of_mem_kuhnCells length_of_mem_kuhnCells, cells, and_assoc, and_assoc]
    rfl
  · rw [vertices]
    exact nodup_singles precedes_antisymm (pairwise_sides _)
  · rw [← length_singles_kuhnCells, ← vertices, List.length_map]

/-- The square cut into four boxes. -/
def fourBoxes : Grid := ⟨2, 2, by decide, by decide, by decide⟩

/-- Two facets on each side of the square, and all points but the one in the middle. -/
theorem simplicial_boundary_fourBoxes : fourBoxes.boxes ≤ 10 ^ 11 ∧
    (fourBoxes.simplicial : SimplicialMesh ℚ).facets.length = 8 ∧
    (fourBoxes.simplicial : SimplicialMesh ℚ).boundary = [0, 1, 2, 3, 5, 6, 7, 8] := by
  have small : fourBoxes.boxes ≤ 10 ^ 11 := by decide
  obtain ⟨-, -, -, length, boundary⟩ := simplicial_boundary ℚ fourBoxes small
  exact ⟨small, length, boundary.trans (by decide)⟩

end Grid

end Eigenmesh
