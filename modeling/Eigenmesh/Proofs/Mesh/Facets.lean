import Eigenmesh.Proofs.Assembly.Rearranged
import Eigenmesh.Proofs.Mesh.Sides

/-!
The boundary of a mesh of any cells.

Cells may repeat corners, lie on each other or meet in threes: what decides is how often a side
occurs when one corner after the other is left out of every cell. This does not change with the
order of the cells or of their corners. A table of these numbers may list the sides in any order,
since the facets are sorted and no two have the same corners.
-/

namespace Eigenmesh

namespace Simplex

lemma sides_eq_map_eraseIdx {β : Type} (cell : List β) :
    sides cell = (List.range cell.length).map cell.eraseIdx := by
  induction cell with
  | nil => rfl
  | cons v cell ih =>
    rw [sides, ih, List.length_cons, List.range_succ_eq_map, List.map_cons, List.map_map,
      List.map_map]
    rfl

end Simplex

namespace SimplicialMesh

/-- A cell as it was, or with its first two corners exchanged. -/
inductive Turned : List ℕ → List ℕ → Prop
  | kept (cell : List ℕ) : Turned cell cell
  | exchanged (a b : ℕ) (rest : List ℕ) : Turned (a :: b :: rest) (b :: a :: rest)

lemma turned_orient {α : Type} [Scalar α] (points : Dense α) (cell : List ℕ) :
    Turned cell (orient points cell) := by
  unfold orient
  split
  · split
    · exact .exchanged _ _ _
    · exact .kept _
  · exact .kept _

/-! ### How often a side occurs -/

/-- What is left of each cell without one of its corners, sorted, for all cells and all corners. -/
def omissions (cells : List (List ℕ)) : List (List ℕ) :=
  cells.flatMap fun cell => (List.range cell.length).map fun i => sorted (cell.eraseIdx i)

variable {cells cells' : List (List ℕ)}

lemma omissions_eq (cells : List (List ℕ)) :
    omissions cells = cells.flatMap fun cell => (Simplex.sides cell).map sorted :=
  List.flatMap_congr fun cell _ => by
    rw [Simplex.sides_eq_map_eraseIdx, List.map_map]
    rfl

lemma sides_perm_omissions (cells : List (List ℕ)) : (sides cells).Perm (omissions cells) := by
  rw [sides, omissions_eq, List.map_flatMap]
  exact List.mergeSort_perm _ _

lemma sides_congr (same : (omissions cells).Perm (omissions cells')) : sides cells = sides cells' :=
  List.Perm.eq_of_pairwise (fun s t _ _ => precedes_antisymm s t) (pairwise_sides cells)
    (pairwise_sides cells')
    ((sides_perm_omissions cells).trans (same.trans (sides_perm_omissions cells').symm))

lemma omissions_perm (rearranged : Rearranged cells cells') :
    (omissions cells).Perm (omissions cells') := by
  obtain ⟨listed, order, corners⟩ := rearranged
  rw [omissions_eq, omissions_eq]
  refine (order.flatMap_right _).trans ?_
  clear order
  induction corners with
  | nil => exact .refl _
  | cons perm _ ih =>
    rw [List.flatMap_cons, List.flatMap_cons]
    exact (map_sorted_sides_perm perm).append ih

lemma omissions_map_orient {α : Type} [Scalar α] (points : Dense α) (cells : List (List ℕ)) :
    (omissions (cells.map (orient points))).Perm (omissions cells) := by
  rw [omissions_eq, omissions_eq, List.flatMap_map]
  exact List.Perm.flatMap_left _ fun cell _ => map_sorted_sides_perm (orient_perm points cell)

lemma of_mem_omissions {dim : ℕ} (length : ∀ cell ∈ cells, cell.length = dim + 1) {s : List ℕ}
    (hs : s ∈ omissions cells) : s.Pairwise (· ≤ ·) ∧ s.length = dim := by
  obtain ⟨cell, hcell, hs⟩ := List.mem_flatMap.1 hs
  obtain ⟨i, hi, rfl⟩ := List.mem_map.1 hs
  refine ⟨pairwise_sorted _, ?_⟩
  rw [(sorted_perm _).length_eq, List.length_eraseIdx_of_lt (List.mem_range.1 hi),
    length cell hcell, Nat.add_sub_cancel]

/-! ### The facets in order -/

lemma lt_of_precedes {s t : List ℕ} (h : precedes s t = true) (ne : s ≠ t) : s < t := by
  induction s generalizing t with
  | nil =>
    cases t with
    | nil => exact absurd rfl ne
    | cons b t => exact List.nil_lt_cons b t
  | cons a s ih =>
    cases t with
    | nil => exact absurd h Bool.false_ne_true
    | cons b t =>
      simp only [precedes, Bool.or_eq_true, Bool.and_eq_true, decide_eq_true_eq] at h
      rw [List.cons_lt_cons_iff]
      rcases h with less | ⟨rfl, h⟩
      · exact .inl less
      · exact .inr ⟨rfl, ih h fun same => ne (same ▸ rfl)⟩

section Facets

variable {α : Type} [Zero α] {points : Dense α} {faceOf : Dense α → Option ℕ}

lemma mem_boundaryFacets {f : Facet} : f ∈ boundaryFacets points cells faceOf ↔
    (omissions cells).count f.vertices = 1 ∧
      faceOf (points.selectCols f.vertices) = some f.face := by
  have once (s : List ℕ) : s ∈ singles (sides cells) ↔ (omissions cells).count s = 1 := by
    have counted : (sides cells).count s = (sides cells).countP (· = s) :=
      List.countP_congr fun t _ => by simp
    rw [mem_singles precedes_antisymm (pairwise_sides cells),
      ← (sides_perm_omissions cells).count_eq, counted]
  rw [boundaryFacets, List.mem_filterMap]
  constructor
  · rintro ⟨side, single, hf⟩
    obtain ⟨face, found, rfl⟩ := Option.map_eq_some_iff.1 hf
    exact ⟨(once side).1 single, found⟩
  · rintro ⟨single, found⟩
    exact ⟨f.vertices, (once _).2 single, by rw [found]; rfl⟩

lemma pairwise_vertices {R : List ℕ → List ℕ → Prop} (h : (singles (sides cells)).Pairwise R) :
    (boundaryFacets points cells faceOf).Pairwise fun f g => R f.vertices g.vertices := by
  refine h.filterMap _ fun s t related f hf g hg => ?_
  obtain ⟨_, -, rfl⟩ := Option.map_eq_some_iff.1 hf
  obtain ⟨_, -, rfl⟩ := Option.map_eq_some_iff.1 hg
  exact related

lemma pairwise_boundaryFacets :
    (boundaryFacets points cells faceOf).Pairwise fun f g => f.vertices < g.vertices :=
  pairwise_vertices (((pairwise_sides cells).sublist singles_sublist).imp₂
    (fun _ _ => lt_of_precedes) (nodup_singles precedes_antisymm (pairwise_sides cells)))

lemma eq_of_vertices {f g : Facet} (hf : f ∈ boundaryFacets points cells faceOf)
    (hg : g ∈ boundaryFacets points cells faceOf) (same : f.vertices = g.vertices) : f = g := by
  have face : some f.face = some g.face := by
    rw [← (mem_boundaryFacets.1 hf).2, ← (mem_boundaryFacets.1 hg).2, same]
  cases f
  cases g
  exact congr (congrArg Facet.mk (Option.some.inj face)) same

/-! ### Facets from a table -/

/-- A list of all elements of another one, each with the number of times it occurs there. -/
structure Counts {β : Type} [BEq β] (table : List (β × ℕ)) (l : List β) : Prop where
  nodup : (table.map Prod.fst).Nodup
  mem_iff : ∀ x n, (x, n) ∈ table ↔ x ∈ l ∧ n = l.count x

lemma counts_of_perm {β : Type} [DecidableEq β] [BEq β] {table : List (β × ℕ)} {l : List β}
    (perm : table.Perm (l.dedup.map fun x => (x, l.count x))) : Counts table l where
  nodup := by
    rw [(perm.map Prod.fst).nodup_iff, List.map_map]
    exact (List.map_id _).symm ▸ List.nodup_dedup l
  mem_iff x n := by
    rw [perm.mem_iff, List.mem_map]
    constructor
    · rintro ⟨y, hy, same⟩
      obtain ⟨rfl, rfl⟩ := Prod.mk.inj same
      exact ⟨List.mem_dedup.1 hy, rfl⟩
    · rintro ⟨hx, rfl⟩
      exact ⟨x, List.mem_dedup.2 hx, rfl⟩

/-- The facets among the sides of a table that are counted once, sorted by their corners. -/
def facetsOfTable (points : Dense α) (table : List (List ℕ × ℕ)) (faceOf : Dense α → Option ℕ) :
    List Facet :=
  ((table.filter fun entry => entry.2 = 1).filterMap fun entry =>
    (faceOf (points.selectCols entry.1)).map fun face => ⟨face, entry.1⟩).mergeSort
      fun f g => precedes f.vertices g.vertices

lemma facetsOfTable_eq {table : List (List ℕ × ℕ)} (counts : Counts table (omissions cells)) :
    facetsOfTable points table faceOf = boundaryFacets points cells faceOf := by
  have mem (f : Facet) : f ∈ facetsOfTable points table faceOf ↔
      f ∈ boundaryFacets points cells faceOf := by
    rw [facetsOfTable, List.mem_mergeSort, List.mem_filterMap, mem_boundaryFacets]
    constructor
    · rintro ⟨⟨side, n⟩, he, hf⟩
      obtain ⟨he, one⟩ := List.mem_filter.1 he
      obtain ⟨face, found, rfl⟩ := Option.map_eq_some_iff.1 hf
      exact ⟨((counts.mem_iff side n).1 he).2.symm.trans (of_decide_eq_true one), found⟩
    · rintro ⟨single, found⟩
      have entry := (counts.mem_iff f.vertices 1).2
      refine ⟨(f.vertices, 1), List.mem_filter.2 ⟨entry ⟨?_, single.symm⟩, rfl⟩, ?_⟩
      · exact List.count_pos_iff.1 (single.symm ▸ Nat.one_pos)
      · rw [found]
        rfl
  have nodup : (facetsOfTable points table faceOf).Nodup := by
    refine (List.mergeSort_perm _ _).nodup_iff.2 ?_
    have distinct := (List.pairwise_map.1 counts.nodup).filter fun entry => decide (entry.2 = 1)
    refine distinct.filterMap _ fun e e' ne f hf g hg same => ne ?_
    obtain ⟨_, -, rfl⟩ := Option.map_eq_some_iff.1 hf
    obtain ⟨_, -, rfl⟩ := Option.map_eq_some_iff.1 hg
    exact (Facet.mk.inj same).2
  have nodup' : (boundaryFacets points cells faceOf).Nodup := by
    refine pairwise_boundaryFacets.imp ?_
    rintro f _ less rfl
    exact lt_irrefl _ less
  refine List.Perm.eq_of_pairwise (fun f g hf hg hfg hgf => ?_) ?_
    (pairwise_vertices ((pairwise_sides cells).sublist singles_sublist))
    ((List.perm_ext_iff_of_nodup nodup nodup').2 mem)
  · exact eq_of_vertices ((mem f).1 hf) hg (precedes_antisymm _ _ hfg hgf)
  · exact @List.pairwise_mergeSort Facet (fun f g => precedes f.vertices g.vertices)
      (fun _ _ _ => precedes_trans) (fun _ _ => precedes_total _ _) _

end Facets

/-- **Which facets a mesh has, for any cells.** Cells with as many corners as they should have are
kept in order, each as it was or with its first two corners exchanged, and in exact arithmetic each
that spans a volume becomes positive. The facets are the sides that occur once when one corner after
the other is left out of every cell, as far as they are given a face, in the order of dictionaries;
the boundary points are their corners. A table of how often each side occurs may be in any order,
and so may the cells and the corners of each. -/
theorem of?_facets {α : Type} [Scalar α] {points : Dense α} (pos : 1 ≤ points.rows)
    {cells : List (List ℕ)} (hasCell : ∀ c ∈ cells, points.HasCell c)
    (faceOf : Dense α → Option ℕ) :
    ∃ m, of? points cells faceOf = some m ∧ m.points = points ∧
      List.Forall₂ Turned cells m.cells ∧
      (Scalar.IsExact α → List.Forall₂ (fun c c' => Simplex.det (points.selectCols c) ≠ 0 →
        0 < Simplex.det (points.selectCols c')) cells m.cells) ∧
      m.facets.Pairwise (fun f g => f.vertices < g.vertices) ∧
      (∀ f, f ∈ m.facets ↔ f.vertices.Pairwise (· ≤ ·) ∧ f.vertices.length = points.rows ∧
        (omissions cells).count f.vertices = 1 ∧
        faceOf (points.selectCols f.vertices) = some f.face) ∧
      m.boundary.Pairwise (· < ·) ∧ (∀ v, v ∈ m.boundary ↔ ∃ f ∈ m.facets, v ∈ f.vertices) ∧
      (∀ table, Counts table (omissions m.cells) → facetsOfTable points table faceOf = m.facets) ∧
      ∀ cells', Rearranged cells cells' → ∃ m', of? points cells' faceOf = some m' ∧
        m'.facets = m.facets ∧ m'.boundary = m.boundary := by
  refine ⟨ofCells points cells faceOf hasCell, dif_pos hasCell, rfl, ?_, ?_,
    pairwise_boundaryFacets, fun f => ?_, pairwise_corners _, fun v => mem_corners,
    fun table counts => facetsOfTable_eq counts, fun cells' rearranged => ?_⟩
  · exact List.forall₂_map_right_iff.2 (List.forall₂_same.2 fun c _ => turned_orient points c)
  · rintro ⟨exact, rfl⟩
    refine List.forall₂_map_right_iff.2 (List.forall₂_same.2 fun c hc regular => ?_)
    rw [det_orient pos (hasCell c hc).1]
    exact abs_pos.2 regular
  · have same := (omissions_map_orient points cells).count_eq f.vertices
    refine mem_boundaryFacets.trans ?_
    rw [same]
    refine ⟨fun ⟨single, found⟩ => ?_, fun h => h.2.2⟩
    obtain ⟨increasing, length⟩ := of_mem_omissions (fun c hc => (hasCell c hc).1)
      (List.count_pos_iff.1 (single.symm ▸ Nat.one_pos))
    exact ⟨increasing, length, single, found⟩
  · have hasCell' : ∀ c ∈ cells', points.HasCell c := fun c' hc' => by
      obtain ⟨c, hc, perm⟩ := rearranged.exists_perm hc'
      exact ⟨perm.length_eq.trans (hasCell c hc).1,
        fun v hv => (hasCell c hc).2 v (perm.mem_iff.1 hv)⟩
    have facets : boundaryFacets points (cells'.map (orient points)) faceOf =
        boundaryFacets points (cells.map (orient points)) faceOf := by
      rw [boundaryFacets, boundaryFacets, sides_congr ((omissions_map_orient points cells').trans
        ((omissions_perm rearranged).symm.trans (omissions_map_orient points cells).symm))]
    exact ⟨ofCells points cells' faceOf hasCell', dif_pos hasCell', facets,
      congrArg corners facets⟩

open LinearSpace in
/-- Two triangles of the square, and a third one that has a corner twice and with it the edge to its
other corner. -/
theorem of?_facets_repeated :
    let cells := [[0, 2, 1], [1, 3, 2], [3, 3, 1]]
    let cells' := [[1, 3, 3], [2, 1, 0], [3, 2, 1]]
    1 ≤ unitSquare.rows ∧ (∀ c ∈ cells, unitSquare.HasCell c) ∧ Scalar.IsExact ℚ ∧
      Simplex.det (unitSquare.selectCols [0, 2, 1]) ≠ 0 ∧ Rearranged cells cells' ∧
      ∃ m m', of? unitSquare cells (fun _ => some 0) = some m ∧
        of? unitSquare cells' (fun _ => some 0) = some m' ∧
        (∃ c ∈ m.cells, 0 < Simplex.det (unitSquare.selectCols c)) ∧
        ⟨0, [3, 3]⟩ ∈ m.facets ∧ ⟨0, [1, 3]⟩ ∉ m.facets ∧ 3 ∈ m.boundary ∧ m'.facets = m.facets ∧
        ∃ table, Counts table (omissions m.cells) ∧
          facetsOfTable unitSquare table (fun _ => some 0) = m.facets := by
  intro cells cells'
  have dim : 1 ≤ unitSquare.rows := by decide
  have hasCell : ∀ c ∈ cells, unitSquare.HasCell c := by decide
  have regular : Simplex.det (unitSquare.selectCols [0, 2, 1]) ≠ 0 := by decide +kernel
  have rearranged : Rearranged cells cells' :=
    ⟨[[3, 3, 1], [0, 2, 1], [1, 3, 2]], by decide, .cons (by decide) (.cons (by decide)
      (.cons (by decide) .nil))⟩
  obtain ⟨m, made, -, -, positive, -, mem, -, corners, tables, alike⟩ :=
    of?_facets dim hasCell fun _ => some 0
  obtain ⟨m', made', same, -⟩ := alike cells' rearranged
  obtain ⟨c, rest, first, -, turned⟩ := List.forall₂_cons_left_iff.1 (positive Rational.isExact)
  have once : (omissions cells).count [3, 3] = 1 := by cbv
  have thrice : (omissions cells).count [1, 3] = 3 := by cbv
  have facet : ⟨0, [3, 3]⟩ ∈ m.facets := (mem _).2 ⟨by decide, rfl, once, rfl⟩
  have counts : Counts
      ((omissions m.cells).dedup.map fun s => (s, (omissions m.cells).count s)).reverse
      (omissions m.cells) := counts_of_perm (List.reverse_perm _)
  refine ⟨dim, hasCell, Rational.isExact, regular, rearranged, m, m', made, made',
    ⟨c, turned ▸ List.mem_cons_self, first regular⟩, facet, fun h => ?_,
    (corners 3).2 ⟨_, facet, by decide⟩, same, _, counts, tables _ counts⟩
  exact absurd (thrice.symm.trans ((mem _).1 h).2.2.1) (by decide)

end SimplicialMesh

end Eigenmesh
