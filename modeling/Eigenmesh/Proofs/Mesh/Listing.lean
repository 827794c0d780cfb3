import Eigenmesh.Mesh.Text
import Eigenmesh.Proofs.Lists
import Eigenmesh.Proofs.Mesh.Facets
import Eigenmesh.Proofs.Text.Numerals

/-!
Reading the text of a mesh.

The text is cut at its line feeds, a section at the next empty line, and a line at its blanks.
Numbers are written without blanks and without the letters of a headline, so every section is found
again, and in it every number. What the text shows is the mesh, but for the digits of the
coordinates that were rounded away.
-/

namespace Eigenmesh.SimplicialMesh

open Decimal Text

/-! ### Sections -/

lemma linesOf_unlines {ls : List String} (single : ∀ l ∈ ls, '\n' ∉ l.toList) :
    linesOf (unlines ls) = ls ++ [""] := by
  have text : (unlines ls).toList = (ls.map String.toList).flatMap (· ++ ['\n']) := by
    rw [unlines, String.toList_join, List.flatMap_map, List.flatMap_map]
    exact List.flatMap_congr fun l _ => String.toList_append
  rw [linesOf, text, lines_flatMap (by simpa using single), List.map_append, List.map_map]
  simp

/-- The lines of a text with the given lines in its sections. -/
def listing (dim : String) (cells facets points : List String) : List String :=
  ["MFEM mesh v1.0", "", "dimension", dim, ""] ++
    sectionLines "elements" cells ++ [""] ++
    sectionLines "boundary" facets ++ [""] ++
    ["vertices", toString points.length, dim] ++ points

lemma isPlain_counted {ls : List String} (plain : ∀ l ∈ ls, IsPlain l) :
    ∀ l ∈ toString ls.length :: ls, IsPlain l :=
  List.forall_mem_cons.2 ⟨isPlain_toString _, plain⟩

section Sections

variable {dim : String} {cells facets points : List String} (hdim : IsPlain dim)
  (hcells : ∀ l ∈ cells, IsPlain l) (hfacets : ∀ l ∈ facets, IsPlain l)
  (hpoints : ∀ l ∈ points, IsPlain l)
include hdim hcells hfacets hpoints

lemma linesOf_listing : linesOf (unlines (listing dim cells facets points)) =
    listing dim cells facets points ++ [""] := by
  have number (n : ℕ) := (isPlain_toString n).single
  refine linesOf_unlines ?_
  simp only [listing, sectionLines, List.forall_mem_append, List.forall_mem_cons, List.not_mem_nil,
    false_implies, implies_true, and_true, and_assoc, number, hdim.single, not_false_eq_true,
    true_and]
  exact ⟨by decide, by decide, by decide, by decide, by decide, fun l hl => (hcells l hl).single,
    by decide, by decide, fun l hl => (hfacets l hl).single, by decide, by decide,
    fun l hl => (hpoints l hl).single⟩

lemma below_dimension : below "dimension" (unlines (listing dim cells facets points)) = [dim] := by
  have lines : linesOf (unlines (listing dim cells facets points)) =
      ["MFEM mesh v1.0", ""] ++ "dimension" :: ([dim] ++ "" ::
        (sectionLines "elements" cells ++ [""] ++ sectionLines "boundary" facets ++ [""] ++
          ["vertices", toString points.length, dim] ++ points ++ [""])) := by
    rw [linesOf_listing hdim hcells hfacets hpoints]
    simp [listing, sectionLines]
  exact below_eq lines (by decide) (by simpa using hdim.nonempty.symm)

lemma below_elements : below "elements" (unlines (listing dim cells facets points)) =
    toString cells.length :: cells := by
  have lines : linesOf (unlines (listing dim cells facets points)) =
      ["MFEM mesh v1.0", "", "dimension", dim, ""] ++ "elements" ::
        ((toString cells.length :: cells) ++ "" :: (sectionLines "boundary" facets ++ [""] ++
          ["vertices", toString points.length, dim] ++ points ++ [""])) := by
    rw [linesOf_listing hdim hcells hfacets hpoints]
    simp [listing, sectionLines]
  have headline : IsHeadline "elements" := ⟨'e', by decide, by decide, rfl⟩
  refine below_eq lines ?_ (notMem_of_isPlain (isPlain_counted hcells))
  simp [headline.ne hdim]

lemma below_boundary : below "boundary" (unlines (listing dim cells facets points)) =
    toString facets.length :: facets := by
  have lines : linesOf (unlines (listing dim cells facets points)) =
      (["MFEM mesh v1.0", "", "dimension", dim, ""] ++ sectionLines "elements" cells ++ [""]) ++
        "boundary" :: ((toString facets.length :: facets) ++ "" ::
          (["vertices", toString points.length, dim] ++ points ++ [""])) := by
    rw [linesOf_listing hdim hcells hfacets hpoints]
    simp [listing, sectionLines]
  have headline : IsHeadline "boundary" := ⟨'b', by decide, by decide, rfl⟩
  have number (n : ℕ) : "boundary" ≠ n.repr := headline.ne (isPlain_toString n)
  refine below_eq lines ?_ (notMem_of_isPlain (isPlain_counted hfacets))
  simp [sectionLines, headline.ne hdim, number, headline.notMem hcells]

lemma below_vertices : below "vertices" (unlines (listing dim cells facets points)) =
    toString points.length :: dim :: points := by
  have lines : linesOf (unlines (listing dim cells facets points)) =
      (["MFEM mesh v1.0", "", "dimension", dim, ""] ++ sectionLines "elements" cells ++ [""] ++
        sectionLines "boundary" facets ++ [""]) ++
        "vertices" :: ((toString points.length :: dim :: points) ++ "" :: []) := by
    rw [linesOf_listing hdim hcells hfacets hpoints]
    simp [listing]
  have headline : IsHeadline "vertices" := ⟨'v', by decide, by decide, rfl⟩
  have number (n : ℕ) : "vertices" ≠ n.repr := headline.ne (isPlain_toString n)
  refine below_eq lines ?_ (notMem_of_isPlain ?_)
  · simp [sectionLines, headline.ne hdim, number, headline.notMem hcells, headline.notMem hfacets]
  · exact List.forall_mem_cons.2 ⟨isPlain_toString _, List.forall_mem_cons.2 ⟨hdim, hpoints⟩⟩

end Sections

/-! ### What a text shows -/

/-- The number for the shape of a simplex: a point, a segment, a triangle or a tetrahedron. -/
def shapeNumber (dim : ℕ) : ℕ := [0, 1, 2, 4].getD dim 0

/-- A line for a cell: the label one, the shape, and the corners, which are points and one more than
the dimension. -/
structure ShowsCell (m : SimplicialMesh Float) (line : String) (cell : List ℕ) : Prop where
  words : wordsOf line = (1 :: shapeNumber m.dim :: cell).map toString
  length : cell.length = m.dim + 1
  inside : ∀ v ∈ cell, v < m.vertexCount

/-- A line for a facet: one more than the face, the shape of a side, and the corners in order, which
are points and as many as there are dimensions. -/
structure ShowsFacet (m : SimplicialMesh Float) (line : String) (f : Facet) : Prop where
  words : wordsOf line = ((f.face + 1) :: shapeNumber (m.dim - 1) :: f.vertices).map toString
  length : f.vertices.length = m.dim
  ordered : f.vertices.Pairwise (· ≤ ·)
  inside : ∀ v ∈ f.vertices, v < m.vertexCount

/-- A line for a point: the coordinates with eight decimal places. -/
def ShowsPoint (m : SimplicialMesh Float) (line : String) (v : ℕ) : Prop :=
  wordsOf line = (List.range m.dim).map fun r => fixedText 8 (m.points.entry r v)

/-- A text that shows a mesh: the dimension, and in every section first the number of its lines, and
then a line for each cell, facet and point in order. -/
structure Shows (m : SimplicialMesh Float) (s : String) : Prop where
  dimension : below "dimension" s = [toString m.dim]
  elements : ∃ ls, below "elements" s = toString ls.length :: ls ∧
    List.Forall₂ m.ShowsCell ls m.cells
  boundary : ∃ ls, below "boundary" s = toString ls.length :: ls ∧
    List.Forall₂ m.ShowsFacet ls m.facets
  vertices : ∃ ls, below "vertices" s = toString ls.length :: toString m.dim :: ls ∧
    List.Forall₂ m.ShowsPoint ls (List.range m.vertexCount)

/-- What of a mesh is written: two meshes that agree in this are the same but for digits of the
coordinates that are rounded away, and for what their facets determine. -/
structure SameListing (m m' : SimplicialMesh Float) : Prop where
  dim : m.dim = m'.dim
  cells : m.cells = m'.cells
  facets : m.facets = m'.facets
  vertexCount : m.vertexCount = m'.vertexCount
  coordinates : ∀ r < m.dim, ∀ v < m.vertexCount,
    fixedText 8 (m.points.entry r v) = fixedText 8 (m'.points.entry r v)

section Reading

variable {m m' : SimplicialMesh Float} {s : String}

lemma map_toString_injective {l l' : List ℕ} (h : l.map toString = l'.map toString) : l = l' :=
  List.map_injective_iff.2 (fun _ _ => toString_injective) h

lemma eq_of_forall₂ {β : Type} {R S : String → β → Prop} {ls : List String} {xs ys : List β}
    (h : List.Forall₂ R ls xs) (h' : List.Forall₂ S ls ys)
    (unique : ∀ l x y, R l x → S l y → x = y) : xs = ys := by
  induction h generalizing ys with
  | nil =>
    cases h'
    rfl
  | cons first _ ih =>
    cases h' with
    | cons first' rest' => rw [unique _ _ _ first first', ih rest']

/-- **A text shows one mesh.** -/
lemma Shows.sameListing (h : m.Shows s) (h' : m'.Shows s) : SameListing m m' := by
  have dim : m.dim = m'.dim :=
    toString_injective (List.head_eq_of_cons_eq (h.dimension.symm.trans h'.dimension))
  obtain ⟨cells, readCells, shown⟩ := h.elements
  obtain ⟨cells', readCells', shown'⟩ := h'.elements
  obtain ⟨facets, readFacets, shownFacets⟩ := h.boundary
  obtain ⟨facets', readFacets', shownFacets'⟩ := h'.boundary
  obtain ⟨points, readPoints, shownPoints⟩ := h.vertices
  obtain ⟨points', readPoints', shownPoints'⟩ := h'.vertices
  obtain rfl := List.tail_eq_of_cons_eq (readCells.symm.trans readCells')
  obtain rfl := List.tail_eq_of_cons_eq (readFacets.symm.trans readFacets')
  obtain rfl := List.tail_eq_of_cons_eq
    (List.tail_eq_of_cons_eq (readPoints.symm.trans readPoints'))
  have count : m.vertexCount = m'.vertexCount := by
    simpa using shownPoints.length_eq.symm.trans shownPoints'.length_eq
  refine ⟨dim, eq_of_forall₂ shown shown' fun l c c' hc hc' => ?_,
    eq_of_forall₂ shownFacets shownFacets' fun l f f' hf hf' => ?_, count, fun r hr v hv => ?_⟩
  · have numbers := map_toString_injective (hc.words.symm.trans hc'.words)
    exact List.tail_eq_of_cons_eq (List.tail_eq_of_cons_eq numbers)
  · have numbers := map_toString_injective (hf.words.symm.trans hf'.words)
    cases f
    cases f'
    simp only [List.cons.injEq, Nat.add_right_cancel_iff] at numbers
    rw [numbers.1, numbers.2.2]
  · have inside : v < points.length := by
      rw [shownPoints.length_eq]
      simpa using hv
    have here (n : ℕ) (hn : v < n) : v < (List.range n).length := by simpa using hn
    have read := shownPoints.get inside (here _ hv)
    have read' := shownPoints'.get inside (here _ (count ▸ hv))
    simp only [ShowsPoint, List.get_eq_getElem, List.getElem_range] at read read'
    rw [← dim] at read'
    exact List.map_inj_left.1 (read.symm.trans read') r (List.mem_range.2 hr)

/-! ### Writing -/

lemma shape?_eq_ok {dim : ℕ} (small : dim ≤ 3) : shape? dim = .ok (shapeNumber dim) := by
  interval_cases dim <;> rfl

lemma mem_facets_ofCells {points : Dense Float} {cells : List (List ℕ)}
    {faceOf : Dense Float → Option ℕ} (hasCell : ∀ c ∈ cells, points.HasCell c) {f : Facet} :
    f ∈ (ofCells points cells faceOf hasCell).facets ↔ (omissions cells).count f.vertices = 1 ∧
      faceOf (points.selectCols f.vertices) = some f.face := by
  rw [← (omissions_map_orient points cells).count_eq]
  exact mem_boundaryFacets

lemma facet_of_made {points : Dense Float} {cells : List (List ℕ)} {faceOf : Dense Float → Option ℕ}
    (made : of? points cells faceOf = some m) {f : Facet} (hf : f ∈ m.facets) :
    f.vertices.length = m.dim ∧ f.vertices.Pairwise (· ≤ ·) ∧
      ∀ v ∈ f.vertices, v < m.vertexCount := by
  unfold of? at made
  split at made
  case isFalse => cases made
  case isTrue hasCell =>
    obtain rfl := Option.some.inj made
    have single := ((mem_facets_ofCells hasCell).1 hf).1
    have side := List.count_pos_iff.1 (single.symm ▸ Nat.one_pos)
    obtain ⟨ordered, length⟩ := of_mem_omissions (fun c hc => (hasCell c hc).1) side
    refine ⟨length, ordered, fun v hv => ?_⟩
    obtain ⟨c, hc, side⟩ := List.mem_flatMap.1 side
    obtain ⟨i, -, same⟩ := List.mem_map.1 side
    rw [← same, (sorted_perm _).mem_iff] at hv
    exact (hasCell c hc).2 v (List.mem_of_mem_eraseIdx hv)

lemma wordsOf_elementLine (label shape : ℕ) (vertices : List ℕ) :
    wordsOf (elementLine label shape vertices) = (label :: shape :: vertices).map toString ∧
      IsPlain (elementLine label shape vertices) := by
  have numerals : ∀ w ∈ (label :: shape :: vertices).map toString, IsNumeral w := by
    intro w hw
    obtain ⟨n, -, rfl⟩ := List.mem_map.1 hw
    exact isNumeral_toString n
  exact ⟨wordsOf_intercalate numerals, isPlain_intercalate numerals⟩

lemma wordsOf_pointLine {coords : List Float} (ne : coords ≠ []) :
    wordsOf (pointLine coords) = coords.map (fixedText 8) ∧ IsPlain (pointLine coords) := by
  have numerals : ∀ w ∈ coords.map (fixedText 8), IsNumeral w := by
    intro w hw
    obtain ⟨x, -, rfl⟩ := List.mem_map.1 hw
    exact isNumeral_fixedText 8 x
  refine ⟨wordsOf_intercalate numerals, ?_⟩
  obtain ⟨x, coords, rfl⟩ := List.exists_cons_of_ne_nil ne
  exact isPlain_intercalate numerals

/-- The coordinates of a point. -/
def coordinates (m : SimplicialMesh Float) (v : ℕ) : List Float :=
  (List.range m.dim).map fun r => m.points.entry r v

/-- The lines of the facets. -/
def facetLines (m : SimplicialMesh Float) : List String :=
  m.facets.map fun f => elementLine (f.face + 1) (shapeNumber (m.dim - 1)) f.vertices

lemma text?_eq_ok (pos : 1 ≤ m.dim) (small : m.dim ≤ 3)
    (faces : ∀ f ∈ m.facets, f.face < 2 ^ 64 - 1) : m.text? = .ok (unlines (listing (toString m.dim)
      (m.cells.map (elementLine 1 (shapeNumber m.dim))) m.facetLines
      ((List.range m.vertexCount).map fun v => pointLine (m.coordinates v)))) := by
  have side : sideShape? m.dim = .ok (shapeNumber (m.dim - 1)) := by
    obtain ⟨d, hd⟩ := Nat.exists_eq_add_of_le' pos
    rw [hd, Nat.add_sub_cancel]
    exact shape?_eq_ok (by omega)
  have facets : m.facets.mapM (facetLine? (shapeNumber (m.dim - 1))) = .ok m.facetLines := by
    refine mapM_eq_ok_map fun f hf => ?_
    have label : Word.add? f.face 1 = some (f.face + 1) :=
      if_pos (show f.face + 1 < 2 ^ 64 by have := faces f hf; omega)
    rw [facetLine?, label]
  rw [text?, lines?, shape?_eq_ok small, side]
  simp only [bind, Except.bind, facets]
  rfl

/-- **The text of a mesh shows it.** -/
lemma exists_shows {points : Dense Float} {cells : List (List ℕ)} {faceOf : Dense Float → Option ℕ}
    (made : of? points cells faceOf = some m) (pos : 1 ≤ m.dim) (small : m.dim ≤ 3)
    (faces : ∀ f ∈ m.facets, f.face < 2 ^ 64 - 1) : ∃ s, m.text? = .ok s ∧ m.Shows s := by
  have hdim := isPlain_toString m.dim
  have hcells : ∀ l ∈ m.cells.map (elementLine 1 (shapeNumber m.dim)), IsPlain l := by
    intro l hl
    obtain ⟨c, -, rfl⟩ := List.mem_map.1 hl
    exact (wordsOf_elementLine _ _ _).2
  have hfacets : ∀ l ∈ m.facetLines, IsPlain l := by
    intro l hl
    obtain ⟨f, -, rfl⟩ := List.mem_map.1 hl
    exact (wordsOf_elementLine _ _ _).2
  have point (v : ℕ) : wordsOf (pointLine (m.coordinates v)) =
      (m.coordinates v).map (fixedText 8) ∧ IsPlain (pointLine (m.coordinates v)) :=
    wordsOf_pointLine (by
      simpa [coordinates, ← List.length_eq_zero_iff] using Nat.ne_of_gt pos)
  have hpoints : ∀ l ∈ (List.range m.vertexCount).map fun v => pointLine (m.coordinates v),
      IsPlain l := by
    intro l hl
    obtain ⟨v, -, rfl⟩ := List.mem_map.1 hl
    exact (point v).2
  refine ⟨_, text?_eq_ok pos small faces, ⟨below_dimension hdim hcells hfacets hpoints,
    ⟨_, below_elements hdim hcells hfacets hpoints, ?_⟩,
    ⟨_, below_boundary hdim hcells hfacets hpoints, ?_⟩,
    ⟨_, below_vertices hdim hcells hfacets hpoints, ?_⟩⟩⟩
  · refine List.forall₂_map_left_iff.2 (List.forall₂_same.2 fun c hc => ?_)
    exact ⟨(wordsOf_elementLine _ _ _).1, (m.hasCell c hc).1, (m.hasCell c hc).2⟩
  · refine List.forall₂_map_left_iff.2 (List.forall₂_same.2 fun f hf => ?_)
    obtain ⟨length, ordered, inside⟩ := facet_of_made made hf
    exact ⟨(wordsOf_elementLine _ _ _).1, length, ordered, inside⟩
  · refine List.forall₂_map_left_iff.2 (List.forall₂_same.2 fun v _ => ?_)
    exact (point v).1.trans List.map_map

lemma SameListing.text?_eq (same : SameListing m m') : m.text? = m'.text? := by
  obtain ⟨dim, cells, facets, count, coords⟩ := same
  have points : ((List.range m.vertexCount).map fun v =>
        pointLine ((List.range m.dim).map fun r => m.points.entry r v)) =
      (List.range m'.vertexCount).map fun v =>
        pointLine ((List.range m'.dim).map fun r => m'.points.entry r v) := by
    rw [← count, ← dim]
    refine List.map_congr_left fun v hv => ?_
    rw [pointLine, pointLine, List.map_map, List.map_map]
    refine congrArg _ (List.map_congr_left fun r hr => ?_)
    exact coords r (List.mem_range.1 hr) v (List.mem_range.1 hv)
  rw [text?, text?, lines?, lines?, points, dim, cells, facets]

/-- **The text determines the mesh.** Every mesh of one to three dimensions whose labels are sizes
has a text. Under the headlines of this text stand the dimension and, each time after the number of
the lines to come, a line for each cell, each facet and each point, with the right label and shape
and with corners that the text has points for. Two meshes have the same text exactly if they have
the same dimension, cells, facets and number of points, and coordinates that are written alike. -/
theorem text?_determines {points points' : Dense Float} {cells cells' : List (List ℕ)}
    {faceOf faceOf' : Dense Float → Option ℕ} (made : of? points cells faceOf = some m)
    (made' : of? points' cells' faceOf' = some m') (dim : 1 ≤ m.dim ∧ m.dim ≤ 3)
    (dim' : 1 ≤ m'.dim ∧ m'.dim ≤ 3) (faces : ∀ f ∈ m.facets, f.face < 2 ^ 64 - 1)
    (faces' : ∀ f ∈ m'.facets, f.face < 2 ^ 64 - 1) :
    ∃ s s', m.text? = .ok s ∧ m'.text? = .ok s' ∧ m.Shows s ∧ m'.Shows s' ∧
      (s = s' ↔ SameListing m m') := by
  obtain ⟨s, written, shows⟩ := exists_shows made dim.1 dim.2 faces
  obtain ⟨s', written', shows'⟩ := exists_shows made' dim'.1 dim'.2 faces'
  refine ⟨s, s', written, written', shows, shows', fun same => ?_, fun same => ?_⟩
  · exact shows.sameListing (same ▸ shows')
  · rw [same.text?_eq, written'] at written
    exact (Except.ok.inj written).symm

/-- A tetrahedron whose sides lie on face zero, or all on the next one. -/
theorem text?_determines_tetrahedron :
    let points : Dense Float := .ofFn 3 4 fun r c => if c = r + 1 then 1 else 0
    ∃ m m', of? points [[0, 1, 2, 3]] (fun _ => some 0) = some m ∧
      of? points [[0, 1, 2, 3]] (fun _ => some 1) = some m' ∧
      (1 ≤ m.dim ∧ m.dim ≤ 3) ∧ (1 ≤ m'.dim ∧ m'.dim ≤ 3) ∧
      (∀ f ∈ m.facets, f.face < 2 ^ 64 - 1) ∧ (∀ f ∈ m'.facets, f.face < 2 ^ 64 - 1) ∧
      ∃ s s', m.text? = .ok s ∧ m'.text? = .ok s' ∧ m.Shows s ∧ m'.Shows s' ∧ s ≠ s' := by
  intro points
  have hasCell : ∀ c ∈ [[0, 1, 2, 3]], points.HasCell c := by decide
  let mesh (face : ℕ) := ofCells points [[0, 1, 2, 3]] (fun _ => some face) hasCell
  have made (face : ℕ) : of? points [[0, 1, 2, 3]] (fun _ => some face) = some (mesh face) :=
    dif_pos hasCell
  have dim (face : ℕ) : 1 ≤ (mesh face).dim ∧ (mesh face).dim ≤ 3 :=
    (by decide : 1 ≤ 3 ∧ 3 ≤ 3)
  have label (face : ℕ) : ∀ f ∈ (mesh face).facets, f.face = face := fun f hf =>
    (Option.some.inj ((mem_facets_ofCells hasCell).1 hf).2).symm
  have faces : ∀ f ∈ (mesh 0).facets, f.face < 2 ^ 64 - 1 := fun f hf =>
    (label 0 f hf).trans_lt (by decide)
  have faces' : ∀ f ∈ (mesh 1).facets, f.face < 2 ^ 64 - 1 := fun f hf =>
    (label 1 f hf).trans_lt (by decide)
  obtain ⟨s, s', written, written', shows, shows', same⟩ :=
    text?_determines (made 0) (made 1) (dim 0) (dim 1) faces faces'
  refine ⟨_, _, made 0, made 1, dim 0, dim 1, faces, faces', s, s', written, written', shows,
    shows', fun equal => ?_⟩
  have once : (omissions [[0, 1, 2, 3]]).count [1, 2, 3] = 1 := by cbv
  have side : (⟨0, [1, 2, 3]⟩ : Facet) ∈ (mesh 0).facets :=
    (mem_facets_ofCells hasCell).2 ⟨once, rfl⟩
  have other := label 1 _ ((same.1 equal).facets ▸ side)
  cases other

end Reading

end Eigenmesh.SimplicialMesh
