import Eigenmesh.Mesh.Simplex

/-!
Simplicial meshes: points, and cells as lists of point numbers.

Making a mesh (`SimplicialMesh.ofCells`) turns every cell to positive orientation and finds the
boundary: a side of a cell that no other cell has, so that it occurs once among all sides.
Sides are compared by their sorted corners, and the boundary is listed in lexicographic order.
-/

namespace Eigenmesh

/-- A side on the boundary, with the number of the face of the domain that it lies on. -/
structure Facet where
  face : Nat
  /-- Increasing. -/
  vertices : List Nat
  deriving DecidableEq

/-- The cell has one corner more than the points have coordinates, and its corners are points. -/
def Dense.HasCell {α : Type} (points : Dense α) (cell : List Nat) : Prop :=
  cell.length = points.rows + 1 ∧ ∀ v ∈ cell, v < points.cols

instance {α : Type} (points : Dense α) (cell : List Nat) : Decidable (points.HasCell cell) :=
  inferInstanceAs (Decidable (_ ∧ _))

structure SimplicialMesh (α : Type) where
  /-- One point a column. -/
  points : Dense α
  cells : List (List Nat)
  facets : List Facet
  /-- The corners of the facets, increasing. -/
  boundary : List Nat
  hasCell : ∀ c ∈ cells, points.HasCell c

namespace SimplicialMesh

def sorted (vertices : List Nat) : List Nat := vertices.mergeSort fun a b => decide (a ≤ b)

/-- Of a list in which equal elements are neighbours, `a` being the element before it and
`single` telling that `a` has occurred once so far: what occurs once. -/
def singlesAfter {β : Type} [DecidableEq β] (a : β) (single : Bool) : List β → List β
  | [] => if single then [a] else []
  | b :: rest =>
    if a = b then singlesAfter a false rest
    else if single then a :: singlesAfter b true rest
    else singlesAfter b true rest

def singles {β : Type} [DecidableEq β] : List β → List β
  | [] => []
  | a :: rest => singlesAfter a true rest

/-- Whether a list comes before another one in the order of dictionaries, or equals it. -/
def precedes : List Nat → List Nat → Bool
  | [], _ => true
  | _ :: _, [] => false
  | a :: as, b :: bs => a < b || (a = b && precedes as bs)

/-- All sides of all cells, sorted. -/
def sides (cells : List (List Nat)) : List (List Nat) :=
  ((cells.flatMap Simplex.sides).map sorted).mergeSort precedes

section Boundary

variable {α : Type} [Zero α]

/-- The sides that occur once and that `faceOf` gives a face. -/
def boundaryFacets (points : Dense α) (cells : List (List Nat))
    (faceOf : Dense α → Option Nat) : List Facet :=
  (singles (sides cells)).filterMap fun side =>
    (faceOf (points.selectCols side)).map fun face => ⟨face, side⟩

/-- The corners of the facets, each once. -/
def corners (facets : List Facet) : List Nat := (sorted (facets.flatMap (·.vertices))).eraseReps

end Boundary

variable {α : Type} [Scalar α]

/-- Exchanges the first two corners of a cell whose determinant is negative. -/
def orient (points : Dense α) : List Nat → List Nat
  | a :: b :: rest =>
    if Simplex.det (points.selectCols (a :: b :: rest)) < 0 then b :: a :: rest
    else a :: b :: rest
  | cell => cell

theorem hasCell_orient {points : Dense α} {cell : List Nat} (h : points.HasCell cell) :
    points.HasCell (orient points cell) := by
  unfold orient
  split
  · split
    · refine ⟨h.1, fun v hv => h.2 v ?_⟩
      simp only [List.mem_cons] at hv ⊢
      rcases hv with rfl | rfl | hv
      · exact .inr (.inl rfl)
      · exact .inl rfl
      · exact .inr (.inr hv)
    · exact h
  · exact h

/-- The mesh of the given points and cells. -/
def ofCells (points : Dense α) (cells : List (List Nat)) (faceOf : Dense α → Option Nat)
    (h : ∀ c ∈ cells, points.HasCell c) : SimplicialMesh α :=
  let oriented := cells.map (orient points)
  let facets := boundaryFacets points oriented faceOf
  { points
    cells := oriented
    facets
    boundary := corners facets
    hasCell := fun c hc => by
      obtain ⟨d, hd, rfl⟩ := List.mem_map.1 hc
      exact hasCell_orient (h d hd) }

/-- There is no mesh if a cell has the wrong number of corners or a corner that is no point. -/
def of? (points : Dense α) (cells : List (List Nat)) (faceOf : Dense α → Option Nat) :
    Option (SimplicialMesh α) :=
  if h : ∀ c ∈ cells, points.HasCell c then some (ofCells points cells faceOf h) else none

def dim (m : SimplicialMesh α) : Nat := m.points.rows

def vertexCount (m : SimplicialMesh α) : Nat := m.points.cols

/-- The corners of a cell, one a column. -/
def cellPoints (m : SimplicialMesh α) (cell : List Nat) : Dense α := m.points.selectCols cell

end SimplicialMesh

end Eigenmesh
