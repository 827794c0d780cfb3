import Eigenmesh.Decimal.Fixed
import Eigenmesh.Layout
import Eigenmesh.Mesh.Simplicial
import Eigenmesh.Scalar.Double

/-!
The MFEM text form of a mesh, version 1.0: the dimension, the cells with the label 1, the
facets with one more than their face as label, and the points with eight decimal places.
Every cell and facet carries a number for its shape.
-/

namespace Eigenmesh.SimplicialMesh

/-- Why a mesh has no text. -/
inductive TextFault
  /-- There is no number for a simplex of this dimension. -/
  | shape (dim : Nat)
  /-- A mesh of single points has no sides. -/
  | noSides
  /-- A label is no size. -/
  | label

namespace TextFault

def message : TextFault → Option String
  | .shape dim => some s!"no MFEM simplex geometry of dimension {dim}"
  | .noSides => none
  | .label => none

end TextFault

/-- The number for the shape of a simplex. -/
def shape? : Nat → Except TextFault Nat
  | 0 => .ok 0
  | 1 => .ok 1
  | 2 => .ok 2
  | 3 => .ok 4
  | dim => .error (.shape dim)

def sideShape? : Nat → Except TextFault Nat
  | 0 => .error .noSides
  | dim + 1 => shape? dim

/-- A label, a shape and the corners. -/
def elementLine (label shape : Nat) (vertices : List Nat) : String :=
  " ".intercalate ((label :: shape :: vertices).map toString)

def facetLine? (shape : Nat) (f : Facet) : Except TextFault String :=
  match Word.add? f.face 1 with
  | some label => .ok (elementLine label shape f.vertices)
  | none => .error .label

def pointLine (coords : List Float) : String :=
  " ".intercalate (coords.map (Decimal.fixedText 8))

/-- A headline, the number of lines that follow, and these. -/
def sectionLines (headline : String) (lines : List String) : List String :=
  headline :: toString lines.length :: lines

def lines? (m : SimplicialMesh Float) : Except TextFault (List String) := do
  let shape ← shape? m.dim
  let cells := m.cells.map (elementLine 1 shape)
  let sideShape ← sideShape? m.dim
  let facets ← m.facets.mapM (facetLine? sideShape)
  let points := (List.range m.vertexCount).map fun c =>
    pointLine ((List.range m.dim).map fun r => m.points.entry r c)
  return ["MFEM mesh v1.0", "", "dimension", toString m.dim, ""] ++
    sectionLines "elements" cells ++ [""] ++
    sectionLines "boundary" facets ++ [""] ++
    ["vertices", toString points.length, toString m.dim] ++ points

/-- Every line ends in a line feed. -/
def unlines (lines : List String) : String := String.join (lines.map (· ++ "\n"))

def text? (m : SimplicialMesh Float) : Except TextFault String := m.lines?.map unlines

/-- What a viewer is sent: the rank that sends, the mesh, and the keys to press. -/
def message? (comm : Comm) (m : SimplicialMesh Float) (keys : Option String) :
    Except TextFault String := do
  let lines ← m.lines?
  return unlines <|
    s!"parallel {comm.size} {comm.rank}" :: "mesh" :: lines ++
      (keys.map fun k => "keys " ++ k).toList

end Eigenmesh.SimplicialMesh
