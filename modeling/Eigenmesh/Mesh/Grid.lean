import Eigenmesh.Mesh.Index
import Eigenmesh.Scalar

/-!
The unit cube of one, two or three dimensions, cut into equal boxes along each axis.
-/

namespace Eigenmesh

structure Grid where
  dim : Nat
  /-- How many boxes lie along an axis. -/
  boxes : Nat
  dim_pos : 1 ≤ dim
  dim_le : dim ≤ 3
  boxes_pos : 0 < boxes

/-- Why there is no such grid. -/
inductive Grid.Fault
  | dimension (dim : Nat)
  | noBoxes
  /-- A count of boxes or vertices is no size. -/
  | overflow
  /-- An essential vertex does not exist. -/
  | noSuchVertex

/-- Only an unknown dimension is named; the other faults have no message. -/
def Grid.Fault.message : Grid.Fault → Option String
  | .dimension dim => some s!"dimension {dim} not supported"
  | _ => none

namespace Grid

def unit? (dim boxes : Nat) : Except Fault Grid :=
  if hd : 1 ≤ dim ∧ dim ≤ 3 then
    if hb : 0 < boxes then .ok ⟨dim, boxes, hd.1, hd.2, hb⟩ else .error .noBoxes
  else .error (.dimension dim)

def verticesPerAxis (g : Grid) : Nat := g.boxes + 1

def boxCount (g : Grid) : Nat := Nat.pow g.boxes g.dim

def vertexCount (g : Grid) : Nat := Nat.pow g.verticesPerAxis g.dim

/-- Every box split in two along each axis, `k` times over. -/
def refined (g : Grid) (k : Nat) : Grid :=
  { g with boxes := g.boxes * Nat.pow 2 k, boxes_pos := Nat.mul_pos g.boxes_pos (Nat.two_pow_pos k) }

/-- The refined grid, if its box count along an axis is a size. -/
def refined? (g : Grid) (k : Nat) : Except Fault Grid :=
  if k < 64 ∧ g.boxes * Nat.pow 2 k < Word.limit then .ok (g.refined k) else .error .overflow

/-- Passes on a grid whose boxes and vertices can be counted. -/
def counted (g : Grid) : Except Fault Grid :=
  if g.vertexCount < Word.limit then .ok g else .error .overflow

/-- Passes on a grid whose vertices can be listed with their positions. -/
def listed (g : Grid) : Except Fault Grid := do
  let g ← g.counted
  if Word.isArray (g.dim * g.vertexCount) 8 then return g else throw .overflow

def vertexCoords (g : Grid) (v : Nat) : List Nat := Index.coords g.verticesPerAxis g.dim v

def vertexNumber (g : Grid) (cart : List Nat) : Nat := Index.number g.verticesPerAxis cart

def boxCoords (g : Grid) (b : Nat) : List Nat := Index.coords g.boxes g.dim b

def onBoundary (g : Grid) (v : Nat) : Bool :=
  (g.vertexCoords v).any fun c => c = 0 || c = g.boxes

def boundaryVertices (g : Grid) : List Nat := (List.range g.vertexCount).filter g.onBoundary

section Position

variable {α : Type} [Scalar α]

/-- The length of an edge of a box. -/
def meshWidth (g : Grid) : α := 1 / (g.boxes : α)

def position (g : Grid) (v : Nat) : List α :=
  (g.vertexCoords v).map fun (c : Nat) => (Nat.cast c : α) * g.meshWidth

end Position

end Grid

end Eigenmesh
