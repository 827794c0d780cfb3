import Eigenmesh.Mesh.Simplicial

/-!
Functions that are linear on every cell of a mesh. Such a function is given by its values at
the points of the mesh, which are the degrees of freedom of the space.
-/

namespace Eigenmesh

structure LinearSpace (α : Type) where
  mesh : SimplicialMesh α

namespace LinearSpace

variable {α : Type}

/-- The polynomial degree on a cell. -/
def order (_ : LinearSpace α) : Nat := 1

def dofCount (V : LinearSpace α) : Nat := V.mesh.points.cols

/-- The degrees of freedom of a cell, in the order of its corners. -/
def cellDofs? (V : LinearSpace α) (cell : Nat) : Option (List Nat) := V.mesh.cells[cell]?

/-- The degrees of freedom on the boundary. -/
def essentialDofs (V : LinearSpace α) : List Nat := V.mesh.boundary

/-- The values of `f` at the points. -/
def interpolate [Zero α] (V : LinearSpace α) (f : Array α → α) : Array α :=
  (Array.range V.dofCount).map fun v => f (V.mesh.points.col v)

end LinearSpace

end Eigenmesh
