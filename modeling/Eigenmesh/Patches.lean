import Eigenmesh.Mesh.Grid
import Eigenmesh.Sparse.Csr
import Eigenmesh.Sparse.Search

/-!
Overlapping groups of unknowns, one around each vertex of a coarse grid. The unknowns are the
vertices of the grid refined `k` times; the patch of a coarse vertex holds those strictly
inside the coarse boxes around it, the essential ones left out.
-/

namespace Eigenmesh

/-- The free unknowns near one coarse vertex, increasing. -/
structure Patch where
  vertex : Nat
  dofs : List Nat
  deriving DecidableEq

structure Patches where
  dofCount : Nat
  patches : List Patch

namespace Patches

/-- Whether all coordinates of two points differ by less than `width`. -/
def near (width : Nat) (p q : List Nat) : Bool :=
  (p.zip q).all fun (c, m) => c < m + width && m < c + width

/-- The patches of the coarse grid refined `k` times, by increasing coarse vertex; empty ones
are left out. -/
def around (coarse : Grid) (k : Nat) (isEssential : Nat → Bool) : Patches :=
  let fine := coarse.refined k
  let free := ((List.range fine.vertexCount).filter fun v => !isEssential v).map fun v =>
    (v, fine.vertexCoords v)
  let patch (vertex : Nat) : Patch :=
    let center := (coarse.vertexCoords vertex).map (· * Nat.pow 2 k)
    ⟨vertex, (free.filter fun (_, cart) => near (Nat.pow 2 k) cart center).map (·.1)⟩
  { dofCount := fine.vertexCount
    patches := ((List.range coarse.vertexCount).map patch).filter fun p => !p.dofs.isEmpty }

/-- The patches with the listed unknowns essential, if the refined grid can be counted and has
all of them. -/
def of? (coarse : Grid) (k : Nat) (essential : List Nat) : Except Grid.Fault Patches := do
  let fine ← (← coarse.refined? k).counted
  if !Word.isArray fine.vertexCount 1 then throw .overflow
  else if essential.all (· < fine.vertexCount) then
    let flags := essential.foldl (fun f v => f.setIfInBounds v true)
      (Array.replicate fine.vertexCount false)
    return around coarse k fun v => flags.getD v false
  else throw .noSuchVertex

end Patches

/-- The dense matrix of the rows and columns of `A` at the listed unknowns, which are to be
increasing. -/
def Csr.principal {α : Type} [Zero α] [Add α] (A : Csr α) (dofs : List Nat) : Dense α :=
  let places := dofs.toArray
  let lines := (dofs.map fun i =>
    (A.row i).foldl (fun line (j, v) =>
      match Search.place? places j with
      | some b => line.modify b (· + v)
      | none => line) (Array.replicate dofs.length (0 : α))).toArray
  .ofFn dofs.length dofs.length fun a b => (lines.getD a #[]).getD b 0

/-- The dense matrix of the listed unknowns, if the matrix has a row for each of them. -/
def Csr.principal? {α : Type} [Zero α] [Add α] (A : Csr α) (dofs : List Nat) : Option (Dense α) :=
  if dofs.all (· < A.rows) then some (A.principal dofs) else none

end Eigenmesh
