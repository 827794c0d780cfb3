import Eigenmesh.Dense.Triangular
import Eigenmesh.Kernels
import Eigenmesh.Patches

/-!
The additive Schwarz smoother. It corrects a vector by solving on every patch for the residual
there; the corrections of all patches are damped by `theta` and added up.
-/

namespace Eigenmesh

structure Smoother (α : Type) where
  matrix : Csr α
  patches : Patches
  /-- The Cholesky factor of each patch matrix. -/
  factors : List (Dense α)
  theta : α

namespace Smoother

/-- Why there is no smoother. -/
inductive Fault
  /-- The matrix does not have a row for each unknown of the patches. -/
  | size
  /-- The matrix of this patch is not positive definite. -/
  | indefinite (patch vertex : Nat)

namespace Fault

def message : Fault → Option String
  | .size => none
  | .indefinite patch vertex =>
    some s!"patch {patch} around coarse vertex {vertex} is not positive definite"

end Fault

variable {α : Type} [Scalar α]

def factor? [Kernels α] (A : Csr α) (p : Patch) (number : Nat) : Except Fault (Dense α) :=
  match Kernels.cholesky? (A.principal p.dofs) with
  | some L => .ok L
  | none => .error (.indefinite number p.vertex)

def of? [Kernels α] (A : Csr α) (patches : Patches) (theta : α) : Except Fault (Smoother α) :=
  if A.rows = patches.dofCount then do
    let factors ← patches.patches.zipIdx.mapM fun (p, i) => factor? A p i
    return { matrix := A, patches, factors, theta }
  else throw .size

/-- Adds `theta` times a correction at the unknowns of a patch. -/
def scatter (theta : α) (z : Array α) (dofs : List Nat) (correction : Array α) : Array α :=
  (dofs.zip correction.toList).foldl (fun z (i, v) => z.modify i (· + theta * v)) z

/-- The damped sum of the solutions on all patches, as a vector of `n` entries. -/
def correction (S : Smoother α) (n : Nat) (r : Array α) : Array α :=
  (S.patches.patches.zip S.factors).foldl (fun z (p, L) =>
    scatter S.theta z p.dofs (L.solveBoth (p.dofs.map fun i => r.getD i 0).toArray))
    (Coords.zeros n)

/-- The action of the smoother on a residual. -/
def mult (S : Smoother α) (r : Array α) : Array α := S.correction S.matrix.rows r

/-- Whether the patches find all their unknowns in a vector of `n` entries. -/
def takes (S : Smoother α) (n : Nat) : Bool :=
  S.patches.patches.all fun p => p.dofs.all (· < n)

def residual (S : Smoother α) (b x : Array α) : Array α := Coords.sub b (S.matrix.mulVec x)

def step (S : Smoother α) (b x : Array α) : Array α :=
  Coords.add x (S.correction x.size (S.residual b x))

/-- So many steps from `x`: the norms of the residual before each step and after the last, and
the vector reached. -/
def smooth (S : Smoother α) (b : Array α) : Nat → Array α → List α × Array α
  | 0, x => ([Coords.norm (S.residual b x)], x)
  | steps + 1, x =>
    let (norms, y) := S.smooth b steps (S.step b x)
    (Coords.norm (S.residual b x) :: norms, y)

/-- Whether so many steps can be taken from `x`, and there is room for their norms. -/
def fits (S : Smoother α) (b x : Array α) (steps : Nat) : Bool :=
  S.matrix.rows = b.size && S.matrix.cols = x.size && Word.isArray (steps + 1) 8 &&
    (steps = 0 || S.takes x.size)

def smooth? (S : Smoother α) (b : Array α) (steps : Nat) (x : Array α) :
    Option (List α × Array α) :=
  if S.fits b x steps then some (S.smooth b steps x) else none

end Smoother

end Eigenmesh
