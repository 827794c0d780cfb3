import Eigenmesh.Program.Poisson

/-!
The smallest Dirichlet eigenvalues of the Laplacian on the unit square, beside the exact ones
`π² (m² + n²)`. On request the matrices and eigenvectors are written to a directory.
-/

namespace Eigenmesh.Program.Laplacian

def grammar : Grammar where
  rules := [⟨"save", none, true, none, fun dir => !dir.isEmpty⟩]
  negativeNumbers := false

def boxesPerAxis : Nat := 16

/-- How many eigenpairs are wanted. -/
def wanted : Nat := 6

/-- The exact eigenvalues with `m` and `n` up to `k`, increasing. -/
def exactValues (k : Nat) : List Float :=
  ((List.range k).flatMap fun m => (List.range k).map fun n =>
    Poisson.pi * Poisson.pi * ((m + 1) * (m + 1) + (n + 1) * (n + 1)).toFloat).mergeSort
    Scalar.ranks

/-- A matrix of the space on the free unknowns. -/
def restricted (V : LinearSpace Float) (free : Array Nat)
    (element : Dense Float → Except (Element.Fault Float) (Dense Float)) : Option (Csr Float) := do
  let A ← (V.assembleMatrix element).toOption
  (← A.restrict? free free).toCsr?

/-- One converged eigenpair: its line, and its vector if files are written. -/
def reportMode (save : Bool) (exact : List Float) (n i : Nat) (z : Cplx Float) :
    StateT (Workspace Float) Run Unit := do
  if let .buffers u _ ← Poisson.call (.eigenvector i (Coords.zeros n)) then
    let height := u.foldl (fun m v => Scalar.max m v.abs) 0.0
    if save then Run.save s!"eigenvector{i}.petsc" (.vector u)
    let e ← Run.orPanic exact[i]?
    Run.print s!"eigenval={Decimal.fixedText 6 z.re}, exact={Decimal.fixedText 6 e}, rel_error={Decimal.scientificText 2 ((z.re - e).abs / e)}, max|u|={Decimal.fixedText 3 height}"

/-- Solves the problem and reports what converged. -/
def spectrum (save : Bool) (stiffness mass : Csr Float) : StateT (Workspace Float) Run Unit := do
  Poisson.create "evp_" false
  let _ ← Poisson.call (.setOperators (.assembled stiffness) (some (.assembled mass)))
  let _ ← Poisson.call (.setWanted wanted)
  let _ ← Poisson.call (.setWhich .targetMagnitude)
  let _ ← Poisson.call (.setTarget 0.0)
  let _ ← Poisson.call (.setTransform .shiftInvert)
  let _ ← Poisson.call (.setProblem .genHermitian)
  let _ ← Poisson.call .solve
  if let .values zs ← Poisson.call .eigenvalues then
    let exact := exactValues wanted
    for (z, i) in zs.zipIdx do
      reportMode save exact stiffness.rows i z

def run (save : Bool) (options : List String) : Run Unit := do
  let session ← Run.orAbort PackageError.text (Session.fresh.start? ⟨none, options, none⟩)
  let grid ← Run.orPanic (Grid.unit? 2 boxesPerAxis).toOption
  let V : LinearSpace Float := ⟨← Run.orPanic grid.simplicial?.toOption⟩
  let essential ← Run.orPanic (flagsOfIndices? V.essentialDofs.toArray V.dofCount)
  let free := indicesOfFlags (essential.map (!·))
  let stiffness ← Run.orPanic (restricted V free Element.stiffness?)
  let mass ← Run.orPanic (restricted V free Element.mass?)
  if save then
    Run.save "stiffness.petsc" (.matrix stiffness)
    Run.save "mass.petsc" (.matrix mass)
  let _ ← (spectrum save stiffness mass).run { Workspace.fresh with session }

/-- The directory to write to, if one is given. -/
def directory? (args : List String) : Option String :=
  ((Arguments.parse grammar args).toOption).bind (·.value? "save")

/-- The outcome for the given arguments. -/
def outcome (args : List String) : Outcome :=
  match Arguments.parse grammar args with
  | .error .help => ⟨[], ["usage: [--save DIR] [-- solver options]"], [], .exited 0⟩
  | .error .usage => ⟨[], ["error: invalid arguments"], [], .exited 2⟩
  | .ok a => (run (a.has "save") a.rest).outcome []

end Eigenmesh.Program.Laplacian
