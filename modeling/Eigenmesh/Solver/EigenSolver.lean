import Eigenmesh.Solver.Handle

/-!
The eigensolver of the host program. It presents host operators to a handle of the package,
passes on how the problem is to be solved, and hands out results only while they belong to the
attached operators: `SolverState.solved` is reached by a successful solve and left by anything
that changes the operators or tries to solve again.
-/

namespace Eigenmesh

inductive SolverState
  /-- No operator is attached. -/
  | created
  /-- Operators are attached, and there is no result for them. -/
  | operatorSet
  | solved
  deriving DecidableEq

def SolverState.name : SolverState → String
  | .created => "Created"
  | .operatorSet => "OperatorSet"
  | .solved => "Solved"

/-- Errors of the eigensolver. None can be recovered from. -/
inductive SolverError
  | unsupportedOperator (message : String)
  /-- A call of the package failed. -/
  | package (call : String) (source : PackageError)
  | invalidState (message : String)
  | indexOutOfRange (index converged : Nat)
  | io (message : String)
  deriving DecidableEq

namespace SolverError

def message : SolverError → String
  | .unsupportedOperator message => s!"unsupported operator: {message}"
  | .package call _ =>
    s!"error in the eigensolver package during {call}. See stacktrace above."
  | .invalidState message => message
  | .indexOutOfRange index converged =>
    s!"eigenpair index {index} out of range, {converged} converged"
  | .io message => message

/-- Every error ends the computation. -/
def isFatal (_ : SolverError) : Bool := true

def packageError? : SolverError → Option PackageError
  | .package _ source => some source
  | _ => none

end SolverError

/-- The result of a package call, for the host program. -/
def checked {β : Type} (call : String) (r : Except PackageError β) : Except SolverError β :=
  r.mapError (.package call)

structure EigenSolver (α : Type) where
  handle : Handle α
  /-- Whether operators are wrapped instead of assembled. -/
  wrap : Bool
  /-- The tolerance and iteration limit sent last. -/
  tolerance : Option α
  maxIterations : Option Nat
  /-- Whether the runtime options have been applied or ruled out. -/
  customized : Bool
  state : SolverState
  /-- The views that eigenvectors are handed out through, once they are made. -/
  realView : Option Layout
  imagView : Option Layout

namespace EigenSolver

variable {α : Type}

/-- A solver whose runtime options start with `family`. -/
def fresh (family : String) (wrap : Bool) : EigenSolver α where
  handle := { Handle.fresh with family }
  wrap := wrap
  tolerance := none
  maxIterations := none
  customized := false
  state := .created
  realView := none
  imagView := none

def hasViews (s : EigenSolver α) : Bool := s.realView.isSome || s.imagView.isSome

variable [Scalar α]

section Operators

/-- The native matrix for an operator that must be square and not empty: a native one is shared,
any other becomes a new matrix that wraps or assembles it. -/
def convert? (wrap : Bool) (l : Ledger) (op : Operator α) (operand : String) :
    Except SolverError (Mat α × Ledger) :=
  if !op.isSquare || op.height = 0 then
    .error (.unsupportedOperator (s!"{operand} is a {op.height}x{op.width} {op.kind} operator, " ++
      "expected a non-empty square operator"))
  else
    match op with
    | .native M => .ok (M, l.retain M.number)
    | op => .ok (if wrap then l.shell op else l.aij op.toCsr)

/-- The matrices for one operator or two; the first is released again if there is none for the
second. -/
def convertAll? (wrap : Bool) (l : Ledger) (A : Operator α) (B : Option (Operator α)) :
    Ledger × Except SolverError (Mat α × Option (Mat α)) :=
  match convert? wrap l A "A" with
  | .error e => (l, .error e)
  | .ok (A, l) =>
    match B with
    | none => (l, .ok (A, none))
    | some B =>
      match convert? wrap l B "B" with
      | .error e => (l.release A.number, .error e)
      | .ok (B, l) => (l, .ok (A, some B))

/-- Attaches the operators of `A x = λ x` or `A x = λ B x`. The native matrices made on the way
are given up again in any case; what is left are the holds of the handle. -/
def setOperators (s : EigenSolver α) (l : Ledger) (A : Operator α) (B : Option (Operator α)) :
    (EigenSolver α × Ledger) × Except SolverError Unit :=
  match convertAll? s.wrap l A B with
  | (l, .error e) => ((s, l), .error e)
  | (l, .ok (A, B)) =>
    let ((handle, l), r) := s.handle.attach l A B
    let l := (l.release A.number).releaseSlot B
    match checked "Eps::set_operators" r with
    | .error e => ((s, l), .error e)
    | .ok () =>
      (({ s with handle, state := .operatorSet, realView := none, imagView := none }, l), .ok ())

end Operators

section Configuration

/-- Tolerance and iteration limit are always sent together. -/
def setTolerance? (s : EigenSolver α) (tolerance : α) : Except SolverError (EigenSolver α) := do
  let handle ← checked "Eps::set_tolerances"
    (s.handle.setTolerances? (some tolerance) s.maxIterations)
  return { s with handle, tolerance := some tolerance }

def setMaxIterations? (s : EigenSolver α) (maxIterations : Nat) :
    Except SolverError (EigenSolver α) := do
  let handle ← checked "Eps::set_tolerances"
    (s.handle.setTolerances? s.tolerance (some maxIterations))
  return { s with handle, maxIterations := some maxIterations }

/-- How many eigenpairs are wanted. -/
def setWanted? (s : EigenSolver α) (wanted : Nat) : Except SolverError (EigenSolver α) := do
  return { s with handle := ← checked "Eps::set_dimensions" (s.handle.setWanted? wanted) }

def setTarget? (s : EigenSolver α) (target : α) : Except SolverError (EigenSolver α) := do
  return { s with handle := ← checked "Eps::set_target" (s.handle.setTarget? target) }

def setWhich (s : EigenSolver α) (which : Which) : EigenSolver α :=
  { s with handle := { s.handle with which } }

def setTransform (s : EigenSolver α) (type : TransformType) : EigenSolver α :=
  { s with handle := { s.handle with transform := { s.handle.transform with type } } }

def setProblem (s : EigenSolver α) (problem : ProblemType) : EigenSolver α :=
  { s with handle := { s.handle with problem := some problem } }

def setSolver (s : EigenSolver α) (solver : SolverType) : EigenSolver α :=
  { s with handle := { s.handle with solver } }

/-- Applies the runtime options unless that has been done or ruled out; `apply` being false
rules it out. -/
def customize (s : EigenSolver α) (o : Options) (apply : Bool) :
    EigenSolver α × Except SolverError Unit :=
  if !apply || s.customized then ({ s with customized := true }, .ok ())
  else
    let (handle, r) := s.handle.setFromOptions o
    match checked "Eps::set_from_options" r with
    | .ok () => ({ s with handle, customized := true }, .ok ())
    | .error e => ({ s with handle }, .error e)

end Configuration

/-- Solves the problem, after applying the runtime options. -/
def solve [Kernels α] (s : EigenSolver α) (o : Options) :
    EigenSolver α × Except (SolveFailure SolverError) Unit :=
  if s.state = .created then
    (s, .error (.error (.invalidState "set_operator(s) must be called before solve")))
  else
    match s.customize o true with
    | (s, .error e) => (s, .error (.error e))
    | (s, .ok ()) =>
      let (handle, r) := s.handle.solve
      match r with
      | .ok () => ({ s with handle, state := .solved }, .ok ())
      | .error e => ({ s with handle, state := .operatorSet }, .error (e.map (.package "Eps::solve")))

section Queries

def requireSolved (s : EigenSolver α) : Except SolverError Unit :=
  if s.state = .solved then .ok ()
  else .error (.invalidState s!"solution queried in state {s.state.name}, solve first")

/-- How many eigenpairs converged. -/
def converged? (s : EigenSolver α) : Except SolverError Nat := do
  s.requireSolved
  checked "Eps::converged" s.handle.converged?

def requireIndex (s : EigenSolver α) (i : Nat) : Except SolverError Unit := do
  let n ← s.converged?
  if n ≤ i then throw (.indexOutOfRange i n)

def eigenvalue? (s : EigenSolver α) (i : Nat) : Except SolverError (Cplx α) := do
  s.requireIndex i
  checked "Eps::eigenvalue" (s.handle.eigenvalue? i)

/-- The real part of an eigenvalue. -/
def realEigenvalue? (s : EigenSolver α) (i : Nat) : Except SolverError α := do
  return (← s.eigenvalue? i).re

/-- All converged eigenvalues. -/
def eigenvalues? (s : EigenSolver α) : Except SolverError (List (Cplx α)) := do
  (List.range (← s.converged?)).mapM s.eigenvalue?

/-- The layout of the rows of the attached matrix. -/
def rowLayout? (s : EigenSolver α) : Except SolverError Layout :=
  match s.handle.A with
  | some A => .ok A.rowLayout
  | none => .error (.invalidState "no operator attached")

/-- A view that is there already, or else a new one of the rows of the attached matrix. -/
def view? (s : EigenSolver α) : Option Layout → Except SolverError Layout
  | some view => .ok view
  | none => s.rowLayout?

/-- Writes the real part of an eigenvector to a buffer, which is returned whether this fails or
not. -/
def eigenvector (s : EigenSolver α) (i : Nat) (real : Array α) :
    (EigenSolver α × Array α) × Except SolverError Unit :=
  let prepared : Except SolverError Layout := do
    s.requireIndex i
    s.view? s.realView
  match prepared with
  | .error e => ((s, real), .error e)
  | .ok view =>
    let s := { s with realView := some view }
    match checked "VectorView::place_array" (LocalVector.place? view real) with
    | .error e => ((s, real), .error e)
    | .ok v =>
      let ((v, _), r) := s.handle.eigenvector i v none
      ((s, v.entries), checked "Eps::eigenvector" r)

/-- Writes both parts of an eigenvector to buffers, which are returned whether this fails or
not. -/
def eigenvectorComplex (s : EigenSolver α) (i : Nat) (real imag : Array α) :
    (EigenSolver α × Array α × Array α) × Except SolverError Unit :=
  let prepared : Except SolverError (Layout × Layout) := do
    s.requireIndex i
    return (← s.view? s.realView, ← s.view? s.imagView)
  match prepared with
  | .error e => ((s, real, imag), .error e)
  | .ok (realView, imagView) =>
    let s := { s with realView := some realView, imagView := some imagView }
    let placed : Except SolverError (LocalVector α × LocalVector α) := do
      let v ← checked "VectorView::place_array" (LocalVector.place? realView real)
      let w ← checked "VectorView::place_array" (LocalVector.place? imagView imag)
      return (v, w)
    match placed with
    | .error e => ((s, real, imag), .error e)
    | .ok (v, w) =>
      let ((v, w'), r) := s.handle.eigenvector i v (some w)
      ((s, v.entries, (w'.getD w).entries), checked "Eps::eigenvector" r)

end Queries

end EigenSolver

end Eigenmesh
