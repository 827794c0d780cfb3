import Eigenmesh.Solver.EigenSolver
import Eigenmesh.Package.Session

/-!
A program that uses the package, as a state machine: the session, the native matrices with
their holders, and the solvers that it has made, by name. A call changes the state and has a
reply or an error.
-/

namespace Eigenmesh

/-- The calls on an eigensolver. -/
inductive EigenSolver.Call (α : Type)
  | setOperators (A : Operator α) (B : Option (Operator α))
  | setTolerance (tolerance : α)
  | setMaxIterations (maxIterations : Nat)
  | setWanted (wanted : Nat)
  | setTarget (target : α)
  | setWhich (which : Which)
  | setTransform (type : TransformType)
  | setProblem (problem : ProblemType)
  | setSolver (solver : SolverType)
  | customize (apply : Bool)
  | solve
  | converged
  | eigenvalue (i : Nat)
  | eigenvalues
  | eigenvector (i : Nat) (real : Array α)
  | eigenvectorComplex (i : Nat) (real imag : Array α)

/-- The calls on a handle of the package. -/
inductive Handle.Call (α : Type)
  | setOperators (A : Mat α) (B : Option (Mat α))
  | setFamily (family : String)
  | setTolerances (tolerance : Option α) (maxIterations : Option Nat)
  | setWanted (wanted : Nat)
  | setTarget (target : α)
  | setWhich (which : Which)
  | setProblem (problem : ProblemType)
  | setSolver (solver : SolverType)
  | setTransform (type : TransformType)
  | setShift (shift : α)
  | setFromOptions
  | solve
  | converged
  | eigenvalue (i : Nat)
  | relativeError (i : Nat)
  | eigenvector (i : Nat) (real : LocalVector α) (imag : Option (LocalVector α))

/-- What a call answers. The buffers of a call for an eigenvector come back filled. -/
inductive Reply (α : Type)
  | done
  | count (n : Nat)
  | real (x : α)
  | value (z : Cplx α)
  | values (zs : List (Cplx α))
  | buffers (real : Array α) (imag : Option (Array α))

section Step

variable {α : Type} [Scalar α]

/-- A change that either succeeds or leaves everything as it was. -/
def settle {σ E : Type} (s : σ) (l : Ledger) (r : Except E σ) :
    (σ × Ledger) × Except (SolveFailure E) (Reply α) :=
  match r with
  | .ok s => ((s, l), .ok .done)
  | .error e => ((s, l), .error (.error e))

/-- What a routine that can only fail with an error answers. -/
def answered {β E : Type} (r : Except E β) (reply : β → Reply α) :
    Except (SolveFailure E) (Reply α) :=
  (r.map reply).mapError .error

/-- One call on an eigensolver, with the runtime options and the holders of the native
matrices. -/
def EigenSolver.step [Kernels α] (o : Options) (l : Ledger) (s : EigenSolver α) :
    EigenSolver.Call α → (EigenSolver α × Ledger) × Except (SolveFailure SolverError) (Reply α)
  | .setOperators A B =>
    let (sl, r) := s.setOperators l A B
    (sl, answered r fun _ => .done)
  | .setTolerance tolerance => settle s l (s.setTolerance? tolerance)
  | .setMaxIterations maxIterations => settle s l (s.setMaxIterations? maxIterations)
  | .setWanted wanted => settle s l (s.setWanted? wanted)
  | .setTarget target => settle s l (s.setTarget? target)
  | .setWhich which => ((s.setWhich which, l), .ok .done)
  | .setTransform type => ((s.setTransform type, l), .ok .done)
  | .setProblem problem => ((s.setProblem problem, l), .ok .done)
  | .setSolver solver => ((s.setSolver solver, l), .ok .done)
  | .customize apply =>
    let (s, r) := s.customize o apply
    ((s, l), answered r fun _ => .done)
  | .solve =>
    let (solved, r) := s.solve o
    -- the matrices are held while it lasts, whichever way it ends
    ((solved, s.handle.dropped (s.handle.retained l)), r.map fun _ => .done)
  | .converged => ((s, l), answered s.converged? .count)
  | .eigenvalue i => ((s, l), answered (s.eigenvalue? i) .value)
  | .eigenvalues => ((s, l), answered s.eigenvalues? .values)
  | .eigenvector i real =>
    let ((s, real), r) := s.eigenvector i real
    ((s, l), answered r fun _ => .buffers real none)
  | .eigenvectorComplex i real imag =>
    let ((s, real, imag), r) := s.eigenvectorComplex i real imag
    ((s, l), answered r fun _ => .buffers real (some imag))

/-- One call on a handle. -/
def Handle.step [Kernels α] (o : Options) (l : Ledger) (h : Handle α) :
    Handle.Call α → (Handle α × Ledger) × Except (SolveFailure PackageError) (Reply α)
  | .setOperators A B =>
    let (hl, r) := h.attach l A B
    (hl, answered r fun _ => .done)
  | .setFamily family => (({ h with family }, l), .ok .done)
  | .setTolerances tolerance maxIterations => settle h l (h.setTolerances? tolerance maxIterations)
  | .setWanted wanted => settle h l (h.setWanted? wanted)
  | .setTarget target => settle h l (h.setTarget? target)
  | .setWhich which => (({ h with which }, l), .ok .done)
  | .setProblem problem => (({ h with problem := some problem }, l), .ok .done)
  | .setSolver solver => (({ h with solver }, l), .ok .done)
  | .setTransform type =>
    (({ h with transform := { h.transform with type } }, l), .ok .done)
  | .setShift shift => settle h l (h.setShift? shift)
  | .setFromOptions =>
    let (h, r) := h.setFromOptions o
    ((h, l), answered r fun _ => .done)
  | .solve =>
    let (solved, r) := h.solve
    ((solved, h.dropped (h.retained l)), r.map fun _ => .done)
  | .converged => ((h, l), answered h.converged? .count)
  | .eigenvalue i => ((h, l), answered (h.eigenvalue? i) .value)
  | .relativeError i => ((h, l), answered (h.relativeError? i) .real)
  | .eigenvector i real imag =>
    let ((real, imag), r) := h.eigenvector i real imag
    ((h, l), answered r fun _ => .buffers real.entries (imag.map (·.entries)))

end Step

/-- A solver that the program has made. -/
inductive Slot (α : Type)
  | solver (s : EigenSolver α)
  | handle (h : Handle α)

def Slot.dropped {α : Type} [Scalar α] (l : Ledger) : Slot α → Ledger
  | .solver s => s.handle.dropped l
  | .handle h => h.dropped l

structure Workspace (α : Type) where
  session : Session
  ledger : Ledger
  slots : List (String × Slot α)

namespace Workspace

inductive Call (α : Type)
  | start (sources : OptionSources)
  | finish
  | setOption (name : String) (value : Option String)
  /-- Makes a solver under a name; one that has the name already is dropped afterwards. -/
  | newSolver (name family : String) (wrap : Bool)
  | newHandle (name : String)
  | drop (name : String)
  | solver (name : String) (call : EigenSolver.Call α)
  | handle (name : String) (call : Handle.Call α)

inductive Failure
  | package (e : PackageError)
  | solver (e : SolverError)
  /-- The arithmetic of a solve breaks down. -/
  | breakdown
  /-- There is no solver, or no handle, of that name. -/
  | noSuchSlot

/-- The failure of a call, its error being of the given kind. -/
def Failure.of {E : Type} (kind : E → Failure) : SolveFailure E → Failure
  | .error e => kind e
  | .breakdown => .breakdown

variable {α : Type}

def fresh : Workspace α := ⟨.fresh, .empty, []⟩

def slot? (w : Workspace α) (name : String) : Option (Slot α) := w.slots.lookup name

/-- The name stands for the given solver, in its place if it has one. -/
def putSlot (name : String) (slot : Slot α) : List (String × Slot α) → List (String × Slot α)
  | [] => [(name, slot)]
  | (k, s) :: rest => if k = name then (name, slot) :: rest else (k, s) :: putSlot name slot rest

variable [Scalar α]

/-- Without the solver of that name. -/
def dropSlot (w : Workspace α) (name : String) : Workspace α :=
  match w.slot? name with
  | some slot =>
    { session := w.session.release
      ledger := slot.dropped w.ledger
      slots := w.slots.filter fun e => e.1 ≠ name }
  | none => w

/-- Takes in a new solver, then drops the one that had the name. -/
def addSlot (w : Workspace α) (name : String) (slot : Slot α) : Workspace α :=
  let w := w.dropSlot name
  { w with slots := putSlot name slot w.slots }

/-- Registers a new handle with the session. -/
def create? (w : Workspace α) : Except PackageError (Workspace α) :=
  match w.session.register? with
  | .ok session => .ok { w with session }
  | .error e => .error (e.via "Eps::create")

/-- A change of the session. -/
def onSession (w : Workspace α) (r : Except PackageError Session) :
    Workspace α × Except Failure (Reply α) :=
  match r with
  | .ok session => ({ w with session }, .ok .done)
  | .error e => (w, .error (.package e))

def step [Kernels α] (w : Workspace α) : Call α → Workspace α × Except Failure (Reply α)
  | .start sources => w.onSession (w.session.start? sources)
  | .finish => w.onSession w.session.finish?
  | .setOption name value => w.onSession (w.session.setOption? name value)
  | .newSolver name family wrap =>
    match checked "Eps::create" w.create? with
    | .ok w => (w.addSlot name (.solver (.fresh family wrap)), .ok .done)
    | .error e => (w, .error (.solver e))
  | .newHandle name =>
    match w.create? with
    | .ok w => (w.addSlot name (.handle .fresh), .ok .done)
    | .error e => (w, .error (.package e))
  | .drop name =>
    if (w.slot? name).isSome then (w.dropSlot name, .ok .done) else (w, .error .noSuchSlot)
  | .solver name call =>
    match w.slot? name with
    | some (.solver s) =>
      let ((s, ledger), r) := s.step w.session.options w.ledger call
      ({ w with ledger, slots := putSlot name (.solver s) w.slots }, r.mapError (.of .solver))
    | _ => (w, .error .noSuchSlot)
  | .handle name call =>
    match w.slot? name with
    | some (.handle h) =>
      let ((h, ledger), r) := h.step w.session.options w.ledger call
      ({ w with ledger, slots := putSlot name (.handle h) w.slots }, r.mapError (.of .package))
    | _ => (w, .error .noSuchSlot)

/-- The state after some calls. -/
def run [Kernels α] (w : Workspace α) (calls : List (Call α)) : Workspace α :=
  calls.foldl (fun w c => (w.step c).1) w

end Workspace

end Eigenmesh
