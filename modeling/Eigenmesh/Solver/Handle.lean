import Eigenmesh.Ledger
import Eigenmesh.LocalVector
import Eigenmesh.Package.Options
import Eigenmesh.Solver.Solution
import Eigenmesh.Text.Quoted

/-!
A handle on an eigenvalue problem `A x = λ x` or `A x = λ B x` in the package: the matrices,
how the problem is to be solved, and the solution once it is.

The reason says how the last computation ended, and is `Reason.iterating` exactly as long as no
solution is stored.
-/

namespace Eigenmesh

structure Handle (α : Type) where
  /-- What the names of its runtime options start with. -/
  family : String
  A : Option (Mat α)
  B : Option (Mat α)
  /-- How many eigenpairs are wanted. -/
  wanted : Nat
  tolerance : Option α
  maxIterations : Option Nat
  which : Which
  target : Option α
  problem : Option ProblemType
  solver : SolverType
  transform : Transform α
  /-- Whether the configuration is to be reported before solving. -/
  viewRequested : Bool
  solution : Option (Solution α)
  reason : Reason

namespace Handle

/-- Why a call on a handle fails. -/
inductive Fault (α : Type)
  | notSquare (rows cols : Nat)
  | mismatch (rows cols n : Nat)
  | badTolerance (value : α)
  | noIterations
  | noneWanted
  | badTarget (value : α)
  | solverType (name : String)
  | transformType (name : String)
  | noOperators
  | tooMany (wanted n : Nat)
  | noTarget
  | problemType (type : ProblemType)
  | lanczosProblem
  | lanczosTransform
  | lanczosWhich (which : Which)
  | lanczosMatrix (type : MatType)
  | unsolved
  | badIndex (i converged : Nat)
  | vectorSize (size n : Nat)
  | layouts

def Fault.error {α : Type} [Scalar α] : Fault α → PackageError
  | .notSquare rows cols => .of .argWrong s!"A must be square, got {rows}x{cols}"
  | .mismatch rows cols n =>
    .of .argIncompatible s!"B ({rows}x{cols}) does not match A ({n}x{n})"
  | .badTolerance value =>
    .of .argOutOfRange s!"Illegal value of tol {Scalar.text value}. Must be > 0"
  | .noIterations => .of .argOutOfRange "Illegal value of maxits. Must be > 0"
  | .noneWanted => .of .argOutOfRange "Illegal value of nev. Must be > 0"
  | .badTarget value => .of .argOutOfRange s!"Target must be finite, got {Scalar.text value}"
  | .solverType name => .of .argWrong s!"Unknown eigensolver type '{name}'"
  | .transformType name => .of .argWrong s!"Unknown spectral transformation '{name}'"
  | .noOperators => .of .order "Eps::set_operators() must be called before Eps::solve()"
  | .tooMany wanted n => .of .argOutOfRange
    s!"The number of requested eigenvalues {wanted} must be <= the problem size {n}"
  | .noTarget => .of .argWrongState
    "Must give a target value when computing eigenvalues closest to a target"
  | .problemType type => .of .argIncompatible
    s!"Problem type {type.name} does not match the number of operators"
  | .lanczosProblem => .of .unsupported "lanczos only supports standard hermitian problems"
  | .lanczosTransform => .of .unsupported "lanczos does not support spectral transformations"
  | .lanczosWhich which => .of .unsupported s!"lanczos does not support {which.name}"
  | .lanczosMatrix type => .of .unsupported
    s!"lanczos needs an assembled operator, got a {type.name} matrix"
  | .unsolved => .of .order "Eps::solve() must be called before querying the solution"
  | .badIndex i converged => .of .argOutOfRange
    s!"Argument 2 out of range: index {i} with {converged} converged eigenpairs"
  | .vectorSize size n => .of .argSize
    s!"Vector of global size {size} incompatible with operator size {n}"
  | .layouts => .of .argIncompatible "Real and imaginary parts must share a layout"

variable {α : Type}

/-- A handle before anything is set. -/
def fresh : Handle α where
  family := ""
  A := none
  B := none
  wanted := 1
  tolerance := none
  maxIterations := none
  which := .largestMagnitude
  target := none
  problem := none
  solver := .lapack
  transform := .default
  viewRequested := false
  solution := none
  reason := .iterating

/-- Without a solution. -/
def invalidated (h : Handle α) : Handle α := { h with solution := none, reason := .iterating }

variable [Scalar α]

/-- The tolerance that applies when none is set. -/
def defaultTolerance : α := 1e-8

def toleranceInForce (h : Handle α) : α := h.tolerance.getD defaultTolerance

section Configuration

/-- Attaches the matrices of the problem; an earlier solution is dropped. -/
def setOperators? (h : Handle α) (A : Mat α) (B : Option (Mat α)) :
    Except PackageError (Handle α) :=
  if A.rows ≠ A.cols then .error (Fault.notSquare A.rows A.cols : Fault α).error
  else
    match B with
    | none => .ok { h with A := some A, B := none }.invalidated
    | some B =>
      if B.rows ≠ B.cols ∨ B.rows ≠ A.rows then
        .error (Fault.mismatch B.rows B.cols A.rows : Fault α).error
      else .ok { h with A := some A, B := some B }.invalidated

/-- Attaches matrices that others hold handles on. The handle counts as a holder of its own, and
gives up the matrices before. -/
def attach (h : Handle α) (l : Ledger) (A : Mat α) (B : Option (Mat α)) :
    (Handle α × Ledger) × Except PackageError Unit :=
  match h.setOperators? A B with
  | .error e => ((h, l), .error e)
  | .ok h' =>
    let l := (l.retain A.number).retainSlot B
    ((h', (l.releaseSlot h.A).releaseSlot h.B), .ok ())

/-- The matrices that the handle holds are released with it. -/
def dropped (h : Handle α) (l : Ledger) : Ledger := (l.releaseSlot h.A).releaseSlot h.B

/-- A further hold on the matrices of the handle, for the time of a call. -/
def retained (h : Handle α) (l : Ledger) : Ledger := (l.retainSlot h.A).retainSlot h.B

/-- What is not given stays as it is. -/
def setTolerances? (h : Handle α) (tolerance : Option α) (maxIterations : Option Nat) :
    Except PackageError (Handle α) := do
  if let some t := tolerance then
    unless 0 < t do throw (Fault.badTolerance t).error
  if maxIterations = some 0 then throw (Fault.noIterations : Fault α).error
  return { h with
    tolerance := tolerance.or h.tolerance
    maxIterations := maxIterations.or h.maxIterations }

def setWanted? (h : Handle α) (wanted : Nat) : Except PackageError (Handle α) :=
  if wanted = 0 then .error (Fault.noneWanted : Fault α).error else .ok { h with wanted }

def setTarget? (h : Handle α) (target : α) : Except PackageError (Handle α) :=
  if Scalar.isFinite target then .ok { h with target := some target }
  else .error (Fault.badTarget target).error

def setShift? (h : Handle α) (shift : α) : Except PackageError (Handle α) :=
  (h.transform.setShift? shift).map fun transform => { h with transform }

end Configuration

section RuntimeOptions

/-- What changes a handle and may fail on the way, keeping the changes made so far. -/
abbrev Update (α : Type) := ExceptT PackageError (StateM (Handle α))

/-- Replaces the handle by what a routine makes of it. -/
def update (routine : String) (f : Handle α → Except PackageError (Handle α)) :
    Update α Unit :=
  fun h => match f h with
    | .ok h => (.ok (), h)
    | .error e => (.error (e.via routine), h)

section Stages

variable {β : Type} (o : Options) (family : String)

/-- Passes the value of an option, if it is given, to a routine. -/
def applyValue (read : String → Option β) (option routine : String)
    (f : Handle α → β → Except PackageError (Handle α)) : Update α Unit := do
  if let some v ← o.value? read family option then update routine (f · v)

/-- Makes the choices whose flags are set, one after the other. -/
def applyFlags (choices : List β) (flag : β → String) (f : Handle α → β → Handle α) :
    Update α Unit :=
  choices.forM fun c => do
    if (← o.flag? family (flag c)) = some true then modify (f · c)

/-- Makes the choice that an option names. -/
def applyName (option : String) (ofName? : String → Option β) (unknown : String → Fault α)
    (f : Handle α → β → Handle α) : Update α Unit := do
  if let some name := o.string? family option then
    match ofName? name with
    | some c => modify (f · c)
    | none => throw (unknown name).error

/-- Tolerance and iteration limit are sent together, also if neither is given. -/
def applyTolerances : Update α Unit := do
  let tolerance ← o.value? Scalar.read? family "eps_tol"
  let maxIterations ← o.value? Decimal.size? family "eps_max_it"
  update "Eps::set_tolerances" (·.setTolerances? tolerance maxIterations)

end Stages

/-- Sets what the runtime options of a family say, one after the other. -/
def applyFamily (o : Options) (family : String) : Update α Unit := do
  applyValue o family Decimal.size? "eps_nev" "Eps::set_dimensions" setWanted?
  applyTolerances o family
  applyValue o family Scalar.read? "eps_target" "Eps::set_target" setTarget?
  applyFlags o family Which.all Which.optionName fun h which => { h with which }
  applyFlags o family ProblemType.all ProblemType.optionName
    fun h problem => { h with problem := some problem }
  applyName o family "eps_type" SolverType.ofName? .solverType fun h solver => { h with solver }
  applyName o family "st_type" TransformType.ofName? .transformType
    fun h type => { h with transform := { h.transform with type } }
  applyValue o family Scalar.read? "st_shift" "St::set_shift" setShift?
  if let some viewRequested ← o.flag? family "eps_view" then modify ({ · with viewRequested })

/-- Sets what the runtime options under the handle's own family say. -/
def applyOptions (o : Options) : Update α Unit := do applyFamily o (← get).family

/-- Sets what the runtime options say. -/
def setFromOptions (h : Handle α) (o : Options) : Handle α × Except PackageError Unit :=
  let (result, h) := (applyOptions o).run h
  (h, result.mapError (·.via "Eps::set_from_options"))

end RuntimeOptions

section Solve

variable [Kernels α]

/-- Matrices of which the symmetric part differs by no more than this from the matrix count as
symmetric. -/
def symmetryTolerance : α := 1e-12

/-- The attached matrices as a pencil. -/
def pencil (A : Mat α) (B : Option (Mat α)) : Pencil α where
  A := A.toDense
  B := B.map Mat.toDense
  sparse :=
    match A.csr?, B with
    | some A, none => some (A, none)
    | some A, some B => B.csr?.map fun B => (A, some B)
    | none, _ => none

/-- Whether the problem is solved as a symmetric one: as its type says, or as the matrices
look. -/
def isHermitian? (h : Handle α) (P : Pencil α) : Except PackageError Bool :=
  match h.problem with
  | some type =>
    if type.isGeneralized ≠ P.B.isSome then .error (Fault.problemType type : Fault α).error
    else .ok type.isHermitian
  | none =>
    .ok (P.A.isSymmetric symmetryTolerance && P.B.all (·.isSymmetric symmetryTolerance))

/-- The eigenpairs of any pencil by dense decomposition. -/
def general? (h : Handle α) (P : Pencil α) :
    Except (SolveFailure PackageError) (Bool × Option (List (EigenPair α))) :=
  ((P.general? h.transform (h.transform.effectiveShift h.target)
    (h.maxIterations.getD 0)).map (false, ·)).mapError (·.failure)

/-- The eigenpairs by dense decomposition, and whether the symmetric path was taken. Without a
problem type, a symmetric pencil whose `B` is not positive definite is solved as a general
one. -/
def lapack? (h : Handle α) (P : Pencil α) (hermitian : Bool) :
    Except (SolveFailure PackageError) (Bool × Option (List (EigenPair α))) :=
  if hermitian then
    match P.hermitian? h.transform (h.transform.effectiveShift h.target)
      (h.maxIterations.getD 0) with
    | .ok pairs => .ok (true, pairs)
    | .error .notPositiveDefinite =>
      if h.problem = none then h.general? P
      else .error (Pencil.Fault.notPositiveDefinite : Pencil.Fault α).failure
    | .error e => .error e.failure
  else h.general? P

/-- Eigenpairs by the Lanczos iteration, for one symmetric assembled matrix and its extreme
eigenvalues. -/
def lanczos? (h : Handle α) (A : Mat α) (P : Pencil α) (hermitian : Bool) :
    Except (SolveFailure PackageError) (List (EigenPair α)) :=
  let refuse (e : Fault α) : Except (SolveFailure PackageError) (List (EigenPair α)) :=
    .error (.error e.error)
  if P.B.isSome || !hermitian then refuse .lanczosProblem
  else if h.transform.type ≠ .shift || !(h.transform.effectiveShift h.target == 0) then
    refuse .lanczosTransform
  else if !(h.which ∈ [Which.largestReal, .largestMagnitude, .smallestReal, .smallestMagnitude])
  then refuse (.lanczosWhich h.which)
  else
    match A.csr? with
    | none => refuse (.lanczosMatrix A.type)
    | some csr =>
      let steps := min (h.maxIterations.getD (max (4 * h.wanted) 40)) A.rows
      match Kernels.lanczos? steps csr with
      | some pairs => .ok <| pairs.map fun (θ, x) => ⟨.ofReal θ, x.map .ofReal⟩
      | none => .error .breakdown

/-- The eigenpairs of the matrices, nothing if the budget is too small for them, and whether the
problem was solved as a symmetric one. -/
def spectrum? (h : Handle α) (A : Mat α) (B : Option (Mat α)) :
    Except (SolveFailure PackageError) (Bool × Option (List (EigenPair α))) :=
  match h.isHermitian? (pencil A B) with
  | .error e => .error (.error e)
  | .ok hermitian =>
    match h.solver with
    | .lapack => h.lapack? (pencil A B) hermitian
    | .lanczos => (h.lanczos? A (pencil A B) hermitian).map fun pairs => (true, some pairs)

/-- What is stored of a spectrum. -/
def kept (h : Handle α) (P : Pencil α) : Bool × Option (List (EigenPair α)) → Solution α
  | (hermitian, some pairs) =>
    .ofSpectrum P hermitian h.which (h.target.getD 0) h.wanted h.toleranceInForce pairs
  | (_, none) => .exhausted

/-- The solution of the problem with the given matrices. -/
def solution? (h : Handle α) (A : Mat α) (B : Option (Mat α)) :
    Except (SolveFailure PackageError) (Solution α) :=
  (h.spectrum? A B).map (h.kept (pencil A B))

/-- The matrices to solve with, if the handle is ready. -/
def ready? (h : Handle α) : Except PackageError (Mat α × Option (Mat α)) :=
  match h.A with
  | none => .error (Fault.noOperators : Fault α).error
  | some A =>
    if A.rows < h.wanted then .error (Fault.tooMany h.wanted A.rows : Fault α).error
    else if h.which.needsTarget && h.target.isNone then
      .error (Fault.noTarget : Fault α).error
    else .ok (A, h.B)

/-- The handle with a solution. -/
def solved (h : Handle α) (s : Solution α) : Handle α :=
  { h with
    solution := some s
    reason := if s.converged = h.wanted then .convergedTol else .divergedIts }

/-- Solves the problem. A handle that is ready loses its earlier solution even if this
fails. -/
def solve (h : Handle α) : Handle α × Except (SolveFailure PackageError) Unit :=
  match h.ready? with
  | .error e => (h, .error (.error (e.via "Eps::solve")))
  | .ok (A, B) =>
    match h.solution? A B with
    | .ok s => (h.solved s, .ok ())
    | .error e => (h.invalidated, .error (e.map (·.via "Eps::solve")))

end Solve

section Queries

def solutionFor? (h : Handle α) (routine : String) : Except PackageError (Solution α) :=
  match h.solution with
  | some s => .ok s
  | none => .error ((Fault.unsolved : Fault α).error.via routine)

/-- How many eigenpairs converged. -/
def converged? (h : Handle α) : Except PackageError Nat :=
  (h.solutionFor? "Eps::converged").map (·.converged)

/-- The converged mode with the given number. -/
def mode? (h : Handle α) (i : Nat) (routine : String) : Except PackageError (Mode α) :=
  match h.solutionFor? routine with
  | .error e => .error e
  | .ok s =>
    match (s.modes.take s.converged)[i]? with
    | some m => .ok m
    | none => .error ((Fault.badIndex i s.converged : Fault α).error.via routine)

def eigenvalue? (h : Handle α) (i : Nat) : Except PackageError (Cplx α) :=
  (h.mode? i "Eps::eigenvalue").map (·.value)

def relativeError? (h : Handle α) (i : Nat) : Except PackageError α :=
  (h.mode? i "Eps::relative_error").map (·.error)

/-- Writes the real part of an eigenvector to one vector and the imaginary part, if asked for,
to another. The vectors are returned whether this fails or not: the real part is written before
the layouts are compared. -/
def eigenvector (h : Handle α) (i : Nat) (real : LocalVector α) (imag : Option (LocalVector α)) :
    (LocalVector α × Option (LocalVector α)) × Except PackageError Unit :=
  match h.mode? i "Eps::eigenvector" with
  | .error e => ((real, imag), .error e)
  | .ok m =>
    if real.layout.globalSize ≠ m.vector.size then
      ((real, imag), .error
        ((Fault.vectorSize real.layout.globalSize m.vector.size : Fault α).error.via
          "Eps::eigenvector"))
    else
      let real := real.assign (m.vector.map (·.re))
      match imag with
      | none => ((real, none), .ok ())
      | some imag =>
        if imag.layout ≠ real.layout then
          ((real, some imag), .error ((Fault.layouts : Fault α).error.via "Eps::eigenvector"))
        else ((real, some (imag.assign (m.vector.map (·.im)))), .ok ())

/-- The diagnostic text of a handle. -/
def debugText (h : Handle α) (l : Ledger) : String :=
  let slot : Option (Mat α) → String
    | some M => s!"Some({M.debugText l})"
    | none => "None"
  s!"Eps \x7b prefix: {Text.quoted h.family}, a: {slot h.A}, b: {slot h.B}, nev: {h.wanted}, which: {h.which.name}, reason: {h.reason.name} \x7d"

end Queries

end Handle

end Eigenmesh
