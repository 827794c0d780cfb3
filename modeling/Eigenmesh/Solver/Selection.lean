import Eigenmesh.Cplx

/-!
The choices of an eigenvalue computation: which eigenvalues, of what kind of problem, by which
method, through which spectral transformation.
-/

namespace Eigenmesh

/-- Which part of the spectrum is wanted. -/
inductive Which
  | largestMagnitude
  | smallestMagnitude
  | largestReal
  | smallestReal
  | largestImaginary
  | smallestImaginary
  /-- Closest to the target. -/
  | targetMagnitude
  /-- Closest to the target along the real axis. -/
  | targetReal
  deriving DecidableEq

namespace Which

def all : List Which :=
  [.largestMagnitude, .smallestMagnitude, .largestReal, .smallestReal, .largestImaginary,
    .smallestImaginary, .targetMagnitude, .targetReal]

def name : Which → String
  | .largestMagnitude => "LargestMagnitude"
  | .smallestMagnitude => "SmallestMagnitude"
  | .largestReal => "LargestReal"
  | .smallestReal => "SmallestReal"
  | .largestImaginary => "LargestImaginary"
  | .smallestImaginary => "SmallestImaginary"
  | .targetMagnitude => "TargetMagnitude"
  | .targetReal => "TargetReal"

def optionName : Which → String
  | .largestMagnitude => "eps_largest_magnitude"
  | .smallestMagnitude => "eps_smallest_magnitude"
  | .largestReal => "eps_largest_real"
  | .smallestReal => "eps_smallest_real"
  | .largestImaginary => "eps_largest_imaginary"
  | .smallestImaginary => "eps_smallest_imaginary"
  | .targetMagnitude => "eps_target_magnitude"
  | .targetReal => "eps_target_real"

def needsTarget : Which → Bool
  | .targetMagnitude => true
  | .targetReal => true
  | _ => false

/-- The number by which eigenvalues are ordered, the preferred one having the least. -/
def key {α : Type} [Scalar α] (w : Which) (target : α) (z : Cplx α) : α :=
  match w with
  | .largestMagnitude => -z.norm
  | .smallestMagnitude => z.norm
  | .largestReal => -z.re
  | .smallestReal => z.re
  | .largestImaginary => -Scalar.abs z.im
  | .smallestImaginary => Scalar.abs z.im
  | .targetMagnitude => (z.shift (-target)).norm
  | .targetReal => Scalar.abs (z.re - target)

/-- Whether `z` may come before `w`. -/
def prefers {α : Type} [Scalar α] (which : Which) (target : α) (z w : Cplx α) : Bool :=
  Scalar.ranks (which.key target z) (which.key target w)

end Which

/-- What is known of the matrices of `A x = λ B x`. -/
inductive ProblemType
  /-- `A` is symmetric and there is no `B`. -/
  | hermitian
  /-- `A` is symmetric and `B` positive definite. -/
  | genHermitian
  | nonHermitian
  | genNonHermitian
  deriving DecidableEq

namespace ProblemType

def all : List ProblemType := [.hermitian, .genHermitian, .nonHermitian, .genNonHermitian]

def name : ProblemType → String
  | .hermitian => "Hermitian"
  | .genHermitian => "GenHermitian"
  | .nonHermitian => "NonHermitian"
  | .genNonHermitian => "GenNonHermitian"

def optionName : ProblemType → String
  | .hermitian => "eps_hermitian"
  | .genHermitian => "eps_gen_hermitian"
  | .nonHermitian => "eps_non_hermitian"
  | .genNonHermitian => "eps_gen_non_hermitian"

def isHermitian : ProblemType → Bool
  | .hermitian => true
  | .genHermitian => true
  | _ => false

def isGeneralized : ProblemType → Bool
  | .genHermitian => true
  | .genNonHermitian => true
  | _ => false

end ProblemType

inductive SolverType
  /-- A decomposition of the whole dense matrix. -/
  | lapack
  /-- The Lanczos iteration, for one symmetric matrix in assembled form. -/
  | lanczos
  deriving DecidableEq

namespace SolverType

def all : List SolverType := [.lapack, .lanczos]

def name : SolverType → String
  | .lapack => "lapack"
  | .lanczos => "lanczos"

def ofName? (s : String) : Option SolverType := all.find? fun t => t.name = s

end SolverType

inductive TransformType
  /-- `B⁻¹ A - σ` -/
  | shift
  /-- `(A - σ B)⁻¹ B` -/
  | shiftInvert
  deriving DecidableEq

namespace TransformType

def all : List TransformType := [.shift, .shiftInvert]

def name : TransformType → String
  | .shift => "shift"
  | .shiftInvert => "sinvert"

def ofName? (s : String) : Option TransformType := all.find? fun t => t.name = s

end TransformType

/-- How the last computation ended. -/
inductive Reason
  /-- There has been none since the operators were set. -/
  | iterating
  /-- As many eigenpairs as wanted are accurate enough. -/
  | convergedTol
  | divergedIts
  deriving DecidableEq

def Reason.name : Reason → String
  | .iterating => "Iterating"
  | .convergedTol => "ConvergedTol"
  | .divergedIts => "DivergedIts"

end Eigenmesh
