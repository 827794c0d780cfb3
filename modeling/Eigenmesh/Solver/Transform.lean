import Eigenmesh.Package.Error
import Eigenmesh.Solver.Selection

/-!
Spectral transformations. The eigenvalues `θ` of the transformed matrix belong to eigenvalues
`λ` of the problem: `λ = θ + σ` under a shift, `λ = σ + 1 / θ` under shift-and-invert.
-/

namespace Eigenmesh

structure Transform (α : Type) where
  type : TransformType
  /-- The shift that was set, if any. -/
  shift : Option α

namespace Transform

variable {α : Type}

def default : Transform α := ⟨.shift, none⟩

variable [Scalar α]

def setShift? (t : Transform α) (shift : α) : Except PackageError (Transform α) :=
  if Scalar.isFinite shift then .ok { t with shift := some shift }
  else .error (.of .argOutOfRange s!"Shift must be finite, got {Scalar.text shift}")

/-- The shift that is used: the one that was set, else the target, else zero. -/
def effectiveShift (t : Transform α) (target : Option α) : α := (t.shift.or target).getD 0

def back (t : Transform α) (θ : Cplx α) (σ : α) : Cplx α :=
  match t.type with
  | .shift => θ.shift σ
  | .shiftInvert => θ.inv.shift σ

end Transform

end Eigenmesh
