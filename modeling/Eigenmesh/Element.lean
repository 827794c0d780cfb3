import Eigenmesh.Mesh.Simplex
import Eigenmesh.Word

/-!
Element matrices of piecewise linear functions on one simplex `K` of `n` dimensions.

With `λ i` the function that is one at corner `i` and zero at the others, the stiffness matrix
holds the integrals of `∇ (λ i) · ∇ (λ j)` and the mass matrix those of `λ i * λ j`. Gradients
are constant, so both are closed formulas in the volume of `K`.
-/

namespace Eigenmesh.Element

/-- Why there is no element matrix. -/
inductive Fault (α : Type)
  /-- The corners are not one more than their coordinates. -/
  | shape
  /-- The factorial of the dimension is no size. -/
  | dimension
  /-- The edges do not span the space. -/
  | degenerate (det : α)

namespace Fault

variable {α : Type} [Scalar α]

def message : Fault α → Option String
  | .shape => none
  | .dimension => none
  | .degenerate det => some s!"degenerate cell with determinant {Scalar.text det}"

end Fault

def factorial : Nat → Nat
  | 0 => 1
  | n + 1 => (n + 1) * factorial n

variable {α : Type} [Scalar α]

/-- The gradients of the `λ i` on the reference simplex, whose corners are the origin and the
unit vectors, one a column. -/
def referenceGradients (n : Nat) : Dense α :=
  .ofFn n (n + 1) fun i j => if j = 0 then -1 else if j = i + 1 then 1 else 0

def IsSimplex (corners : Dense α) : Prop := corners.cols = corners.rows + 1

instance (corners : Dense α) : Decidable (IsSimplex corners) :=
  inferInstanceAs (Decidable (_ = _))

/-- Passes on the corners of a simplex. -/
def simplex? (corners : Dense α) : Except (Fault α) (Dense α) :=
  if IsSimplex corners then .ok corners else .error .shape

def volume (corners : Dense α) : α :=
  Scalar.abs (Simplex.det corners) / Nat.cast (factorial corners.rows)

/-- The volume of a simplex, if the factorial in it is a size. -/
def volume? (corners : Dense α) : Except (Fault α) α := do
  let corners ← simplex? corners
  if factorial corners.rows < Word.limit then return volume corners else throw .dimension

/-- The gradients of the `λ i`, one a column. -/
def gradients? (corners : Dense α) : Except (Fault α) (Dense α) := do
  let corners ← simplex? corners
  match (Simplex.edges corners).inverse? with
  | some inverse => return inverse.transpose.mul (referenceGradients corners.rows)
  | none => throw (.degenerate (Simplex.det corners))

def stiffness? (corners : Dense α) : Except (Fault α) (Dense α) := do
  let gradients ← gradients? corners
  return (gradients.transpose.scale (← volume? corners)).mul gradients

def mass? (corners : Dense α) : Except (Fault α) (Dense α) := do
  let n := corners.rows
  let unit := (← volume? corners) / Nat.cast ((n + 1) * (n + 2))
  return .ofFn (n + 1) (n + 1) fun i j => (if i = j then 2.0 else 1) * unit

/-- The integrals of `λ i * f`, with `f` replaced by its interpolant. -/
def load? (f : Array α → α) (corners : Dense α) : Except (Fault α) (Array α) := do
  let mass ← mass? corners
  return mass.mulVec ((Array.range corners.cols).map fun c => f (corners.col c))

end Eigenmesh.Element
