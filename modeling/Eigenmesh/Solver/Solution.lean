import Eigenmesh.Solver.Spectrum

/-!
What is kept of a spectrum: the wanted eigenpairs in order of preference, with normalized
vectors, the error of each, and how many from the first on are accurate enough.
-/

namespace Eigenmesh

/-- An eigenpair and its relative residual. -/
structure Mode (α : Type) extends EigenPair α where
  error : α

structure Solution (α : Type) where
  modes : List (Mode α)
  /-- The number of converged modes, all at the front. -/
  converged : Nat

namespace Solution

variable {α : Type} [Scalar α]

/-- What is left when the budget is used up. -/
def exhausted : Solution α := ⟨[], 0⟩

/-- The product of a real matrix with a complex vector. -/
def cplxMul (A : Dense (Cplx α)) (x : Array (Cplx α)) : Array (Cplx α) := A.mulVec x

/-- The entry of largest modulus, the last one of several. -/
def pivot? (x : Array (Cplx α)) : Option (Cplx α) :=
  x.toList.foldl (fun best z =>
    match best with
    | some p => if Scalar.ranks p.norm z.norm then some z else some p
    | none => some z) none

/-- The length in the inner product of `B` for a symmetric pencil, else the usual length. -/
def length (B : Option (Dense (Cplx α))) (hermitian : Bool) (x : Array (Cplx α)) : α :=
  match B with
  | some B =>
    if hermitian then
      let y := cplxMul B x
      Scalar.sqrt (sumByEight x.size fun i => (x.getD i 0).conj * y.getD i 0).re
    else Coords.cplxNorm x
  | none => Coords.cplxNorm x

/-- The vector of length one on the same line whose entry of largest modulus is positive; a
vector that cannot be scaled so stays as it is. -/
def normalize (B : Option (Dense (Cplx α))) (hermitian : Bool) (x : Array (Cplx α)) :
    Array (Cplx α) :=
  let length := length B hermitian x
  match pivot? x with
  | none => x
  | some p =>
    if length == 0 || p.norm == 0 then x
    else
      let phase := p.conj.unscale p.norm
      x.map fun z => (z * phase).unscale length

/-- The length of `A x - λ B x` over those of `λ` and `x`; a zero `λ` counts as one. -/
def residual (A : Dense (Cplx α)) (B : Option (Dense (Cplx α))) (z : Cplx α)
    (x : Array (Cplx α)) : α :=
  let ax := cplxMul A x
  let bx := match B with
    | some B => cplxMul B x
    | none => x
  let rest := ax.mapIdx fun i v => v - bx.getD i 0 * z
  let size := if 0 < z.norm then z.norm else 1
  Coords.cplxNorm rest / (Coords.cplxNorm x * size)

/-- The pairs in order of preference, those equally preferred in their first order. -/
def sorted (which : Which) (target : α) (pairs : List (EigenPair α)) : List (EigenPair α) :=
  pairs.mergeSort fun p q => which.prefers target p.value q.value

def ofPair (A : Dense (Cplx α)) (B : Option (Dense (Cplx α))) (hermitian : Bool)
    (p : EigenPair α) : Mode α :=
  let x := normalize B hermitian p.vector
  { value := p.value, vector := x, error := residual A B p.value x }

/-- The first `wanted` of the sorted pairs. -/
def ofSpectrum (P : Pencil α) (hermitian : Bool) (which : Which) (target : α) (wanted : Nat)
    (tolerance : α) (pairs : List (EigenPair α)) : Solution α :=
  let A := P.A.toCplx
  let B := P.B.map Dense.toCplx
  let modes := ((sorted which target pairs).take wanted).map (ofPair A B hermitian)
  { modes, converged := (modes.takeWhile fun m => decide (m.error ≤ tolerance)).length }

end Solution

end Eigenmesh
