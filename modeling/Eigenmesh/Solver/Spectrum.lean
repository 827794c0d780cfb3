import Eigenmesh.Dense.Triangular
import Eigenmesh.Kernels
import Eigenmesh.Solver.Transform

/-!
All eigenpairs of a pencil `A x = λ B x`, by way of its transformed matrix.

A symmetric pencil with positive definite `B = L Lᵀ` becomes a symmetric matrix with
eigenvectors `Lᵀ x`. Any other has the eigenvalues of its transformed matrix computed first,
and an eigenvector for each of them by inverse iteration.
-/

namespace Eigenmesh

structure Pencil (α : Type) where
  A : Dense α
  B : Option (Dense α)
  /-- The same matrices by stored rows, if both are assembled. -/
  sparse : Option (Csr α × Option (Csr α))

structure EigenPair (α : Type) where
  value : Cplx α
  vector : Array (Cplx α)

/-- Why there is no spectrum. -/
inductive Pencil.Fault (α : Type)
  | notPositiveDefinite
  | singularB
  | singularShift (σ : α)
  /-- The shifted matrix by stored rows leaves no entry to be a pivot. -/
  | sparseLu
  /-- The shifted matrix by stored rows has a zero pivot. -/
  | breakdown
  | inverseIteration (θ : Cplx α)

def Pencil.Fault.failure {α : Type} [Scalar α] : Pencil.Fault α → SolveFailure PackageError
  | .notPositiveDefinite => .error <| .of .argWrong
    "B is not symmetric positive definite, use a non-hermitian problem type"
  | .singularB => .error <| .of .zeroPivot "B is singular, use shift-and-invert for this pencil"
  | .singularShift σ => .error <| .of .zeroPivot
    s!"A - sigma B is singular for sigma = {Scalar.text σ}, choose a different shift"
  | .sparseLu => .error <| .of .zeroPivot "sparse LU factorization failed"
  | .breakdown => .breakdown
  | .inverseIteration θ => .error <| .of .lib s!"Inverse iteration failed for eigenvalue {θ.text}"

namespace Pencil

variable {α : Type} [Scalar α]

/-- `A - σ B`, without `B` the matrix `A - σ`. -/
def shifted (P : Pencil α) (σ : α) : Dense α :=
  P.A.sub ((P.B.getD (.identity P.A.rows)).scale σ)

/-- `A - σ B` by stored rows. -/
def shiftedCsr (A : Csr α) (B : Option (Csr α)) (σ : α) : Csr α :=
  let shift : List (Nat × Nat × α) :=
    if σ == 0 then []
    else match B with
      | some B => B.triplets.map fun (i, j, v) => (i, j, -σ * v)
      | none => (List.range A.rows).map fun i => (i, i, -σ)
  .ofTriplets A.rows A.rows (A.triplets ++ shift).toArray

/-- Whether a pivot is zero, is not finite, or is no more than the rounding of the largest. -/
def hasBadPivot (pivots : Array α) : Bool :=
  let largest := Coords.amax pivots
  pivots.any fun p =>
    p == 0 || !Scalar.isFinite p || decide (Scalar.abs p ≤ Scalar.epsilon * largest)

/-- The columns `x` with `S x = b` for the columns `b` of a matrix, where `solve` gives `x`. -/
def solveCols (rows : Nat) (solve : Array α → Array α) (B : Dense α) : Dense α :=
  .ofCols rows <| (Array.range B.cols).map fun j => solve (B.col j)

variable [Kernels α]

/-- The columns `x` with `(A - σ B) x = b` for the columns `b` of a matrix. The dense
decomposition decides whether the shift is admissible. -/
def solveShifted? (P : Pencil α) (σ : α) (rhs : Dense α) :
    Except (Fault α) (Dense α) :=
  let n := P.A.rows
  let lu := Kernels.lu (P.shifted σ)
  if hasBadPivot lu.pivots then .error (.singularShift σ)
  else
    match P.sparse with
    | some (A, B) =>
      match Kernels.sparseLu (shiftedCsr A B σ) with
      | .factored solve => .ok (solveCols n solve rhs)
      | .deficient => .error .sparseLu
      | .breakdown => .error .breakdown
    | none => .ok (solveCols n (fun b => (lu.solve? b).getD b) rhs)

/-- The lower triangular factor of `B`, nothing without `B`. -/
def factorB? (P : Pencil α) : Except (Fault α) (Option (Dense α)) :=
  match P.B with
  | none => .ok none
  | some B =>
    match Kernels.cholesky? B with
    | some L => .ok (some L)
    | none => .error .notPositiveDefinite

/-- The symmetric matrix of a symmetric pencil, up to rounding: `L⁻¹ A L⁻ᵀ - σ` or
`Lᵀ (A - σ B)⁻¹ L`. -/
def reduced? (P : Pencil α) (T : Transform α) (σ : α) (L : Option (Dense α)) :
    Except (Fault α) (Dense α) :=
  let n := P.A.rows
  match T.type with
  | .shift =>
    let C := match L with
      | some L => L.forwardCols (L.forwardCols P.A).transpose
      | none => P.A
    .ok (C.sub ((Dense.identity n).scale σ))
  | .shiftInvert =>
    match L with
    | some L => (P.solveShifted? σ L).map fun X => L.transpose.mul X
    | none => P.solveShifted? σ (.identity n)

/-- The matrix averaged with its transpose. -/
def symmetrized (A : Dense α) : Dense α := (A.add A.transpose).scale 0.5

/-- The eigenpairs of a symmetric pencil; nothing if the budget is too small. Under
shift-and-invert the eigenvalue zero belongs to no eigenvalue of the pencil. -/
def hermitian? (P : Pencil α) (T : Transform α) (σ : α) (budget : Nat) :
    Except (Fault α) (Option (List (EigenPair α))) := do
  let L ← P.factorB?
  let reduced ← P.reduced? T σ L
  match Kernels.symmetricEigen? budget (symmetrized reduced) with
  | none => return none
  | some (values, vectors) =>
    return some <| values.toList.zipIdx.filterMap fun (θ, j) =>
      if T.type = .shiftInvert ∧ Scalar.abs θ < Scalar.epsilon then none
      else
        let y := vectors.col j
        let x := match L with
          | some L => L.backward y
          | none => y
        some ⟨T.back (.ofReal θ) σ, x.map .ofReal⟩

/-- The transformed matrix of any pencil. -/
def transformed? (P : Pencil α) (T : Transform α) (σ : α) : Except (Fault α) (Dense α) :=
  let n := P.A.rows
  match T.type with
  | .shift =>
    let quotient : Option (Dense α) := match P.B with
      | some B =>
        let lu := Kernels.lu B
        ((Array.range n).mapM fun j => lu.solve? (P.A.col j)).map (Dense.ofCols n)
      | none => some P.A
    match quotient with
    | some C => .ok (C.sub ((Dense.identity n).scale σ))
    | none => .error .singularB
  | .shiftInvert => P.solveShifted? σ (P.B.getD (.identity n))

/-- One step of inverse iteration: the solution for `x`, scaled to length one. -/
def inverseStep? (lu : Lu (Cplx α)) (x : Array (Cplx α)) : Option (Array (Cplx α)) := do
  let y ← lu.solve? x
  let length := Coords.cplxNorm y
  if Scalar.isFinite length && decide (0 < length) then return y.map (·.unscale length)
  else none

/-- Three steps with the matrix shifted by `μ`, from the vector of ones. -/
def inverseSteps? (M : Dense (Cplx α)) (μ : Cplx α) : Option (Array (Cplx α)) := do
  let n := M.rows
  let lu := Kernels.complexLu (.ofFn n n fun i j =>
    if i = j then M.entry i j - μ else M.entry i j - 0 * μ)
  let x ← inverseStep? lu (Array.replicate n 1)
  let x ← inverseStep? lu x
  inverseStep? lu x

/-- An eigenvector of `M` for the eigenvalue `θ`, which is moved a little so that the shifted
matrix can be inverted. -/
def eigenvector? (M : Dense (Cplx α)) (θ : Cplx α) : Option (Array (Cplx α)) :=
  let size := M.entries.foldl (fun s z => Scalar.max s z.norm) 1
  ([1e-10, 1e-8, 1e-6] : List α).findSome? fun ε => inverseSteps? M (θ.shift (ε * size))

/-- The eigenpairs of any pencil; nothing if the budget is too small. -/
def general? (P : Pencil α) (T : Transform α) (σ : α) (budget : Nat) :
    Except (Fault α) (Option (List (EigenPair α))) := do
  let M ← P.transformed? T σ
  match Kernels.eigenvalues? budget M with
  | none => return none
  | some values =>
    let M := M.toCplx
    let values := values.filter fun θ =>
      !(T.type = .shiftInvert ∧ θ.norm < Scalar.epsilon)
    let pairs ← values.mapM fun θ =>
      match eigenvector? M θ with
      | some x => Except.ok (EigenPair.mk (T.back θ σ) x)
      | none => Except.error (.inverseIteration θ)
    return some pairs

end Pencil

end Eigenmesh
