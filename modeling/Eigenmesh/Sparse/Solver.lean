import Eigenmesh.Kernels
import Eigenmesh.Package.Error

/-!
Direct solution of sparse systems.
-/

namespace Eigenmesh.Csr

variable {α : Type} [Scalar α] [Kernels α]

/-- Why a matrix cannot be factored. -/
inductive FactorFault
  /-- Elimination runs out of stored entries. -/
  | deficient
  /-- Elimination meets a zero pivot. -/
  | breakdown
  | notPositiveDefinite

def FactorFault.error : FactorFault → PackageError
  | .deficient => .of .zeroPivot "sparse LU factorization failed"
  | .breakdown => .of .zeroPivot "sparse LU factorization failed"
  | .notPositiveDefinite =>
    .of .zeroPivot "sparse Cholesky factorization failed: NotPositiveDefinite"

/-- The solution operator by elimination. It takes right sides of the size of the matrix. -/
def solver? (A : Csr α) : Except FactorFault (Array α → Option (Array α)) :=
  match Kernels.sparseLu A with
  | .factored solve => .ok fun b => if b.size = A.rows then some (solve b) else none
  | .deficient => .error .deficient
  | .breakdown => .error .breakdown

/-- The solution operator of a positive definite matrix. Of a right side longer than the matrix the
entries past it are left as they are; a shorter one is not taken. -/
def positiveSolver? (A : Csr α) : Except FactorFault (Array α → Option (Array α)) :=
  match Kernels.sparseCholesky? A with
  | some solve => .ok fun b => if A.rows ≤ b.size then some (solve b) else none
  | none => .error .notPositiveDefinite

end Eigenmesh.Csr
