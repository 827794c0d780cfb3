import Eigenmesh.Sparse.Csr

/-!
The decompositions that the solvers are built on, as an interface. A solver names only what it
needs of a decomposition; how one is computed, and how well, is up to the arithmetic.
-/

namespace Eigenmesh

/-- A square matrix `A` factored with row exchanges into triangular factors. -/
structure Lu (β : Type) where
  /-- The diagonal of the upper factor. -/
  pivots : Array β
  /-- The solution of `A x = b`, unless a pivot is zero. -/
  solve? : Array β → Option (Array β)

/-- What becomes of a sparse matrix that is factored. -/
inductive SparseLu (α : Type)
  | factored (solve : Array α → Array α)
  /-- In some column there is no stored entry left to be the pivot. -/
  | deficient
  /-- A pivot is zero. -/
  | breakdown

class Kernels (α : Type) [Scalar α] where
  lu : Dense α → Lu α
  complexLu : Dense (Cplx α) → Lu (Cplx α)
  /-- The lower triangular `L` with `A = L Lᵀ`, if `A` is positive definite. Only the lower
  triangle of `A` is read. -/
  cholesky? : Dense α → Option (Dense α)
  sparseLu : Csr α → SparseLu α
  /-- The solution operator of a positive definite matrix, of which only the upper triangle is
  read. Of a longer vector it leaves the entries past the matrix as they are. -/
  sparseCholesky? : Csr α → Option (Array α → Array α)
  /-- Eigenvalues of a symmetric matrix and their vectors as columns, unless more than `budget`
  iterations are needed; zero is no limit. -/
  symmetricEigen? : (budget : Nat) → Dense α → Option (Array α × Dense α)
  /-- The eigenvalues of a real matrix, unless more than `budget` iterations are needed; zero is
  no limit. Of two conjugate ones that with positive imaginary part comes first. -/
  eigenvalues? : (budget : Nat) → Dense α → Option (List (Cplx α))
  /-- Approximate eigenpairs of a symmetric matrix from so many steps of the Lanczos
  iteration, unless that breaks off. -/
  lanczos? : (steps : Nat) → Csr α → Option (List (α × Array α))

end Eigenmesh
