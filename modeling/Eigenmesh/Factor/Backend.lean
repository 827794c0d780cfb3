import Eigenmesh.Factor.Cholesky
import Eigenmesh.Factor.ComplexElimination
import Eigenmesh.Factor.Elimination
import Eigenmesh.Factor.Lanczos
import Eigenmesh.Factor.Schur
import Eigenmesh.Factor.SparseCholesky

/-!
The decompositions of matrices of doubles.
-/

namespace Eigenmesh

instance : Kernels Float where
  lu := Factor.lu
  complexLu := Factor.complexLu
  cholesky? := Factor.cholesky?
  sparseLu := Factor.sparseLu
  sparseCholesky? := Factor.sparseCholesky?
  symmetricEigen? := Factor.symmetricEigen?
  eigenvalues? := Factor.eigenvalues?
  lanczos? := Factor.lanczos?

end Eigenmesh
