import Eigenmesh.Factor.Store
import Eigenmesh.Kernels

/-!
The Cholesky factor of a positive definite matrix, column by column. A column fails if what is
left of its diagonal entry is not positive.
-/

namespace Eigenmesh.Factor

/-- Completes column `j`, the columns before it being complete. -/
def choleskyColumn (n j : Nat) (d : FloatArray) : Option FloatArray :=
  let d := j.fold (fun k _ d =>
    let c := read d (j + k * n)
    (n - j).fold (fun t _ d =>
      write d (j + t + j * n) (read d (j + t + j * n) - c * read d (j + t + k * n))) d) d
  let pivot := read d (j + j * n)
  if 0.0 < pivot then
    let root := pivot.sqrt
    some ((n - (j + 1)).fold (fun t _ d =>
      let k := j + 1 + t + j * n
      write d k (read d k / root)) (write d (j + j * n) root))
  else none

/-- The lower triangular factor, from the lower triangle of the matrix. -/
def cholesky? (A : Dense Float) : Option (Dense Float) := do
  let n := A.rows
  let d ← n.foldM (fun j _ d => choleskyColumn n j d) (store A)
  return .ofFn n n fun i j => if i < j then 0.0 else read d (i + j * n)

end Eigenmesh.Factor
