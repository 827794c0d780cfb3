import Eigenmesh.Factor.SymmetricEigen
import Eigenmesh.Sparse.Csr

/-!
The Lanczos iteration: an orthonormal basis of the vectors that a symmetric matrix makes of a
start vector, in which the matrix is tridiagonal. Every new vector is made orthogonal to all
before it. If nothing is left of it, another direction is taken up; but a vector that the matrix
takes to zero, or to what is not a number, breaks the iteration off.
-/

namespace Eigenmesh.Factor.Lanczos

/-- A vector with entries in no simple proportion to each other; `seed` tells several apart. -/
def startVector (n seed : Nat) : Array Float :=
  (Array.range n).map fun i => ((i + 1).toFloat * 12.9898 + seed.toFloat * 78.233).sin + 0.25

/-- Takes out the components along the given unit vectors, twice to keep off rounding. -/
def orthogonal (basis : Array (Array Float)) (x : Array Float) : Array Float :=
  let once (x : Array Float) : Array Float :=
    basis.foldl (fun x v =>
      let c := Coords.dot v x
      Coords.sub x (v.map (c * ·))) x
  once (once x)

def normalized (x : Array Float) : Array Float :=
  let length : Float := Coords.norm x
  x.map (· / length)

/-- A unit vector orthogonal to the basis, from the first of several trials that has one. -/
def fresh (n : Nat) (basis : Array (Array Float)) : Nat → Array Float
  | 0 => normalized (orthogonal basis (startVector n 0))
  | trials + 1 =>
    let x := orthogonal basis (startVector n (basis.size + trials))
    if 1e-8 < (Coords.norm x : Float) then normalized x else fresh n basis trials

/-- Extends the basis vector by vector; `diagonal` and `beside` are the tridiagonal matrix. -/
def extend (A : Csr Float) (size : Float) :
    Nat → Array (Array Float) → FloatArray → FloatArray →
      Option (Array (Array Float) × FloatArray × FloatArray)
  | 0, basis, diagonal, beside => some (basis, diagonal, beside)
  | steps + 1, basis, diagonal, beside =>
    let v := basis.getD (basis.size - 1) #[]
    let w := A.mulVec v
    let diagonal := diagonal.push (Coords.dot v w)
    if steps = 0 then some (basis, diagonal, beside)
    else if w.all (· == 0.0) then none
    else
      let w := orthogonal basis w
      let length : Float := Coords.norm w
      if length.isNaN then none
      else if 1e-12 * size < length then
        extend A size steps (basis.push (w.map (· / length))) diagonal (beside.push length)
      else
        extend A size steps (basis.push (fresh A.rows basis 16)) diagonal (beside.push 0.0)

end Lanczos

/-- The eigenpairs of the matrix restricted to the basis of `steps` vectors, unless the iteration
breaks off. -/
def lanczos? (steps : Nat) (A : Csr Float) : Option (List (Float × Array Float)) := do
  let size := A.triplets.foldl (fun m (_, _, v) => if m < v.abs then v.abs else m) 0.0
  let first := Lanczos.normalized (Lanczos.startVector A.rows 0)
  let (basis, diagonal, beside) ←
    Lanczos.extend A size steps #[first] (.emptyWithCapacity steps) (.emptyWithCapacity steps)
  let T : Tridiagonal := ⟨steps, diagonal, beside, unit steps⟩
  let T ← T.iterate 0 (patience steps) 0 (steps - 1)
  return (List.range steps).map fun j =>
    let x := (List.range steps).foldl (fun x k =>
      Coords.add x ((basis.getD k #[]).map (· * read T.vectors (k + j * steps))))
      (Coords.zeros A.rows)
    (read T.diagonal j, x)

end Eigenmesh.Factor
