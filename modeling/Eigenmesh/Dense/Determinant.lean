import Eigenmesh.Dense.Reduction

/-!
Determinants and inverses. Small matrices are expanded: determinants up to size three along the
first row, inverses up to size four by cofactors. Larger ones are reduced column by column.
-/

namespace Eigenmesh.Dense

variable {α : Type} [Scalar α]

/-- The determinant of the leading part of size `n`, expanded along the first row. -/
def expandedDet : Nat → Dense α → α
  | 0, _ => 1
  | n + 1, A =>
    (List.range n).foldl (fun s k =>
      let term := A.entry 0 (k + 1) * expandedDet n (A.minor 0 (k + 1))
      if k % 2 = 0 then s - term else s + term) (A.entry 0 0 * expandedDet n (A.minor 0 0))

def det (A : Dense α) : α :=
  if A.rows ≤ 3 then A.expandedDet A.rows else A.pivotProduct A.rows 1 1

/-- The determinant of a matrix of size three as a sum of six products. -/
def sixProducts (A : Dense α) : α :=
  let product (i j k : Nat) (r s : Nat) : α := A.entry 0 i * A.entry r j * A.entry s k
  product 0 1 2 1 2 - product 0 1 2 2 1 - product 1 0 2 1 2 + product 1 0 2 2 1
    + product 2 0 1 1 2 - product 2 0 1 2 1

/-- The minor in row `i` and column `j` of the transpose, with its sign. -/
def cofactor (minorDet : Dense α → α) (A : Dense α) (i j : Nat) : α :=
  let m := minorDet (A.minor j i)
  if (i + j) % 2 = 0 then m else -m

/-- The inverse of a matrix of size three at most, its entries being cofactors over the
determinant. -/
def inverseUpTo3? (A : Dense α) : Option (Dense α) :=
  let d := A.det
  if d == 0 then none
  else some <| ofFn A.rows A.rows fun i j => cofactor det A i j / d

/-- The inverse of a matrix of size four, its entries being cofactors times the reciprocal of the
determinant, which is expanded along the first column. -/
def inverse4? (A : Dense α) : Option (Dense α) :=
  let c := cofactor sixProducts A
  let d := sumTo 4 fun k => A.entry k 0 * c 0 k
  if d == 0 then none
  else
    let reciprocal := 1 / d
    some <| ofFn 4 4 fun i j => c i j * reciprocal

/-- The inverse; there is none if a determinant or a pivot is zero. -/
def inverse? (A : Dense α) : Option (Dense α) :=
  let n := A.rows
  if n ≤ 3 then A.inverseUpTo3?
  else if n = 4 then A.inverse4?
  else
    ((Array.range n).mapM fun j => (A.eliminate? n (Coords.unit n j)).map List.toArray).map
      (ofCols n)

end Eigenmesh.Dense
