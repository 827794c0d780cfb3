import Eigenmesh.Dense.Determinant

/-!
A simplex of `n` dimensions, given by its `n + 1` corners as the columns of a matrix.
-/

namespace Eigenmesh.Simplex

variable {α : Type} [Scalar α]

/-- The edges from the first corner to the others. -/
def edges (corners : Dense α) : Dense α :=
  .ofFn corners.rows corners.rows fun r c => corners.entry r (c + 1) - corners.entry r 0

/-- The determinant of the edges. Its sign is the orientation. -/
def det (corners : Dense α) : α := (edges corners).det

/-- The corners without the first, without the second, and so on. -/
def sides {β : Type} : List β → List (List β)
  | [] => []
  | v :: rest => rest :: (sides rest).map (v :: ·)

end Eigenmesh.Simplex
