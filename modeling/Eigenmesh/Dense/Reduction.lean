import Eigenmesh.Dense

/-!
Elimination of one column after the other, with the row of the largest entry brought to the top
before each. What is left of the other rows and columns is a matrix smaller by one, so
determinant and solution are given by recursion on the size.
-/

namespace Eigenmesh.Dense

variable {α : Type} [Scalar α]

/-- The matrix without row `i` and column `j`. -/
def minor (A : Dense α) (i j : Nat) : Dense α :=
  ofFn (A.rows - 1) (A.cols - 1) fun r c =>
    A.entry (if r < i then r else r + 1) (if c < j then c else c + 1)

/-- The first row whose entry in the first column is largest. -/
def pivotRow (A : Dense α) : Nat :=
  (A.rows.fold (fun i _ (best : Nat × α) =>
    let v := Scalar.abs (A.entry i 0)
    if best.2 < v then (i, v) else best) (0, Scalar.abs (A.entry 0 0))).1

/-- The index that `i` has once the first index and `p` are exchanged. -/
def exchanged (p i : Nat) : Nat := if i = 0 then p else if i = p then 0 else i

/-- Exchanges the first row and row `p`. -/
def raise (A : Dense α) (p : Nat) : Dense α :=
  ofFn A.rows A.cols fun i j => A.entry (exchanged p i) j

/-- How often the first row is contained in row `i + 1`, going by the first column. -/
def multiple (A : Dense α) (i : Nat) : α := A.entry (i + 1) 0 * (1 / A.entry 0 0)

/-- What elimination of the first column leaves of the other rows and columns. -/
def complement (A : Dense α) : Dense α :=
  ofFn (A.rows - 1) (A.cols - 1) fun i j =>
    A.entry (i + 1) (j + 1) - A.entry 0 (j + 1) * A.multiple i

/-- The product of `d`, the pivots of the matrix of size `n`, and the sign of their exchanges
times `sign`. A column without a pivot contributes its first entry. -/
def pivotProduct : Nat → (d sign : α) → Dense α → α
  | 0, d, sign, _ => d * sign
  | n + 1, d, sign, A =>
    let p := A.pivotRow
    if A.entry p 0 == 0 then pivotProduct n (d * A.entry 0 0) sign (A.minor 0 0)
    else
      let B := A.raise p
      pivotProduct n (d * B.entry 0 0) (if p = 0 then sign else -sign) B.complement

/-- The solution of `A x = b` for the matrix of size `n`, unless a pivot is zero. -/
def eliminate? : Nat → Dense α → Array α → Option (List α)
  | 0, _, _ => some []
  | n + 1, A, b => do
    let p := A.pivotRow
    if A.entry p 0 == 0 then none
    let B := A.raise p
    let at_ (i : Nat) : α := b.getD (exchanged p i) 0
    let x ← eliminate? n B.complement
      (Array.ofFn fun i : Fin n => at_ (i + 1) - at_ 0 * B.multiple i)
    let rest := x.zipIdx.foldr (fun (v, j) s => s - v * B.entry 0 (j + 1)) (at_ 0)
    return rest / B.entry 0 0 :: x

end Eigenmesh.Dense
