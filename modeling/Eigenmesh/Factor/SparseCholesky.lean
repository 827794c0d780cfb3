import Eigenmesh.Factor.SparseElimination
import Eigenmesh.FillIn.Symmetric

/-!
The Cholesky factor of a sparse positive definite matrix, row after row in an order that keeps
fill-in low. A row has places in the columns from which its stored entries can be reached upwards
in the forest of the rows before it. It fails if what is left of its diagonal entry is at most
zero.
-/

namespace Eigenmesh.Factor

/-- The rows factored so far. -/
structure SparseCholesky where
  /-- For each column, the rows below the diagonal with their entries. -/
  below : Array (Array (Nat × Float))
  diagonal : Array Float
  /-- The first row below the diagonal in each column. -/
  parent : Array (Option Nat)

namespace SparseCholesky

def empty (n : Nat) : SparseCholesky := ⟨Array.replicate n #[], #[], Array.replicate n none⟩

/-- The columns from `i` upwards that have not been seen, which row `k` joins on top. -/
def climb (k : Nat) : (fuel : Nat) → (i : Nat) → Array Bool × Array (Option Nat) →
    List Nat × (Array Bool × Array (Option Nat))
  | 0, _, t => ([], t)
  | fuel + 1, i, (seen, parent) =>
    if seen.getD i true then ([], (seen, parent))
    else
      let seen := seen.setIfInBounds i true
      match parent.getD i none with
      | none => ([i], (seen, parent.setIfInBounds i (some k)))
      | some p =>
        let (path, t) := climb k fuel p (seen, parent)
        (i :: path, t)

/-- The columns in which row `k` has a place, each before those it changes, and the forest with
this row. -/
def reach (s : SparseCholesky) (k : Nat) (entries : List (Nat × Float)) :
    List Nat × Array (Option Nat) :=
  let seen := (Array.replicate s.parent.size false).setIfInBounds k true
  let (columns, _, parent) := entries.foldl (fun (columns, t) (i, _) =>
    let (path, t) := climb k k i t
    (path ++ columns, t)) ([], (seen, s.parent))
  (columns, parent)

/-- Factors one more row, given by its entries up to the diagonal. -/
def push? (s : SparseCholesky) (entries : List (Nat × Float)) : Option SparseCholesky :=
  let k := s.diagonal.size
  let (columns, parent) := s.reach k entries
  let x := entries.foldl (fun x (i, v) => write x i v) (zeros (k + 1))
  let (_, rest, below) := columns.foldl (fun (x, rest, below) j =>
    let entry := read x j * (1.0 / s.diagonal.getD j 0.0)
    let x := (below.getD j #[]).foldl (fun x (i, l) => write x i (read x i - l * entry)) x
    (x, rest - entry * entry, below.modify j (·.push (k, entry)))) (x, read x k, s.below)
  if rest ≤ 0.0 then none else some { below, diagonal := s.diagonal.push rest.sqrt, parent }

/-- The entries of a column below the diagonal times the unknowns of their rows, summed by four
sums side by side, what does not fill all four in the first. -/
def dot (y : FloatArray) (column : Array (Nat × Float)) : Float :=
  let full := column.size / 4 * 4
  let sums := column.zipIdx.foldl (fun sums ((i, l), t) =>
    sums.modify (if t < full then t % 4 else 0) (· + l * read y i)) (Array.replicate 4 0.0)
  (sums.getD 0 0.0 + sums.getD 1 0.0) + (sums.getD 2 0.0 + sums.getD 3 0.0)

/-- Puts the solution for the first entries of `b` in their places, unknown `order k` being the one
of row `k`. Further entries stay as they are. -/
def solve (s : SparseCholesky) (order : Array Nat) (b : Array Float) : Array Float :=
  let n := s.diagonal.size
  let y := order.foldl (fun (y : FloatArray) i => y.push (b.getD i 0.0)) (.emptyWithCapacity n)
  let y := n.fold (fun j _ y =>
    let value := read y j * (1.0 / s.diagonal.getD j 0.0)
    (s.below.getD j #[]).foldl (fun y (i, l) => write y i (read y i - l * value))
      (write y j value)) y
  let y := n.fold (fun t _ y =>
    let j := n - 1 - t
    write y j ((read y j - dot y (s.below.getD j #[])) * (1.0 / s.diagonal.getD j 0.0))) y
  order.zipIdx.foldl (fun x (i, k) => x.setIfInBounds i (read y k)) b

end SparseCholesky

/-- The entries of the upper triangle, with unknown `i` in place `place i`: the rows up to the
diagonal that are stored in each column. -/
def upperColumns (A : Csr Float) (place : Array Nat) : Array (List (Nat × Float)) :=
  (A.triplets.foldl (fun (a : Array (Array (Nat × Float))) (i, j, v) =>
    let p := place.getD i 0
    let q := place.getD j 0
    if i ≤ j then a.modify (max p q) (·.push (min p q, v)) else a)
    (Array.replicate A.rows #[])).map Array.toList

/-- The upper triangle is read, and it stands for the lower one too. -/
def sparseCholesky? (A : Csr Float) : Option (Array Float → Array Float) := do
  let order := FillIn.symmetricOrder ((sparseColumns A).map fun column => column.map (·.1))
  let place := order.zipIdx.foldl (fun a (i, k) => a.setIfInBounds i k) (Array.replicate A.rows 0)
  let s ← (upperColumns A place).foldlM SparseCholesky.push? (.empty A.rows)
  return s.solve order

end Eigenmesh.Factor
