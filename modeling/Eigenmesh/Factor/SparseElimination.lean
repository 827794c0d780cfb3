import Eigenmesh.Factor.Store
import Eigenmesh.FillIn.Columns
import Eigenmesh.Kernels

/-!
Elimination of a sparse matrix, column after column in an order that keeps fill-in low. Each
column is brought up to date by the columns before it that reach it. Of its entries in rows that
have no pivot yet one of largest modulus becomes the pivot: a later candidate replaces an earlier
one unless it is at most as large, so what is not a number is not passed over. Only stored places
and those filled in on the way take part.
-/

namespace Eigenmesh.Factor

/-- The columns eliminated so far. -/
structure SparseElimination where
  /-- For each column, the rows below its pivot with their multipliers. -/
  lower : Array (List (Nat × Float))
  /-- For each column, the steps before it with its entries in their pivot rows. -/
  upper : Array (List (Nat × Float))
  pivots : Array Float
  /-- The step in which each row became the pivot row. -/
  stepOf : Array (Option Nat)

namespace SparseElimination

inductive Failure
  | deficient
  | breakdown

def empty (n : Nat) : SparseElimination := ⟨#[], #[], #[], Array.replicate n none⟩

def step? (s : SparseElimination) (r : Nat) : Option Nat := s.stepOf.getD r none

/-- Puts row `r` and the rows not seen yet that its elimination changes before the list, each
before those it changes. -/
def visit (s : SparseElimination) : (fuel : Nat) → (r : Nat) → Array Bool × List Nat →
    Array Bool × List Nat
  | 0, _, t => t
  | fuel + 1, r, (seen, rows) =>
    if seen.getD r true then (seen, rows)
    else
      let below := match s.step? r with
        | some k => s.lower.getD k []
        | none => []
      let (seen, rows) := below.foldl (fun t (i, _) => visit s fuel i t)
        (seen.setIfInBounds r true, rows)
      (seen, r :: rows)

/-- The rows in which a column with the given entries has a place once it is brought up to date,
each before those that its elimination changes. -/
def reach (s : SparseElimination) (entries : List (Nat × Float)) : List Nat :=
  let n := s.stepOf.size
  (entries.foldl (fun t (r, _) => s.visit (n + 1) r t) (Array.replicate n false, [])).2

/-- The entries of a column after the elimination of the columns before it. -/
def update (s : SparseElimination) (entries : List (Nat × Float)) (rows : List Nat) :
    FloatArray :=
  let x := entries.foldl (fun x (r, v) => write x r v) (zeros s.stepOf.size)
  rows.foldl (fun x r =>
    match s.step? r with
    | some k =>
      let top := read x r
      (s.lower.getD k []).foldl (fun x (i, l) => write x i (read x i - l * top)) x
    | none => x) x

/-- The row of the pivot among the given ones without a step. -/
def pivotRow? (s : SparseElimination) (x : FloatArray) (rows : List Nat) : Option Nat :=
  (rows.foldl (fun (best : Option Nat × Float) r =>
    let size := (read x r).abs
    if (s.step? r).isNone ∧ ¬ size ≤ best.2 then (some r, size) else best) (none, -1.0)).1

/-- Eliminates one more column, given by its stored entries. -/
def push (s : SparseElimination) (entries : List (Nat × Float)) :
    Except Failure SparseElimination :=
  let rows := s.reach entries
  let x := s.update entries rows
  match s.pivotRow? x rows with
  | none => .error .deficient
  | some p =>
    let pivot := read x p
    if pivot == 0.0 then .error .breakdown
    else
      let inverse := 1.0 / pivot
      .ok
        { lower := s.lower.push <| rows.filterMap fun r =>
            if (s.step? r).isNone ∧ r ≠ p then some (r, read x r * inverse) else none
          upper := s.upper.push <| rows.filterMap fun r => (s.step? r).map (·, read x r)
          pivots := s.pivots.push pivot
          stepOf := s.stepOf.setIfInBounds p (some s.pivots.size) }

/-- The solution for the right side `b`, where column `order k` has been eliminated in step
`k`. -/
def solve (s : SparseElimination) (order : Array Nat) (b : Array Float) : Array Float :=
  let n := s.pivots.size
  let y := b.zipIdx.foldl (fun y (v, r) =>
    match s.step? r with
    | some k => write y k v
    | none => y) (zeros n)
  let y := n.fold (fun k _ y =>
    let top := read y k
    (s.lower.getD k []).foldl (fun y (r, l) =>
      match s.step? r with
      | some i => write y i (read y i - l * top)
      | none => y) y) y
  let y := n.fold (fun t _ y =>
    let k := n - 1 - t
    let value := read y k * (1.0 / s.pivots.getD k 0.0)
    (s.upper.getD k []).foldl (fun y (i, u) => write y i (read y i - u * value))
      (write y k value)) y
  order.zipIdx.foldl (fun x (c, k) => x.setIfInBounds c (read y k)) (Array.replicate n 0.0)

end SparseElimination

/-- The rows and values stored in each column. -/
def sparseColumns (A : Csr Float) : Array (List (Nat × Float)) :=
  (A.triplets.foldl (fun (a : Array (Array (Nat × Float))) (i, j, v) =>
    a.modify j (·.push (i, v))) (Array.replicate A.cols #[])).map Array.toList

def sparseLu (A : Csr Float) : SparseLu Float :=
  let columns := sparseColumns A
  let order := FillIn.columnOrder A.rows (columns.map fun column => column.map (·.1))
  match order.foldlM (fun s c => SparseElimination.push s (columns.getD c [])) (.empty A.rows) with
  | .ok s => .factored (s.solve order)
  | .error .deficient => .deficient
  | .error .breakdown => .breakdown

end Eigenmesh.Factor
