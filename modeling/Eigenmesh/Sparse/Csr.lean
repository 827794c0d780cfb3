import Eigenmesh.Dense
import Eigenmesh.Sparse.Row
import Eigenmesh.Word

/-!
Sparse matrices in compressed rows: each row lists the columns it stores, strictly
increasing and within the matrix, with their values. A stored value may be zero.
-/

namespace Eigenmesh

structure Csr (α : Type) where
  cols : Nat
  stored : Array (List (Nat × α))
  ordered : ∀ row ∈ stored, Row.Ordered cols row

namespace Csr

variable {α β : Type}

def rows (A : Csr α) : Nat := A.stored.size

def row (A : Csr α) (i : Nat) : List (Nat × α) := A.stored.getD i []

def isSquare (A : Csr α) : Bool := A.rows = A.cols

/-- How many entries are stored. -/
def nnz (A : Csr α) : Nat := A.stored.toList.flatten.length

/-- The stored entries as row, column and value, row by row. -/
def triplets (A : Csr α) : List (Nat × Nat × α) :=
  A.stored.toList.zipIdx.flatMap fun (row, i) => row.map fun (j, v) => (i, j, v)

/-- How many of the stored entries come before each row, and their number at the end. -/
def offsets (A : Csr α) : List Nat :=
  let rec after (n : Nat) : List (List (Nat × α)) → List Nat
    | [] => [n]
    | row :: rest => n :: after (n + row.length) rest
  after 0 A.stored.toList

/-- The columns and values of the given entries, by rows. -/
def byRows (rows : Nat) (ts : Array (Nat × Nat × α)) : Array (Array (Nat × α)) :=
  ts.foldl (fun lines (i, j, v) => lines.modify i (·.push (j, v))) (Array.replicate rows #[])

/-- The matrix with the given entries, those at the same position summed. A position outside the
matrix is passed over. -/
def ofTriplets [Add α] (rows cols : Nat) (ts : Array (Nat × Nat × α)) : Csr α where
  cols := cols
  stored := (byRows rows ts).map (Row.ofEntries cols)
  ordered := fun row h => by
    obtain ⟨es, _, rfl⟩ := Array.mem_map.1 h
    exact Row.ordered_ofEntries es

/-- The matrix made of the length of each row and of all columns and values in turn, if these
lists fit each other and every row is ordered. -/
def ofParts? (rowLengths : List Nat) (cols : Nat) (columns : List Nat) (values : List α) :
    Option (Csr α) :=
  let stored := (Row.cut rowLengths (columns.zip values)).toArray
  if h : columns.length = rowLengths.foldl (· + ·) 0 ∧ values.length = columns.length ∧
      ∀ row ∈ stored, Row.Ordered cols row then
    some { cols, stored, ordered := h.2.2 }
  else none

/-- The same stored places with other values. -/
def map {α β : Type} (f : α → β) (A : Csr α) : Csr β where
  cols := A.cols
  stored := A.stored.map fun row => row.map fun (j, v) => (j, f v)
  ordered := fun row h => by
    obtain ⟨r, hr, rfl⟩ := Array.mem_map.1 h
    obtain ⟨h1, h2⟩ := A.ordered r hr
    refine ⟨List.pairwise_map.2 h1, fun e he => ?_⟩
    obtain ⟨d, hd, rfl⟩ := List.mem_map.1 he
    exact h2 d hd

/-- The value at a position, zero where nothing is stored. -/
def entry [Zero α] (A : Csr α) (i j : Nat) : α := ((A.row i).lookup j).getD 0

/-- Every stored value is added to a matrix of zeros. -/
def toDense [Zero α] [Add α] (A : Csr α) : Dense α :=
  let lines := A.stored.map fun row =>
    row.foldl (fun line (j, v) => line.modify j (· + v)) (Array.replicate A.cols (0 : α))
  Dense.ofFn A.rows A.cols fun i j => (lines.getD i #[]).getD j 0

/-- The matrix in full, if there is room for all entries. -/
def toDense? [Zero α] [Add α] (A : Csr α) : Option (Dense α) :=
  if Word.isArray (A.rows * A.cols) 8 then some A.toDense else none

/-- Stores the entries of a dense matrix that are not zero. -/
def ofDense [Zero α] [BEq α] (A : Dense α) : Csr α where
  cols := A.cols
  stored := Array.ofFn fun i : Fin A.rows =>
    (List.range A.cols).filterMap fun j =>
      (if A.entry i j == 0 then none else some (A.entry i j)).map (j, ·)
  ordered := fun row h => by
    obtain ⟨i, rfl⟩ := Array.mem_ofFn.1 h
    exact Row.ordered_filterMap_range A.cols _

/-- The stored rows, if there is room for their offsets. -/
def ofDense? [Zero α] [BEq α] (A : Dense α) : Option (Csr α) :=
  if Word.isArray (A.rows + 1) 8 then some (ofDense A) else none

/-- The product with a vector. The sum over a row starts from minus zero, so a row without
entries gives minus zero. -/
def mulVec [Zero α] [Add α] [Mul α] [Neg α] (A : Csr α) (x : Array α) : Array α :=
  A.stored.map fun row => row.foldl (fun s (j, v) => s + v * x.getD j 0) (-0)

end Csr

end Eigenmesh
