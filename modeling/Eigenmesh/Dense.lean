import Eigenmesh.Cplx

/-!
Dense matrices, stored by rows. A matrix is given by its size and its entries, and every
operation is said entry by entry (`Dense.ofFn`, `Dense.entry`); a position outside the matrix
reads as zero.
-/

namespace Eigenmesh

structure Dense (α : Type) where
  rows : Nat
  cols : Nat
  entries : Array α
  size_eq : entries.size = rows * cols

namespace Dense

variable {α β : Type}

/-- The matrix with the entry `f i j` in row `i` and column `j`. -/
def ofFn (rows cols : Nat) (f : Nat → Nat → α) : Dense α where
  rows := rows
  cols := cols
  entries := Array.ofFn fun k : Fin (rows * cols) => f (k / cols) (k % cols)
  size_eq := Array.size_ofFn

def entry [Zero α] (A : Dense α) (i j : Nat) : α :=
  if j < A.cols then A.entries.getD (i * A.cols + j) 0 else 0

/-- Replaces one entry; a position outside the matrix changes nothing. -/
def set (A : Dense α) (i j : Nat) (v : α) : Dense α :=
  if j < A.cols then
    { A with
      entries := A.entries.setIfInBounds (i * A.cols + j) v
      size_eq := by rw [Array.size_setIfInBounds]; exact A.size_eq }
  else A

def map (f : α → β) (A : Dense α) : Dense β where
  rows := A.rows
  cols := A.cols
  entries := A.entries.map f
  size_eq := by rw [Array.size_map]; exact A.size_eq

def zeros [Zero α] (rows cols : Nat) : Dense α := ofFn rows cols fun _ _ => 0

def identity [Zero α] [One α] (n : Nat) : Dense α := ofFn n n fun i j => if i = j then 1 else 0

def transpose [Zero α] (A : Dense α) : Dense α := ofFn A.cols A.rows fun i j => A.entry j i

def row [Zero α] (A : Dense α) (i : Nat) : Array α := Array.ofFn fun j : Fin A.cols => A.entry i j

def col [Zero α] (A : Dense α) (j : Nat) : Array α := Array.ofFn fun i : Fin A.rows => A.entry i j

/-- The matrix with the given columns, each of length `rows`. -/
def ofCols [Zero α] (rows : Nat) (columns : Array (Array α)) : Dense α :=
  ofFn rows columns.size fun i j => (columns.getD j #[]).getD i 0

/-- The columns of `A` at the given indices, in that order. -/
def selectCols [Zero α] (A : Dense α) (columns : List Nat) : Dense α :=
  let js := columns.toArray
  ofFn A.rows js.size fun i c => A.entry i (js.getD c A.cols)

def isSquare (A : Dense α) : Bool := A.rows = A.cols

section Arithmetic

variable [Zero α] [Add α] [Sub α] [Mul α]

def add (A B : Dense α) : Dense α := ofFn A.rows A.cols fun i j => A.entry i j + B.entry i j

def sub (A B : Dense α) : Dense α := ofFn A.rows A.cols fun i j => A.entry i j - B.entry i j

def mul (A B : Dense α) : Dense α :=
  ofFn A.rows B.cols fun i j => sumTo A.cols fun k => A.entry i k * B.entry k j

def scale (A : Dense α) (c : α) : Dense α := A.map (· * c)

def mulVec (A : Dense α) (x : Array α) : Array α :=
  Array.ofFn fun i : Fin A.rows => sumTo A.cols fun j => A.entry i j * x.getD j 0

end Arithmetic

section Order

variable [Scalar α]

/-- The largest absolute value of an entry, going through the matrix by columns. -/
def amax (A : Dense α) : α :=
  A.cols.fold (fun j _ m =>
    A.rows.fold (fun i _ m =>
      let v := Scalar.abs (A.entry i j)
      if v ≤ m then m else v) m) 0

/-- Whether the matrix is square and its entries differ from those of the transpose by at most
`rtol` times the largest entry. -/
def isSymmetric (A : Dense α) (rtol : α) : Bool :=
  let scale := Scalar.max A.amax Scalar.leastNormal
  A.isSquare &&
    (List.range A.rows).all fun i => (List.range i).all fun j =>
      decide (Scalar.abs (A.entry j i - A.entry i j) ≤ rtol * scale)

end Order

/-- The real matrix read as a complex one. -/
def toCplx [Scalar α] (A : Dense α) : Dense (Cplx α) := A.map Cplx.ofReal

end Dense

/-! Sums, inner products and norms of coordinate arrays. -/

namespace Coords

variable {α : Type} [Scalar α]

def zeros (n : Nat) : Array α := Array.replicate n 0

/-- The unit vector with a one at `j`. -/
def unit (n j : Nat) : Array α := Array.ofFn fun i : Fin n => if i.val = j then 1 else 0

def dot (x y : Array α) : α := sumTo x.size fun i => x.getD i 0 * y.getD i 0

def norm (x : Array α) : α :=
  Scalar.sqrt (sumByEight x.size fun i => x.getD i 0 * x.getD i 0)

def add (x y : Array α) : Array α := Array.ofFn fun i : Fin x.size => x[i] + y.getD i 0

def sub (x y : Array α) : Array α := Array.ofFn fun i : Fin x.size => x[i] - y.getD i 0

/-- The entries of a product in place of those of a buffer. -/
def writeOver {α : Type} (product buffer : Array α) : Array α :=
  Array.ofFn fun i : Fin buffer.size => product.getD i buffer[i]

/-- The largest absolute value, zero for no coordinates. -/
def amax (x : Array α) : α :=
  x.foldl (fun m v => let a := Scalar.abs v; if a ≤ m then m else a) 0

/-- The length of a complex vector. -/
def cplxNorm (x : Array (Cplx α)) : α :=
  Scalar.sqrt (sumByEight x.size fun i => (x.getD i 0).normSq)

end Coords

end Eigenmesh
