import Eigenmesh.Dense
import Eigenmesh.Scalar.Double

/-!
Matrices of doubles as one flat array by columns, updated in place by the decompositions. A
position outside the array reads as zero and is not written.
-/

namespace Eigenmesh.Factor

@[inline] def read (d : FloatArray) (k : Nat) : Float := if h : k < d.size then d.get k h else 0.0

@[inline] def write (d : FloatArray) (k : Nat) (v : Float) : FloatArray :=
  if h : k < d.size then d.set k v h else d

def zeros (n : Nat) : FloatArray := ⟨Array.replicate n 0.0⟩

/-- The identity matrix of size `n`. -/
def unit (n : Nat) : FloatArray := n.fold (fun i _ d => write d (i * n + i) 1.0) (zeros (n * n))

/-- The entries of a matrix, column by column. -/
def store (A : Dense Float) : FloatArray :=
  A.cols.fold (fun j _ d => A.rows.fold (fun i _ (d : FloatArray) => d.push (A.entry i j)) d)
    (.emptyWithCapacity (A.rows * A.cols))

/-- The matrix with `rows` rows whose columns follow each other. -/
def load (rows cols : Nat) (d : FloatArray) : Dense Float :=
  .ofFn rows cols fun i j => read d (i + j * rows)

/-- The largest absolute value. What is not a number is passed over by any value after it. -/
def largest (d : FloatArray) : Float :=
  d.foldl (fun m v => if v.abs ≤ m then m else v.abs) 0.0

/-- Whether an entry beside two diagonal entries is no more than their rounding; not so if one of
them is not a number. -/
def isRounding (beside x y : Float) : Bool :=
  decide (beside.abs ≤ Scalar.epsilon * (x.abs + y.abs))

def scale (d : FloatArray) (c : Float) : FloatArray :=
  d.size.fold (fun k _ d => write d k (read d k * c)) d

def unscale (d : FloatArray) (c : Float) : FloatArray :=
  d.size.fold (fun k _ d => write d k (read d k / c)) d

/-- Exchanges two rows of a matrix with `n` rows in its first `cols` columns. -/
def swapRows (n cols i k : Nat) (d : FloatArray) : FloatArray :=
  if i = k then d
  else cols.fold (fun j _ d =>
    let a := read d (i + j * n)
    let b := read d (k + j * n)
    write (write d (i + j * n) b) (k + j * n) a) d

/-- A unit vector `u` such that the reflection `1 - 2 u uᵀ` moves `x` onto the first axis, and
the coordinate reached there; only the coordinate if all entries are zero. -/
def reflection (x : FloatArray) : Option FloatArray × Float :=
  let squares := sumByEight x.size fun k => read x k * read x k
  let norm := squares.sqrt
  let first := read x 0
  let reached := if 0.0 ≤ first then norm else -norm
  let factor := (squares + first.abs * norm) * 2.0
  if factor == 0.0 then (none, reached)
  else
    let u := unscale (write x 0 (first + reached)) factor.sqrt
    let length := (sumByEight u.size fun k => read u k * read u k).sqrt
    (some (unscale u length), -reached)

/-- The part of a column of a matrix with `n` rows from row `i` on. -/
def column (n j i : Nat) (d : FloatArray) : FloatArray :=
  (n - i).fold (fun k _ (x : FloatArray) => x.push (read d (i + k + j * n)))
    (.emptyWithCapacity (n - i))

/-- Reflects the part of a column that starts at row `i`. -/
def reflectColumn (n j i : Nat) (u : FloatArray) (d : FloatArray) : FloatArray :=
  let dot := sumByEight u.size fun k => read u k * read d (i + k + j * n)
  u.size.fold (fun k _ d =>
    write d (i + k + j * n) (read d (i + k + j * n) - 2.0 * dot * read u k)) d

/-- Reflects the part of a row that starts at column `j`. -/
def reflectRow (n i j : Nat) (u : FloatArray) (d : FloatArray) : FloatArray :=
  let dot := u.size.fold (fun k _ s => s + read u k * read d (i + (j + k) * n)) 0.0
  u.size.fold (fun k _ d =>
    write d (i + (j + k) * n) (read d (i + (j + k) * n) - 2.0 * dot * read u k)) d

/-- The cosine and sine of the turn that brings `(x, y)` onto the first axis, if the length of
that vector is more than `least`. -/
def turnOnto? (least x y : Float) : Option (Float × Float) :=
  let modulus := if 0.0 ≤ x then x else -x
  let length := (modulus * modulus + y * y).sqrt
  if least < length then some (modulus / length, y / if 0.0 ≤ x then length else -length)
  else none

/-- Turns columns `j` and `k` in their plane: `j` becomes `c * j + s * k` and `k` becomes
`c * k - s * j`, in the first `rows` rows. -/
def turnColumns (n rows j k : Nat) (c s : Float) (d : FloatArray) : FloatArray :=
  rows.fold (fun i _ d =>
    let a := read d (i + j * n)
    let b := read d (i + k * n)
    write (write d (i + j * n) (c * a + s * b)) (i + k * n) (c * b - s * a)) d

/-- The same for rows `i` and `k`, from column `first` on. -/
def turnRows (n first i k : Nat) (c s : Float) (d : FloatArray) : FloatArray :=
  (n - first).fold (fun t _ d =>
    let a := read d (i + (first + t) * n)
    let b := read d (k + (first + t) * n)
    write (write d (i + (first + t) * n) (c * a + s * b)) (k + (first + t) * n) (c * b - s * a)) d

end Eigenmesh.Factor
