import Eigenmesh.Format.BigEndian
import Eigenmesh.Sparse.Csr

/-!
The PETSc binary format of matrices and vectors: 32-bit integers and 64-bit floating point
numbers, all with the most significant byte first. A number that says what follows comes first;
a matrix then has its sizes, the length of each row, all columns and all values, a vector its
length and values. Values are carried as their 64 bits.
-/

namespace Eigenmesh.Binary

/-- The numbers that must not be negative. -/
inductive Quantity
  | rowCount
  | columnCount
  | nonzeroCount
  | rowLength
  | columnIndex
  | vectorLength
  deriving DecidableEq

def Quantity.name : Quantity → String
  | .rowCount => "row count"
  | .columnCount => "column count"
  | .nonzeroCount => "nonzero count"
  | .rowLength => "row length"
  | .columnIndex => "column index"
  | .vectorLength => "vector length"

inductive Fault
  /-- The bytes end too early. -/
  | truncated
  | negative (what : Quantity) (value : Int)
  /-- The bytes hold something else than what is read. -/
  | wrongClass (found expected : Int)
  /-- A length to be written does not fit into 31 bits. -/
  | tooLong (length : Nat)
  /-- The rows do not fit the columns and values, or are not ordered. -/
  | inconsistent
  deriving DecidableEq

def Fault.message : Fault → String
  | .truncated => "failed to fill whole buffer"
  | .negative what value => s!"negative {what.name}: {value}"
  | .wrongClass found expected => s!"bad class id {found}, expected {expected}"
  | .tooLong length => s!"{length} exceeds 32-bit indices"
  | .inconsistent => "inconsistent matrix data"

def matrixClass : Nat := 1211216
def vectorClass : Nat := 1211214

/-- What reads from the front of some bytes and leaves the rest. -/
abbrev Reader (β : Type) := StateT (List UInt8) (Except Fault) β

def bytes (n : Nat) : Reader (List UInt8) := fun s =>
  let front := s.take n
  if front.length = n then .ok (front, s.drop n) else .error .truncated

def integer : Reader Int := do return BigEndian.signed (BigEndian.decode (← bytes 4))

def value : Reader UInt64 := do return UInt64.ofNat (BigEndian.decode (← bytes 8))

def length (what : Quantity) : Reader Nat := do
  let v ← integer
  if v < 0 then throw (.negative what v) else return v.toNat

def expectClass (expected : Nat) : Reader Unit := do
  let found ← integer
  if found = expected then return () else throw (.wrongClass found expected)

/-- The same reader so many times. -/
def times {β : Type} (r : Reader β) : Nat → Reader (List β)
  | 0 => return []
  | n + 1 => do
    let x ← r
    let xs ← times r n
    return x :: xs

def matrix : Reader (Csr UInt64) := do
  expectClass matrixClass
  let rows ← length .rowCount
  let cols ← length .columnCount
  let nnz ← length .nonzeroCount
  let rowLengths ← times (length .rowLength) rows
  let columns ← times (length .columnIndex) nnz
  let values ← times value nnz
  match Csr.ofParts? rowLengths cols columns values with
  | some A => return A
  | none => throw .inconsistent

def vector : Reader (List UInt64) := do
  expectClass vectorClass
  times value (← length .vectorLength)

def encodeLength (n : Nat) : Except Fault (List UInt8) :=
  if n < Nat.pow 2 31 then .ok (BigEndian.encode 4 n) else .error (.tooLong n)

def encodeValue (v : UInt64) : List UInt8 := BigEndian.encode 8 v.toNat

def encodeMatrix (A : Csr UInt64) : Except Fault (List UInt8) := do
  let rows ← encodeLength A.rows
  let cols ← encodeLength A.cols
  let nnz ← encodeLength A.nnz
  let stored := A.stored.toList
  let rowLengths ← stored.mapM fun row => encodeLength row.length
  let columns ← stored.flatten.mapM fun e => encodeLength e.1
  let values := stored.flatten.map fun e => encodeValue e.2
  return BigEndian.encode 4 matrixClass ++ rows ++ cols ++ nnz ++ rowLengths.flatten ++
    columns.flatten ++ values.flatten

def encodeVector (v : List UInt64) : Except Fault (List UInt8) := do
  let n ← encodeLength v.length
  return BigEndian.encode 4 vectorClass ++ n ++ (v.map encodeValue).flatten

end Eigenmesh.Binary
