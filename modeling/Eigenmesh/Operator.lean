import Eigenmesh.Layout
import Eigenmesh.Package.Error
import Eigenmesh.Smoother

/-!
Linear operators, and the native matrices of the eigensolver package.

An operator is known by its action on vectors; some are assembled, and a native matrix may in
turn wrap any operator. Applying an operator to the unit vectors gives its matrix
(`Operator.probeDense`, `Operator.probeCsr`).
-/

namespace Eigenmesh

mutual

/-- A linear operator of the host program. -/
inductive Operator (α : Type) where
  | assembled (A : Csr α)
  | dense (A : Dense α)
  /-- Given by its action alone. -/
  | action (rows cols : Nat) (apply : Array α → Array α)
  | smoother (S : Smoother α)
  | native (M : Mat α)

/-- A matrix of the package. Several handles may share one; `number` tells matrices apart. -/
inductive Mat (α : Type) where
  | aij (number : Nat) (A : Csr α)
  | dense (number : Nat) (A : Dense α)
  /-- Wraps an operator without a copy. -/
  | shell (number : Nat) (op : Operator α)

end

inductive MatType
  | aij
  | dense
  | shell
  deriving DecidableEq

def MatType.name : MatType → String
  | .aij => "aij"
  | .dense => "dense"
  | .shell => "shell"

/-- The name in diagnostic output. -/
def MatType.debugName : MatType → String
  | .aij => "Aij"
  | .dense => "Dense"
  | .shell => "Shell"

section Size

variable {α : Type}

mutual

def Operator.height : Operator α → Nat
  | .assembled A => A.rows
  | .dense A => A.rows
  | .action rows _ _ => rows
  | .smoother S => S.matrix.rows
  | .native M => M.rows

def Mat.rows : Mat α → Nat
  | .aij _ A => A.rows
  | .dense _ A => A.rows
  | .shell _ op => op.height

end

mutual

def Operator.width : Operator α → Nat
  | .assembled A => A.cols
  | .dense A => A.cols
  | .action _ cols _ => cols
  | .smoother S => S.matrix.cols
  | .native M => M.cols

def Mat.cols : Mat α → Nat
  | .aij _ A => A.cols
  | .dense _ A => A.cols
  | .shell _ op => op.width

end

namespace Mat

def number : Mat α → Nat
  | .aij n _ => n
  | .dense n _ => n
  | .shell n _ => n

def type : Mat α → MatType
  | .aij _ _ => .aij
  | .dense _ _ => .dense
  | .shell _ _ => .shell

def rowLayout (M : Mat α) : Layout := Comm.world.layout M.rows

def colLayout (M : Mat α) : Layout := Comm.world.layout M.cols

/-- The stored rows of an assembled matrix. -/
def csr? : Mat α → Option (Csr α)
  | .aij _ A => some A
  | _ => none

end Mat

namespace Operator

/-- What the operator is backed by. -/
def kind : Operator α → String
  | .assembled _ => "assembled"
  | .native _ => "native"
  | _ => "matrix-free"

def isSquare (op : Operator α) : Bool := op.height = op.width

/-- The native matrix that the operator is. -/
def native? : Operator α → Option (Mat α)
  | .native M => some M
  | _ => none

end Operator

end Size

variable {α : Type} [Scalar α]

mutual

/-- The product with a vector. -/
def Operator.mult : Operator α → Array α → Array α
  | .assembled A, x => A.mulVec x
  | .dense A, x => A.mulVec x
  | .action _ _ apply, x => apply x
  | .smoother S, x => S.mult x
  | .native M, x => M.mult x

def Mat.mult : Mat α → Array α → Array α
  | .aij _ A, x => A.mulVec x
  | .dense _ A, x => A.mulVec x
  | .shell _ op, x => op.mult x

end

mutual

/-- Whether the operator can be applied to vectors of `n` entries: an assembled one takes its
own width only, others read as many entries as they need. -/
def Operator.takes : Operator α → Nat → Bool
  | .assembled A, n => n = A.cols
  | .dense A, n => A.cols ≤ n
  | .action _ cols _, n => cols ≤ n
  | .smoother S, n => S.takes n
  | .native M, n => M.takes n

def Mat.takes : Mat α → Nat → Bool
  | .aij _ A, n => n = A.cols
  | .dense _ A, n => A.cols ≤ n
  | .shell _ op, n => op.takes n

end

namespace Operator

/-- Whether the operator can be applied to the unit vectors, and there is room for these and for a
product. -/
def isProbed (op : Operator α) : Bool :=
  Word.isArray op.height 8 && Word.isArray op.width 8 && (op.width = 0 || op.takes op.width)

/-- The columns are the products with the unit vectors. -/
def probeDense (op : Operator α) : Dense α :=
  .ofCols op.height ((Array.range op.width).map fun j => op.mult (Coords.unit op.width j))

/-- The matrix without the entries that are zero. -/
def probeCsr (op : Operator α) : Csr α := .ofDense op.probeDense

def probeDense? (op : Operator α) : Option (Dense α) :=
  if op.isProbed && Word.isArray (op.height * op.width) 8 then some op.probeDense else none

def probeCsr? (op : Operator α) : Option (Csr α) :=
  if op.isProbed && Word.isArray (op.height + 1) 8 then some op.probeCsr else none

/-- The product with a vector, if the operator can be applied to it. -/
def mult? (op : Operator α) (x : Array α) : Option (Array α) :=
  if op.takes x.size then some (op.mult x) else none

end Operator

namespace Mat

def toDense : Mat α → Dense α
  | .aij _ A => A.toDense
  | .dense _ A => A
  | .shell _ op => op.probeDense

def toCsr : Mat α → Csr α
  | .aij _ A => A
  | .dense _ A => .ofDense A
  | .shell _ op => op.probeCsr

def toDense? : Mat α → Option (Dense α)
  | .aij _ A => A.toDense?
  | .dense _ A => some A
  | .shell _ op => op.probeDense?

def toCsr? : Mat α → Option (Csr α)
  | .aij _ A => some A
  | .dense _ A => Csr.ofDense? A
  | .shell _ op => op.probeCsr?

/-- The product with a vector, written to a buffer of `room` entries. -/
def multInto? (M : Mat α) (x : Array α) (room : Nat) : Except PackageError (Array α) :=
  if x.size = M.cols ∧ room = M.rows then .ok (M.mult x)
  else .error (.of .argSize
    s!"Nonconforming sizes: matrix {M.rows}x{M.cols}, x {x.size}, y {room}")

end Mat

/-- The stored rows that an operator becomes when it is assembled. -/
def Operator.toCsr : Operator α → Csr α
  | .native M => M.toCsr
  | .assembled A => A
  | op => op.probeCsr

def Operator.toCsr? : Operator α → Option (Csr α)
  | .native M => M.toCsr?
  | .assembled A => some A
  | op => op.probeCsr?

end Eigenmesh
