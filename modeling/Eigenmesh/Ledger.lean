import Eigenmesh.Operator

/-!
How many handles share each native matrix. A matrix is made with one handle, every further one
is counted, and the matrix is gone when the last is released.
-/

namespace Eigenmesh

/-- The counts by the numbers of the matrices. -/
structure Ledger where
  counts : Array Nat

namespace Ledger

def empty : Ledger := ⟨#[]⟩

def count (l : Ledger) (number : Nat) : Nat := l.counts.getD number 0

/-- The number for a new matrix, held by one handle. -/
def create (l : Ledger) : Nat × Ledger := (l.counts.size, ⟨l.counts.push 1⟩)

def retain (l : Ledger) (number : Nat) : Ledger := ⟨l.counts.modify number (· + 1)⟩

def release (l : Ledger) (number : Nat) : Ledger := ⟨l.counts.modify number (· - 1)⟩

variable {α : Type}

def retainSlot (l : Ledger) : Option (Mat α) → Ledger
  | some M => l.retain M.number
  | none => l

def releaseSlot (l : Ledger) : Option (Mat α) → Ledger
  | some M => l.release M.number
  | none => l

/-- A new assembled matrix. -/
def aij (l : Ledger) (A : Csr α) : Mat α × Ledger :=
  let (number, l) := l.create
  (.aij number A, l)

/-- A new dense matrix. -/
def dense (l : Ledger) (A : Dense α) : Mat α × Ledger :=
  let (number, l) := l.create
  (.dense number A, l)

/-- A new matrix around an operator. -/
def shell (l : Ledger) (op : Operator α) : Mat α × Ledger :=
  let (number, l) := l.create
  (.shell number op, l)

end Ledger

/-- The diagnostic text of a matrix. -/
def Mat.debugText {α : Type} (M : Mat α) (l : Ledger) : String :=
  s!"Mat \x7b type: {M.type.debugName}, nrows: {M.rows}, ncols: {M.cols}, refs: {l.count M.number} \x7d"

end Eigenmesh
