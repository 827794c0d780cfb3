import Eigenmesh.Ledger

/-!
How operators are put together: from matrices, smoothers and closures of the host program, and from
native matrices that store one of these, wrap it or copy it.

A product is written to a buffer, which may hold what is left of an earlier product. All operators
but closures write every entry of the product; a closure does with the buffer what it likes.
-/

namespace Eigenmesh

inductive Construction (α : Type)
  | csr (A : Csr α)
  | dense (A : Dense α)
  /-- A closure, given by what it makes of a vector and of the buffer for the product. -/
  | closure (rows cols : Nat) (write : Array α → Array α → Array α)
  | smoother (S : Smoother α)
  | aij (A : Csr α)
  | nativeDense (A : Dense α)
  | shell (inner : Construction α)
  /-- An assembled copy. -/
  | copy (inner : Construction α)

variable {α : Type} [Scalar α]

namespace Construction

/-- The operator, with the native matrices that are made on the way. -/
def build (l : Ledger) : Construction α → Operator α × Ledger
  | csr A => (.assembled A, l)
  | dense A => (.dense A, l)
  | closure rows cols write => (.action rows cols fun x => write x (Coords.zeros rows), l)
  | smoother S => (.smoother S, l)
  | aij A => (l.aij A).map .native id
  | nativeDense A => (l.dense A).map .native id
  | shell inner =>
    let (op, l) := inner.build l
    (l.shell op).map .native id
  | copy inner =>
    let (op, l) := inner.build l
    (l.aij op.toCsr).map .native id

/-- The product with a vector, written to a buffer. -/
def multInto (l : Ledger) : Construction α → Array α → Array α → Array α
  | csr A, x, buffer => Coords.writeOver (A.mulVec x) buffer
  | dense A, x, buffer => Coords.writeOver (A.mulVec x) buffer
  | closure _ _ write, x, buffer => write x buffer
  | smoother S, x, buffer => Coords.writeOver (S.mult x) buffer
  | aij A, x, buffer => Coords.writeOver (A.mulVec x) buffer
  | nativeDense A, x, buffer => Coords.writeOver (A.mulVec x) buffer
  | shell inner, x, buffer => inner.multInto l x buffer
  | copy inner, x, buffer => Coords.writeOver ((inner.build l).1.toCsr.mulVec x) buffer

end Construction

/-- Adds a column to those that were found: sets the one of a unit vector, writes the product to the
buffer, which still holds the column before, and clears the one again. -/
def probeColumn (multInto : Array α → Array α → Array α) (j : Nat) :
    Array α × Array α × Array (Array α) → Array α × Array α × Array (Array α)
  | (unit, buffer, columns) =>
    let unit := unit.setIfInBounds j 1
    let buffer := multInto unit buffer
    (unit.setIfInBounds j 0, buffer, columns.push buffer)

/-- The columns found one after the other, with one unit vector and one buffer for all. -/
def probeInto (rows cols : Nat) (multInto : Array α → Array α → Array α) : Dense α :=
  .ofCols rows (cols.fold (fun j _ => probeColumn multInto j)
    (Coords.zeros cols, Coords.zeros rows, #[])).2.2

end Eigenmesh
