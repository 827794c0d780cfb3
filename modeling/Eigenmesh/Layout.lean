import Eigenmesh.Word

/-!
Rows of a matrix or vector spread over the ranks of a group of processes: each rank owns one
range, and the ranges of all ranks in turn are all rows. The library itself runs on one rank.
-/

namespace Eigenmesh

/-- A range of rows `start … start + localSize - 1` out of `globalSize`. -/
structure Layout where
  globalSize : Nat
  localSize : Nat
  start : Nat
  stop_le : start + localSize ≤ globalSize
  deriving DecidableEq

/-- Why a range is no layout. -/
inductive Layout.Fault
  /-- Its end is not a size. -/
  | overflow
  /-- It reaches beyond the last row. -/
  | outside

/-- A range without a last row has no message. -/
def Layout.Fault.message : Layout.Fault → Option String
  | .overflow => none
  | .outside => some "owned range exceeds global size"

namespace Layout

def stop (l : Layout) : Nat := l.start + l.localSize

def of? (globalSize localSize start : Nat) : Except Layout.Fault Layout :=
  if start + localSize < Word.limit then
    if h : start + localSize ≤ globalSize then .ok ⟨globalSize, localSize, start, h⟩
    else .error .outside
  else .error .overflow

/-- All rows on one rank. -/
def serial (n : Nat) : Layout := ⟨n, n, 0, by omega⟩

/-- The part of a column of all rows that the range owns. -/
def owned {α : Type} (l : Layout) (column : Array α) : Array α :=
  column.extract l.start l.stop

def text (l : Layout) : String := s!"[{l.start}..{l.stop}) of {l.globalSize}"

end Layout

/-- One rank of a group of processes. -/
structure Comm where
  size : Nat
  rank : Nat
  rank_lt : rank < size

namespace Comm

/-- The group of the calling process alone. -/
def world : Comm := ⟨1, 0, by decide⟩

def isRoot (c : Comm) : Bool := c.rank = 0

/-- The rows of this rank when `n` rows are spread as evenly as possible, the first ranks
taking one more where they do not divide. -/
def layout (c : Comm) (n : Nat) : Layout where
  globalSize := n
  localSize := n / c.size + if c.rank < n % c.size then 1 else 0
  start := c.rank * (n / c.size) + min c.rank (n % c.size)
  stop_le := by
    have hdiv := Nat.div_add_mod n c.size
    have hle : (c.rank + 1) * (n / c.size) ≤ c.size * (n / c.size) :=
      Nat.mul_le_mul_right _ c.rank_lt
    rw [Nat.add_mul, Nat.one_mul] at hle
    split <;> omega

end Comm

end Eigenmesh
