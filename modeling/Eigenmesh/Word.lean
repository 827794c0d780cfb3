/-!
Sizes and indices are natural numbers below `2 ^ 64`. The operations here give the exact
result where it is still such a number, and nothing where it is not. An array takes less than
`2 ^ 63` bytes.
-/

namespace Eigenmesh.Word

/-- The first number that is no longer a size. -/
def limit : Nat := Nat.pow 2 64

def fits (n : Nat) : Option Nat := if n < limit then some n else none

def add? (a b : Nat) : Option Nat := fits (a + b)
def mul? (a b : Nat) : Option Nat := fits (a * b)

/-- Whether there can be an array of `n` items that take `size` bytes each. -/
def isArray (n size : Nat) : Bool := n * size < Nat.pow 2 63

theorem fits_eq_some_iff {n m : Nat} : fits n = some m ↔ n = m ∧ n < limit := by
  unfold fits
  split
  · simp [*]
  · simp only [reduceCtorEq, false_iff]
    omega

end Eigenmesh.Word
