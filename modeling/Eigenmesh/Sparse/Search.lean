/-!
The place of a number in an increasing list, found by halving. If the list holds the number more
than once, or is not increasing, the halving still says which place is taken.
-/

namespace Eigenmesh.Search

/-- The last of the `size` places from `base` on that halving finds not to exceed `key`. -/
def floor (xs : Array Nat) (key base size : Nat) : Nat :=
  if size ≤ 1 then base
  else
    let half := size / 2
    floor xs key (if key < xs.getD (base + half) 0 then base else base + half) (size - half)
termination_by size

/-- The place of `key`, nothing if it is not found. -/
def place? (xs : Array Nat) (key : Nat) : Option Nat :=
  let i := floor xs key 0 xs.size
  if xs[i]? = some key then some i else none

end Eigenmesh.Search
