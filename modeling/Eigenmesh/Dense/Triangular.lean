import Eigenmesh.Dense

/-!
Systems with a lower triangular matrix `L`, solved from one end to the other.
-/

namespace Eigenmesh.Dense

variable {α : Type} [Scalar α]

/-- The solution of `L x = b`, from the first unknown to the last. -/
def forward (L : Dense α) (b : Array α) : Array α :=
  L.rows.fold (fun i _ x =>
    x.push (i.fold (fun j _ s => s - L.entry i j * x.getD j 0) (b.getD i 0) / L.entry i i)) #[]

/-- Replaces the entries below `i` by the solution of `Lᵀ x = b`, those from `i` on being
solved already. -/
def backwardFrom (L : Dense α) : Nat → Array α → Array α
  | 0, x => x
  | i + 1, x =>
    let s := (L.rows - (i + 1)).fold (fun k _ s =>
      let j := L.rows - 1 - k
      s - L.entry j i * x.getD j 0) (x.getD i 0)
    L.backwardFrom i (x.setIfInBounds i (s / L.entry i i))

/-- The solution of `Lᵀ x = b`, from the last unknown to the first. -/
def backward (L : Dense α) (b : Array α) : Array α := L.backwardFrom L.rows b

/-- The same replacement, with what the solved entries contribute to an equation summed up before
it is subtracted. -/
def backwardSumsFrom (L : Dense α) : Nat → Array α → Array α
  | 0, x => x
  | i + 1, x =>
    let s := sumByEight (L.rows - (i + 1)) fun k =>
      L.entry (i + 1 + k) i * x.getD (i + 1 + k) 0
    L.backwardSumsFrom i (x.setIfInBounds i ((x.getD i 0 - s) / L.entry i i))

/-- The solution of `L Lᵀ x = b`. -/
def solveBoth (L : Dense α) (b : Array α) : Array α := L.backwardSumsFrom L.rows (L.forward b)

/-- Each column of `B` solved for. -/
def forwardCols (L B : Dense α) : Dense α :=
  .ofCols L.rows <| (Array.range B.cols).map fun j => L.forward (B.col j)

end Eigenmesh.Dense
