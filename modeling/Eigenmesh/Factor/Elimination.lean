import Eigenmesh.Factor.Store
import Eigenmesh.Kernels

/-!
Elimination with row exchanges. In each column the entry of largest modulus on or below the
diagonal becomes the pivot, the first of several; a column without one is passed over, which
leaves a zero on the diagonal.
-/

namespace Eigenmesh.Factor

/-- A factored matrix: both factors in one square, and the row exchanged with each row. -/
structure Eliminated where
  size : Nat
  factors : FloatArray
  exchanges : Array Nat

namespace Eliminated

/-- The place of the first largest modulus in column `j` from row `j` on. -/
def pivotRow (n j : Nat) (d : FloatArray) : Nat :=
  ((n - j).fold (fun k _ (best : Nat × Float) =>
    let v := (read d (j + k + j * n)).abs
    if best.2 < v then (j + k, v) else best) (j, (read d (j + j * n)).abs)).1

/-- Subtracts multiples of row `j` from those below it. -/
def eliminate (n j : Nat) (d : FloatArray) : FloatArray :=
  let inverse := 1.0 / read d (j + j * n)
  let d := (n - (j + 1)).fold (fun k _ d =>
    let i := j + 1 + k
    write d (i + j * n) (read d (i + j * n) * inverse)) d
  (n - (j + 1)).fold (fun t _ d =>
    let c := j + 1 + t
    let top := read d (j + c * n)
    (n - (j + 1)).fold (fun k _ d =>
      let i := j + 1 + k
      write d (i + c * n) (read d (i + c * n) - top * read d (i + j * n))) d) d

def ofStore (n : Nat) (d : FloatArray) : Eliminated :=
  n.fold (fun j _ (f : Eliminated) =>
    let ⟨n, d, exchanges⟩ := f
    let p := pivotRow n j d
    if read d (p + j * n) == 0.0 then ⟨n, d, exchanges.push j⟩
    else ⟨n, eliminate n j (swapRows n n j p d), exchanges.push p⟩) ⟨n, d, #[]⟩

def pivots (f : Eliminated) : Array Float :=
  Array.ofFn fun i : Fin f.size => read f.factors (i + i * f.size)

def solve? (f : Eliminated) (b : Array Float) : Option (Array Float) :=
  let n := f.size
  let b := b.foldl (fun (x : FloatArray) v => x.push v) (.emptyWithCapacity n)
  let b := n.fold (fun i _ b => swapRows n 1 i (f.exchanges.getD i i) b) b
  let b := n.fold (fun i _ b =>
    let c := read b i
    (n - (i + 1)).fold (fun k _ b =>
      let r := i + 1 + k
      write b r (read b r - c * read f.factors (r + i * n))) b) b
  if f.pivots.any (· == 0.0) then none
  else
    let x := n.fold (fun t _ b =>
      let i := n - 1 - t
      let c := read b i / read f.factors (i + i * n)
      i.fold (fun r _ b => write b r (read b r - c * read f.factors (r + i * n))) (write b i c)) b
    some x.data

def toLu (f : Eliminated) : Lu Float where
  pivots := f.pivots
  solve? := f.solve?

end Eliminated

/-- The decomposition of a real matrix. -/
def lu (A : Dense Float) : Lu Float := (Eliminated.ofStore A.rows (store A)).toLu

end Eigenmesh.Factor
