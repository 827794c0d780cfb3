import Eigenmesh.Factor.Store
import Eigenmesh.Kernels

/-!
Elimination with row exchanges for complex matrices. The modulus that pivots are chosen by is
the sum of the absolute values of both parts. Each entry takes two places of the store.
-/

namespace Eigenmesh.Factor

/-- A factored complex matrix, as in `Eliminated`. -/
structure ComplexEliminated where
  size : Nat
  factors : FloatArray
  exchanges : Array Nat

namespace ComplexEliminated

@[inline] def readC (d : FloatArray) (k : Nat) : Cplx Float := ⟨read d (2 * k), read d (2 * k + 1)⟩

@[inline] def writeC (d : FloatArray) (k : Nat) (z : Cplx Float) : FloatArray :=
  write (write d (2 * k) z.re) (2 * k + 1) z.im

/-- Subtracts `z * w` from the entry at `k`. -/
@[inline] def subMul (d : FloatArray) (k : Nat) (z w : Cplx Float) : FloatArray :=
  let a := read d (2 * k)
  let b := read d (2 * k + 1)
  write (write d (2 * k) (a - (z.re * w.re - z.im * w.im)))
    (2 * k + 1) (b - (z.re * w.im + z.im * w.re))

def pivotRow (n j : Nat) (d : FloatArray) : Nat :=
  ((n - j).fold (fun k _ (best : Nat × Float) =>
    let v := (readC d (j + k + j * n)).taxicab
    if best.2 < v then (j + k, v) else best) (j, (readC d (j + j * n)).taxicab)).1

def swapRows (n cols i k : Nat) (d : FloatArray) : FloatArray :=
  if i = k then d
  else cols.fold (fun j _ d =>
    let a := readC d (i + j * n)
    let b := readC d (k + j * n)
    writeC (writeC d (i + j * n) b) (k + j * n) a) d

def eliminate (n j : Nat) (d : FloatArray) : FloatArray :=
  let inverse := 1 / readC d (j + j * n)
  let d := (n - (j + 1)).fold (fun k _ d =>
    let i := j + 1 + k
    writeC d (i + j * n) (readC d (i + j * n) * inverse)) d
  (n - (j + 1)).fold (fun t _ d =>
    let c := j + 1 + t
    let top := readC d (j + c * n)
    (n - (j + 1)).fold (fun k _ d =>
      let i := j + 1 + k
      subMul d (i + c * n) top (readC d (i + j * n))) d) d

def ofStore (n : Nat) (d : FloatArray) : ComplexEliminated :=
  n.fold (fun j _ (f : ComplexEliminated) =>
    let ⟨n, d, exchanges⟩ := f
    let p := pivotRow n j d
    if (readC d (p + j * n)).isZero then ⟨n, d, exchanges.push j⟩
    else ⟨n, eliminate n j (swapRows n n j p d), exchanges.push p⟩) ⟨n, d, #[]⟩

def pivots (f : ComplexEliminated) : Array (Cplx Float) :=
  Array.ofFn fun i : Fin f.size => readC f.factors (i + i * f.size)

def solve? (f : ComplexEliminated) (b : Array (Cplx Float)) : Option (Array (Cplx Float)) :=
  let n := f.size
  let b := b.foldl (fun (x : FloatArray) z => (x.push z.re).push z.im) (.emptyWithCapacity (2 * n))
  let b := n.fold (fun i _ b => swapRows n 1 i (f.exchanges.getD i i) b) b
  let b := n.fold (fun i _ b =>
    let c := readC b i
    (n - (i + 1)).fold (fun k _ b =>
      let r := i + 1 + k
      subMul b r c (readC f.factors (r + i * n))) b) b
  if f.pivots.any (·.isZero) then none
  else
    let x := n.fold (fun t _ b =>
      let i := n - 1 - t
      let c := readC b i / readC f.factors (i + i * n)
      i.fold (fun r _ b => subMul b r c (readC f.factors (r + i * n))) (writeC b i c)) b
    some (Array.ofFn fun i : Fin n => readC x i)

end ComplexEliminated

/-- The decomposition of a complex matrix. -/
def complexLu (A : Dense (Cplx Float)) : Lu (Cplx Float) :=
  let d := A.cols.fold (fun j _ d => A.rows.fold (fun i _ (d : FloatArray) =>
    let z := A.entry i j
    (d.push z.re).push z.im) d) (.emptyWithCapacity (2 * A.rows * A.cols))
  let f := ComplexEliminated.ofStore A.rows d
  { pivots := f.pivots, solve? := f.solve? }

end Eigenmesh.Factor
