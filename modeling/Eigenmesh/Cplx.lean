import Eigenmesh.Scalar

/-!
Complex numbers over a scalar, with the usual formulas.
-/

namespace Eigenmesh

structure Cplx (α : Type) where
  re : α
  im : α

namespace Cplx

variable {α : Type} [Scalar α]

def ofReal (x : α) : Cplx α := ⟨x, 0⟩

instance : Zero (Cplx α) := ⟨ofReal 0⟩
instance : One (Cplx α) := ⟨ofReal 1⟩
instance : Add (Cplx α) := ⟨fun z w => ⟨z.re + w.re, z.im + w.im⟩⟩
instance : Sub (Cplx α) := ⟨fun z w => ⟨z.re - w.re, z.im - w.im⟩⟩
instance : Neg (Cplx α) := ⟨fun z => ⟨-z.re, -z.im⟩⟩
instance : Mul (Cplx α) :=
  ⟨fun z w => ⟨z.re * w.re - z.im * w.im, z.re * w.im + z.im * w.re⟩⟩

def conj (z : Cplx α) : Cplx α := ⟨z.re, -z.im⟩

/-- The square of the modulus. -/
def normSq (z : Cplx α) : α := z.re * z.re + z.im * z.im

def norm (z : Cplx α) : α := Scalar.hypot z.re z.im

/-- The sum of the moduli of the parts, cheap enough to choose pivots by. -/
def taxicab (z : Cplx α) : α := Scalar.abs z.re + Scalar.abs z.im

instance : Div (Cplx α) :=
  ⟨fun z w =>
    let d := w.normSq
    ⟨(z.re * w.re + z.im * w.im) / d, (z.im * w.re - z.re * w.im) / d⟩⟩

def inv (z : Cplx α) : Cplx α :=
  let d := z.normSq
  ⟨z.re / d, -z.im / d⟩

/-- Both parts divided by a real number. -/
def unscale (z : Cplx α) (x : α) : Cplx α := ⟨z.re / x, z.im / x⟩

/-- Adds a real number. -/
def shift (z : Cplx α) (x : α) : Cplx α := ⟨z.re + x, z.im⟩

def isZero (z : Cplx α) : Bool := z.re == 0 && z.im == 0

/-- Written as `a+bi` or `a-bi`. -/
def text (z : Cplx α) : String :=
  let re := if z.re < 0 then "-" ++ Scalar.text (0 - z.re) else Scalar.text z.re
  let im := if z.im < 0 then "-" ++ Scalar.text (0 - z.im) else "+" ++ Scalar.text z.im
  re ++ im ++ "i"

end Cplx

end Eigenmesh
