/-!
A double as an exact number: a sign and `m · 2 ^ q` with natural `m`. Everything that prints
a double works on this form in whole-number arithmetic, so no rounding of the machine enters
the text.
-/

namespace Eigenmesh.Decimal

/-- The value of a double: not a number, infinite, or `± mantissa · 2 ^ exponent`. -/
inductive Value
  | nan
  | infinite (negative : Bool)
  | finite (negative : Bool) (mantissa : Nat) (exponent : Int)

/-- Reads the fields of the 64-bit format. -/
def Value.ofBits (bits : UInt64) : Value :=
  let b := bits.toNat
  let negative := Nat.pow 2 63 ≤ b
  let field : Nat := b / Nat.pow 2 52 % 2048
  let fraction : Nat := b % Nat.pow 2 52
  if field = 2047 then
    if fraction = 0 then .infinite negative else .nan
  else if field = 0 then .finite negative fraction (-1074)
  else .finite negative (Nat.pow 2 52 + fraction) ((field : Int) - 1075)

def Value.ofFloat (x : Float) : Value := .ofBits x.toBits

/-- A non-negative rational number `num / den`. -/
structure Ratio where
  num : Nat
  den : Nat

/-- The number `m · 2 ^ q`. -/
def Ratio.ofBinary (m : Nat) (q : Int) : Ratio :=
  if 0 ≤ q then ⟨m * Nat.pow 2 q.toNat, 1⟩ else ⟨m, Nat.pow 2 (-q).toNat⟩

/-- The number `r · 10 ^ k`. -/
def Ratio.scale (r : Ratio) (k : Int) : Ratio :=
  if 0 ≤ k then ⟨r.num * Nat.pow 10 k.toNat, r.den⟩
  else ⟨r.num, r.den * Nat.pow 10 (-k).toNat⟩

def Ratio.floor (r : Ratio) : Nat := r.num / r.den

def Ratio.le (a b : Ratio) : Bool := decide (a.num * b.den ≤ b.num * a.den)

/-- The nearest natural number; half a unit goes to the even neighbour. -/
def Ratio.round (r : Ratio) : Nat :=
  let low := r.floor
  let twice := 2 * (r.num % r.den)
  if twice < r.den then low
  else if r.den < twice then low + 1
  else low + low % 2

/-- The decimal digits of a natural number, most significant first. -/
def digits (n : Nat) : List Char := Nat.toDigits 10 n

/-- The largest `e` with `10 ^ e ≤ r`, for a positive `r`. -/
def Ratio.magnitude (r : Ratio) : Int :=
  if r.den ≤ r.num then (digits r.floor).length - 1
  else
    -- one over the number has its whole part between `10 ^ (-e - 1)` and `10 ^ -e`
    let inverse := (r.den + r.num - 1) / r.num
    Int.negOfNat (digits (inverse - 1)).length

end Eigenmesh.Decimal
