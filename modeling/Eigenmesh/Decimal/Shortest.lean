import Eigenmesh.Decimal.Binary

/-!
The shortest decimal that reads back as a given double, written without an exponent.

Reading rounds to the nearest double and a tie goes to the even mantissa, so the decimals
that read back as `m · 2 ^ q` are an interval around it, ends included when `m` is even. For
one digit, two digits and so on, the two neighbours of the value on that decimal grid are
tried; if any point of the grid lies in the interval then one of these two does.
-/

namespace Eigenmesh.Decimal

/-- The decimals `low … high` that read back as the positive double `m · 2 ^ q`. -/
structure Interval where
  low : Ratio
  high : Ratio
  closed : Bool

/-- Below the smallest mantissa of a binade the doubles lie twice as close. -/
def Interval.around (m : Nat) (q : Int) : Interval where
  low := if m = Nat.pow 2 52 ∧ -1074 < q then .ofBinary (4 * m - 1) (q - 2)
    else .ofBinary (2 * m - 1) (q - 1)
  high := .ofBinary (2 * m + 1) (q - 1)
  closed := m % 2 = 0

def Interval.contains (i : Interval) (r : Ratio) : Bool :=
  if i.closed then i.low.le r && r.le i.high else !(r.le i.low) && !(i.high.le r)

/-- Tries grids of `n`, `n + 1`, … digits below the leading power `10 ^ top`, at most `fuel`. -/
def shortestFrom (value : Ratio) (i : Interval) (top : Int) : Nat → Nat → Nat × Int
  | _, 0 => ((value.scale (16 - top)).round, top - 16)
  | n, fuel + 1 =>
    let unit := top - n
    let scaled := value.scale (-unit)
    let down := scaled.floor
    let fits (d : Nat) : Bool := i.contains ((⟨d, 1⟩ : Ratio).scale unit)
    match fits down, fits (down + 1) with
    | true, true => (scaled.round, unit)
    | true, false => (down, unit)
    | false, true => (down + 1, unit)
    | false, false => shortestFrom value i top (n + 1) fuel

/-- Digits `d` and exponent `k` of the shortest `d · 10 ^ k` that reads back as `m · 2 ^ q`. -/
def shortest (m : Nat) (q : Int) : Nat × Int :=
  let value := Ratio.ofBinary m q
  shortestFrom value (.around m q) value.magnitude 0 17

/-- Writes `d · 10 ^ k` without an exponent and without trailing zeros after the point. -/
def positional (d : Nat) (k : Int) : List Char :=
  if 0 ≤ k then digits (d * Nat.pow 10 k.toNat)
  else
    let places := (-k).toNat
    let ds := digits d
    let padded := List.replicate (places + 1 - ds.length) '0' ++ ds
    let whole := padded.take (padded.length - places)
    let fraction := (padded.drop (padded.length - places)).reverse.dropWhile (· == '0')
    if fraction.isEmpty then whole else whole ++ '.' :: fraction.reverse

/-- The sign is written for minus zero too; other than finite values have names. -/
def Value.shortestText : Value → String
  | .nan => "NaN"
  | .infinite negative => if negative then "-inf" else "inf"
  | .finite negative m q =>
    let unsigned := if m = 0 then ['0'] else let (d, k) := shortest m q; positional d k
    String.ofList (if negative then '-' :: unsigned else unsigned)

def shortestText (x : Float) : String := (Value.ofFloat x).shortestText

end Eigenmesh.Decimal
