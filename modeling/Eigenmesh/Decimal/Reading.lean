/-!
Numbers written in text. A double is an optional sign followed by `inf`, `infinity` or `nan`
in any case, or by digits with an optional point and an optional exponent, where at least one
digit stands before the exponent. A size is an optional plus sign and digits, and must be
below `2 ^ 64`. No blanks are skipped.
-/

namespace Eigenmesh.Decimal

def isDigit (c : Char) : Bool := '0' ≤ c && c ≤ '9'

def digitsValue (ds : List Char) : Nat :=
  ds.foldl (fun n c => 10 * n + (c.toNat - '0'.toNat)) 0

/-- The sign of a text and what follows it; no sign counts as plus. -/
def splitSign : List Char → Bool × List Char
  | '-' :: r => (true, r)
  | '+' :: r => (false, r)
  | r => (false, r)

/-- An exponent is absent or an `e` with an optional sign and at least one digit. -/
def exponent? : List Char → Option Int
  | [] => some 0
  | c :: r =>
    if c = 'e' ∨ c = 'E' then
      let (negative, ds) := splitSign r
      if ds.isEmpty || !ds.all isDigit then none
      else some (if negative then -(digitsValue ds : Int) else digitsValue ds)
    else none

/-- The digits and the power of ten of an unsigned decimal. -/
def decimal? (s : List Char) : Option (Nat × Nat × Int) :=
  let whole := s.takeWhile isDigit
  let rest := s.dropWhile isDigit
  let (fraction, rest) := match rest with
    | '.' :: r => (r.takeWhile isDigit, r.dropWhile isDigit)
    | r => ([], r)
  if whole.isEmpty && fraction.isEmpty then none
  else do
    let e ← exponent? rest
    let ds := whole ++ fraction
    return (digitsValue ds, ds.length, e - fraction.length)

/-- The double nearest to `m · 10 ^ e`, where `m` has at most `count` digits. -/
def nearest (m count : Nat) (e : Int) : Float :=
  if m = 0 then 0.0
  else if 310 < e then 1.0 / 0.0
  else if e + count < -400 then 0.0
  else if 0 ≤ e then Float.ofScientific m false e.toNat
  else Float.ofScientific m true (-e).toNat

def float? (s : String) : Option Float :=
  let (negative, body) := splitSign s.toList
  let unsigned : Option Float :=
    match String.ofList (body.map Char.toLower) with
    | "inf" | "infinity" => some (1.0 / 0.0)
    | "nan" => some (0.0 / 0.0)
    | _ => (decimal? body).map fun (m, count, e) => nearest m count e
  unsigned.map fun x => if negative then -x else x

def size? (s : String) : Option Nat :=
  let ds := match s.toList with
    | '+' :: r => r
    | r => r
  if ds.isEmpty || !ds.all isDigit then none
  else if digitsValue ds < Nat.pow 2 64 then some (digitsValue ds) else none

end Eigenmesh.Decimal
