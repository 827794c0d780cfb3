import Eigenmesh.Decimal.Binary

/-!
Doubles with a fixed number of decimal places, and in scientific form with a fixed number of
digits after the point. The exact value is rounded once; a tie goes to the even digit.
-/

namespace Eigenmesh.Decimal

/-- The digits of `d · 10 ^ -places` with exactly `places` of them after the point. -/
def withPoint (d places : Nat) : List Char :=
  let ds := digits d
  let padded := List.replicate (places + 1 - ds.length) '0' ++ ds
  let cut := padded.length - places
  if places = 0 then padded else padded.take cut ++ '.' :: padded.drop cut

def signed (negative plus : Bool) (text : List Char) : String :=
  String.ofList (if negative then '-' :: text else if plus then '+' :: text else text)

/-- `plus` asks for the sign of values that are not negative as well. -/
def Value.fixedText (places : Nat) (plus : Bool) : Value → String
  | .nan => "NaN"
  | .infinite negative => signed negative plus "inf".toList
  | .finite negative m q =>
    signed negative plus (withPoint ((Ratio.ofBinary m q).scale places).round places)

/-- One digit, `places` digits after the point, and the exponent after an `e`. -/
def Value.scientificText (places : Nat) : Value → String
  | .nan => "NaN"
  | .infinite negative => signed negative false "inf".toList
  | .finite negative m q =>
    if m = 0 then signed negative false (withPoint 0 places ++ "e0".toList)
    else
      let value := Ratio.ofBinary m q
      let top := value.magnitude
      let d := (value.scale (places - top)).round
      let (d, top) := if Nat.pow 10 (places + 1) ≤ d then (d / 10, top + 1) else (d, top)
      signed negative false (withPoint d places ++ 'e' :: (toString top).toList)

def fixedText (places : Nat) (x : Float) : String := (Value.ofFloat x).fixedText places false

def signedFixedText (places : Nat) (x : Float) : String :=
  (Value.ofFloat x).fixedText places true

def scientificText (places : Nat) (x : Float) : String :=
  (Value.ofFloat x).scientificText places

end Eigenmesh.Decimal
