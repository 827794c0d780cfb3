/-!
The arithmetic that every computation of this library is written over.

An algorithm is stated once, for any type with the operations of `Scalar`. It runs on
doubles; read over an ordered field, the same definition is the algorithm in exact
arithmetic. No law is part of the class: what holds of rounded numbers is not assumed.
-/

namespace Eigenmesh

class Scalar (α : Type) extends Zero α, One α, Add α, Sub α, Mul α, Div α, Neg α,
    LT α, LE α, BEq α, NatCast α, OfScientific α where
  decidableLT : DecidableLT α
  decidableLE : DecidableLE α
  abs : α → α
  sqrt : α → α
  /-- The length of a plane vector with the given coordinates. -/
  hypot : α → α → α
  isFinite : α → Bool
  /-- A total order that agrees with `≤` where that is meant to hold, used for sorting. -/
  ranks : α → α → Bool
  /-- How a value is written in messages. -/
  text : α → String
  /-- Reads a value from a text, all of it. -/
  read? : String → Option α

/-- `f 0 + f 1 + … + f (n - 1)`, added from left to right, and zero for no terms. -/
def sumTo {α : Type} [Zero α] [Add α] (n : Nat) (f : Nat → α) : α :=
  match n with
  | 0 => 0
  | n + 1 => n.fold (fun i _ s => s + f (i + 1)) (f 0)

/-- The sum of `f 0` up to `f (n - 1)`, added in an order that allows eight additions at once. As
long as there are eight terms left, each of eight partial sums takes one of them; these are
added up in pairs, and the terms left over come last. -/
@[inline] def sumByEight {α : Type} [Zero α] [Add α] (n : Nat) (f : Nat → α) : α :=
  let rest (start : Nat) (s : α) : α := (n - start).fold (fun k _ s => s + f (start + k)) s
  if n < 8 then rest 0 0
  else
    let groups := n / 8
    let partialSum (l : Nat) : α := groups.fold (fun g _ s => s + f (8 * g + l)) 0
    let pair (l : Nat) : α := partialSum l + partialSum (l + 4)
    rest (8 * groups) (0 + pair 0 + pair 1 + pair 2 + pair 3)

namespace Scalar

variable {α : Type} [Scalar α]

instance : DecidableLT α := decidableLT
instance : DecidableLE α := decidableLE

/-- The distance from one to the next double. -/
def epsilon : α := 2.220446049250313e-16

/-- The smallest positive double of full precision. -/
def leastNormal : α := 2.2250738585072014e-308

/-- The larger of two values; one that is not a number gives way to the other. -/
def max (a b : α) : α := if a < b ∨ !(a == a) then b else a

end Scalar

end Eigenmesh
