import Mathlib
import Eigenmesh.Proofs.Scalar.Exact
import Eigenmesh.Scalar.Double

/-!
Adding zero to a double.

Taking a double apart and putting it together again gives the double, so it stays the same if an
addition leaves its sign, exponent and mantissa as they are. Zero changes no double but minus zero,
which becomes zero: the same number with another sign.
-/

namespace Eigenmesh

/-- `y` is `x`, or zero where `x` is minus zero. -/
def Scalar.SameNumber {α : Type} [Scalar α] (x y : α) : Prop := y = x ∨ x = -0 ∧ y = 0

/-- Adding zero changes no number. -/
class Scalar.AddsZero (α : Type) [Scalar α] : Prop where
  add_zero (x : α) : Scalar.SameNumber x (x + 0)

namespace Scalar.SameNumber

variable {α : Type} [Scalar α] {x y z : α}

lemma refl (x : α) : SameNumber x x := .inl rfl

lemma trans (first : SameNumber x y) (second : SameNumber y z) : SameNumber x z := by
  rcases first with rfl | ⟨minus, zero⟩
  · exact second
  · rcases second with rfl | ⟨-, zero'⟩
    · exact .inr ⟨minus, zero⟩
    · exact .inr ⟨minus, zero'⟩

end Scalar.SameNumber

instance {α : Type} [Scalar.Exact α] : Scalar.AddsZero α where
  add_zero x := .inl (add_zero x)

namespace Double

open Float (Model)
open Float.Model (Format)
open Float.Model.UnpackedFloat

lemma ofModel_pack (x : Float) : Float.ofModel (Model.pack x.toModel.unpack) = x := by
  rcases x with ⟨bits, valid⟩
  have same : UInt64.ofBitVec (pack Format.binary64 (unpack Format.binary64 bits.toBitVec)) =
      bits := congrArg UInt64.ofBitVec (pack_unpack_of_valid valid)
  exact congrArg Float.ofModel ((Model.mk.injEq _ _ _ _).mpr same)

lemma add_eq (x y : Float) : x + y =
    Float.ofModel (Model.pack (add Format.binary64 x.toModel.unpack y.toModel.unpack)) := rfl

lemma neg_eq (x : Float) : -x = Float.ofModel (Model.pack x.toModel.unpack.neg) := rfl

/-- **Only minus zero changes when zero is added.** -/
lemma add_of_unpack_eq_zero (x : Float) {z : Float} (zero : z.toModel.unpack = .zero .positive) :
    x + z = x ∨ x = -z ∧ x + z = z := by
  have whole := ofModel_pack x
  have whole' := ofModel_pack z
  rw [add_eq, neg_eq, zero]
  rw [zero] at whole'
  generalize x.toModel.unpack = u at whole ⊢
  cases u with
  | notANumber => exact .inl whole
  | infinity s => exact .inl whole
  | finite s m e pos => exact .inl whole
  | zero s =>
    cases s with
    | positive => exact .inl whole
    | negative => exact .inr ⟨whole.symm, whole'⟩

end Double

instance : Scalar.AddsZero Float where
  add_zero x := Double.add_of_unpack_eq_zero x rfl

end Eigenmesh
