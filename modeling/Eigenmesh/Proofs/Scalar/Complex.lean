import Mathlib.Algebra.Field.Basic
import Mathlib.Tactic.FieldSimp
import Mathlib.Tactic.Ring
import Mathlib.Tactic.Linarith
import Eigenmesh.Cplx
import Eigenmesh.Proofs.Scalar.Exact

/-!
Complex numbers over exact scalars.
-/

namespace Eigenmesh.Cplx

variable {α : Type}

@[ext] lemma ext {z w : Cplx α} (re : z.re = w.re) (im : z.im = w.im) : z = w := by
  cases z; cases w; cases re; cases im; rfl

section Parts

variable [Scalar α] (z w : Cplx α)

@[simp] lemma re_ofReal (x : α) : (ofReal x).re = x := rfl
@[simp] lemma im_ofReal (x : α) : (ofReal x).im = 0 := rfl
@[simp] lemma re_zero : (0 : Cplx α).re = 0 := rfl
@[simp] lemma im_zero : (0 : Cplx α).im = 0 := rfl
@[simp] lemma re_one : (1 : Cplx α).re = 1 := rfl
@[simp] lemma im_one : (1 : Cplx α).im = 0 := rfl
@[simp] lemma re_add : (z + w).re = z.re + w.re := rfl
@[simp] lemma im_add : (z + w).im = z.im + w.im := rfl
@[simp] lemma re_sub : (z - w).re = z.re - w.re := rfl
@[simp] lemma im_sub : (z - w).im = z.im - w.im := rfl
@[simp] lemma re_neg : (-z).re = -z.re := rfl
@[simp] lemma im_neg : (-z).im = -z.im := rfl
@[simp] lemma re_mul : (z * w).re = z.re * w.re - z.im * w.im := rfl
@[simp] lemma im_mul : (z * w).im = z.re * w.im + z.im * w.re := rfl
@[simp] lemma re_conj : z.conj.re = z.re := rfl
@[simp] lemma im_conj : z.conj.im = -z.im := rfl
@[simp] lemma re_unscale (x : α) : (z.unscale x).re = z.re / x := rfl
@[simp] lemma im_unscale (x : α) : (z.unscale x).im = z.im / x := rfl
@[simp] lemma re_inv : z.inv.re = z.re / z.normSq := rfl
@[simp] lemma im_inv : z.inv.im = -z.im / z.normSq := rfl

end Parts

variable [Scalar.Exact α]

lemma normSq_eq_zero {z : Cplx α} : z.normSq = 0 ↔ z = 0 := by
  refine ⟨fun h => ?_, fun h => by simp [h, normSq]⟩
  have re := mul_self_nonneg z.re
  have im := mul_self_nonneg z.im
  unfold normSq at h
  exact ext (mul_self_eq_zero.1 (by linarith)) (mul_self_eq_zero.1 (by linarith))

instance : Field (Cplx α) where
  add := (· + ·)
  add_assoc _ _ _ := ext (add_assoc _ _ _) (add_assoc _ _ _)
  zero := 0
  zero_add _ := ext (zero_add _) (zero_add _)
  add_zero _ := ext (add_zero _) (add_zero _)
  nsmul := nsmulRec
  add_comm _ _ := ext (add_comm _ _) (add_comm _ _)
  mul := (· * ·)
  left_distrib z u v := by ext <;> simp <;> ring
  right_distrib z u v := by ext <;> simp <;> ring
  zero_mul z := by ext <;> simp
  mul_zero z := by ext <;> simp
  mul_assoc z u v := by ext <;> simp <;> ring
  one := 1
  one_mul z := by ext <;> simp
  mul_one z := by ext <;> simp
  neg := Neg.neg
  sub := (· - ·)
  sub_eq_add_neg z w := by ext <;> simp <;> ring
  zsmul := zsmulRec
  neg_add_cancel z := by ext <;> simp
  mul_comm z w := by ext <;> simp <;> ring
  inv := inv
  div := (· / ·)
  div_eq_mul_inv z w := by
    change (⟨_, _⟩ : Cplx α) = _
    ext <;> simp <;> ring
  exists_pair_ne := ⟨0, 1, fun h => zero_ne_one (congrArg re h)⟩
  mul_inv_cancel z hz := by
    have nonzero := fun h => hz (normSq_eq_zero.1 h)
    ext
    · simp
      field_simp
      unfold normSq
      ring
    · simp
      ring
  inv_zero := by ext <;> simp
  nnqsmul := _
  nnqsmul_def _ _ := rfl
  qsmul := _
  qsmul_def _ _ := rfl

/-- Real numbers among the complex ones. -/
def ofRealHom : α →+* Cplx α where
  toFun := ofReal
  map_one' := rfl
  map_mul' x y := by ext <;> simp
  map_zero' := rfl
  map_add' x y := by ext <;> simp

lemma normSq_nonneg (z : Cplx α) : 0 ≤ z.normSq :=
  add_nonneg (mul_self_nonneg _) (mul_self_nonneg _)

lemma normSq_pos {z : Cplx α} (hz : z ≠ 0) : 0 < z.normSq :=
  z.normSq_nonneg.lt_of_ne' (mt normSq_eq_zero.1 hz)

lemma normSq_mul (z w : Cplx α) : (z * w).normSq = z.normSq * w.normSq := by
  simp only [normSq, re_mul, im_mul]
  ring

lemma normSq_ofReal (x : α) : (ofReal x).normSq = x * x := by
  simp [normSq]

lemma normSq_conj (z : Cplx α) : z.conj.normSq = z.normSq := by
  simp [normSq]

lemma conj_mul (z w : Cplx α) : (z * w).conj = z.conj * w.conj := by
  ext
  · simp
  · simp
    ring

lemma conj_mul_self (z : Cplx α) : z.conj * z = ofReal z.normSq := by
  ext
  · simp [normSq]
  · simp
    ring

lemma shift_eq (z : Cplx α) (x : α) : z.shift x = z + ofReal x := by
  ext <;> simp [shift]

lemma ofReal_neg (x : α) : ofReal (-x) = -ofReal x := map_neg ofRealHom x

lemma ofReal_mul (x y : α) : ofReal (x * y) = ofReal x * ofReal y := map_mul ofRealHom x y

lemma ofReal_inv_add (x y : α) : ofReal (x⁻¹ + y) = (ofReal x)⁻¹ + ofReal y :=
  (map_add ofRealHom x⁻¹ y).trans (congrArg (· + _) (map_inv₀ ofRealHom x))

/-! ### Moduli -/

section Norms

variable [Scalar.Rooted α] {z w : Cplx α}

lemma norm_nonneg (z : Cplx α) : 0 ≤ z.norm := by
  rw [norm, Scalar.Rooted.hypot_eq]
  exact Scalar.Rooted.sqrt_nonneg _

lemma norm_mul_self (z : Cplx α) : z.norm * z.norm = z.normSq := by
  rw [norm, Scalar.Rooted.hypot_eq]
  exact Scalar.Rooted.mul_self_sqrt _ z.normSq_nonneg

lemma norm_pos (hz : z ≠ 0) : 0 < z.norm := by
  refine z.norm_nonneg.lt_of_ne' fun zero => hz (normSq_eq_zero.1 ?_)
  rw [← norm_mul_self, zero, mul_zero]

lemma norm_mul (z w : Cplx α) : (z * w).norm = z.norm * w.norm := by
  refine (mul_self_inj (norm_nonneg _) (mul_nonneg z.norm_nonneg w.norm_nonneg)).1 ?_
  rw [norm_mul_self, normSq_mul, ← norm_mul_self, ← norm_mul_self, mul_mul_mul_comm]

lemma norm_eq_re (im : z.im = 0) (re : 0 ≤ z.re) : z.norm = z.re := by
  refine (mul_self_inj (norm_nonneg _) re).1 ?_
  rw [norm_mul_self, normSq, im, mul_zero, add_zero]

end Norms

end Eigenmesh.Cplx
