import Mathlib.Data.Nat.Notation
import Mathlib.Tactic.Common
import Mathlib.Tactic.Ring
import Eigenmesh.Format.BigEndian

/-!
Numbers and their bytes.

Writing a number in so many bytes and reading bytes as a number undo each other, as long as the
number has no more digits than there are bytes.
-/

namespace Eigenmesh.BigEndian

@[simp] lemma length_encode (width n : ℕ) : (encode width n).length = width := by
  induction width generalizing n with
  | zero => rfl
  | succ width ih => rw [encode, List.length_cons, ih]

lemma decode_cons (x : UInt8) (s : List UInt8) :
    decode (x :: s) = x.toNat * 256 ^ s.length + decode s := by
  have ahead : ∀ (s : List UInt8) (n : ℕ),
      s.foldl (fun n b => 256 * n + b.toNat) n = n * 256 ^ s.length + decode s := by
    intro s
    induction s with
    | nil => intro n; simp [decode]
    | cons y s ih =>
      intro n
      have first := ih y.toNat
      have both := ih (256 * n + y.toNat)
      have head : decode (y :: s) = s.foldl (fun n b => 256 * n + b.toNat) y.toNat := by
        simp [decode]
      rw [head, first, List.foldl_cons, both, List.length_cons, pow_succ]
      ring
  have head : decode (x :: s) = s.foldl (fun n b => 256 * n + b.toNat) x.toNat := by simp [decode]
  rw [head, ahead]

lemma decode_lt (s : List UInt8) : decode s < 256 ^ s.length := by
  induction s with
  | nil => simp [decode]
  | cons x s ih =>
    have digit : x.toNat + 1 ≤ 256 := x.toNat_lt
    have scaled : (x.toNat + 1) * 256 ^ s.length ≤ 256 * 256 ^ s.length :=
      Nat.mul_le_mul_right _ digit
    rw [decode_cons, List.length_cons, pow_succ, Nat.mul_comm (256 ^ s.length)]
    rw [Nat.add_mul, Nat.one_mul] at scaled
    omega

lemma decode_encode_mod (width n : ℕ) : decode (encode width n) = n % 256 ^ width := by
  induction width with
  | zero => simp [encode, decode, Nat.mod_one]
  | succ width ih =>
    have digit : (UInt8.ofNat (n / Nat.pow 256 width)).toNat = n / 256 ^ width % 256 :=
      UInt8.toNat_ofNat'
    have split :
        n % (256 ^ width * 256) = n % 256 ^ width + 256 ^ width * (n / 256 ^ width % 256) :=
      Nat.mod_mul
    rw [encode, decode_cons, length_encode, ih, digit, pow_succ, split, Nat.add_comm, Nat.mul_comm]

lemma decode_encode {width n : ℕ} (h : n < 256 ^ width) : decode (encode width n) = n := by
  rw [decode_encode_mod, Nat.mod_eq_of_lt h]

lemma decode_injective {s t : List UInt8} (length : s.length = t.length)
    (same : decode s = decode t) : s = t := by
  induction s generalizing t with
  | nil => exact (List.eq_nil_of_length_eq_zero length.symm).symm
  | cons x s ih =>
    cases t with
    | nil => cases length
    | cons y t =>
      replace length : s.length = t.length := Nat.succ.inj length
      have hs := decode_lt s
      have ht := decode_lt t
      rw [decode_cons, decode_cons, length] at same
      rw [length] at hs
      have first : x.toNat = y.toNat := by
        have hx := Nat.div_eq_of_lt_le (k := x.toNat) (m := x.toNat * 256 ^ t.length + decode s)
          (n := 256 ^ t.length) (by omega) (by rw [Nat.add_mul]; omega)
        have hy := Nat.div_eq_of_lt_le (k := y.toNat) (m := y.toNat * 256 ^ t.length + decode t)
          (n := 256 ^ t.length) (by omega) (by rw [Nat.add_mul]; omega)
        rw [← hx, ← hy, same]
      rw [first] at same
      rw [UInt8.toNat_inj.1 first, ih length (Nat.add_left_cancel same)]

lemma encode_decode (s : List UInt8) : encode s.length (decode s) = s :=
  decode_injective (length_encode _ _) (decode_encode (decode_lt s))

/-! ### Integers -/

lemma signed_of_lt {n : ℕ} (h : n < 2 ^ 31) : signed n = n := if_pos h

lemma signed_neg_of_le {n : ℕ} (h : 2 ^ 31 ≤ n) (width : n < 2 ^ 32) : signed n < 0 := by
  have large : ¬n < Nat.pow 2 31 := Nat.not_lt.2 h
  have below : (n : ℤ) < Nat.pow 2 32 := by exact_mod_cast width
  rw [signed, if_neg large]
  omega

end Eigenmesh.BigEndian
