import Mathlib.Tactic.Ring
import Eigenmesh.Mesh.Index
import Eigenmesh.Proofs.Mesh.Counting

/-!
Numbers and their digits.

The numbers below a power of the base are the lists of that many digits: writing the digits of a
number and reading them undo each other. A step along an axis adds the place value of that axis.
-/

namespace Eigenmesh.Index

variable {len dim : ℕ}

lemma coords_number {cart : List ℕ} (digits : ∀ c ∈ cart, c < len) :
    coords len cart.length (number len cart) = cart := by
  induction cart with
  | nil => rfl
  | cons c cs ih =>
    have hc := digits c List.mem_cons_self
    have low : (number len cs * len + c) % len = c := by
      rw [Nat.mul_add_mod_self_right, Nat.mod_eq_of_lt hc]
    have high : (number len cs * len + c) / len = number len cs := by
      rw [Nat.mul_comm, Nat.mul_add_div (Nat.zero_lt_of_lt hc), Nat.div_eq_of_lt hc, Nat.add_zero]
    rw [List.length_cons, number, coords, low, high,
      ih fun d hd => digits d (List.mem_cons_of_mem _ hd)]

lemma number_coords {i : ℕ} (h : i < len ^ dim) : number len (coords len dim i) = i := by
  induction dim generalizing i with
  | zero => rw [Nat.pow_zero, Nat.lt_one_iff] at h; rw [h]; rfl
  | succ dim ih =>
    have high : i / len < len ^ dim := Nat.div_lt_of_lt_mul (by rwa [Nat.pow_succ'] at h)
    rw [coords, number, ih high, Nat.div_add_mod']

lemma number_modify {cart : List ℕ} {axis : ℕ} (h : axis < cart.length) :
    number len (cart.modify axis (· + 1)) = number len cart + len ^ axis := by
  induction cart generalizing axis with
  | nil => exact absurd h (Nat.not_lt_zero _)
  | cons c cs ih =>
    cases axis with
    | zero => simp only [List.modify_zero_cons, number, Nat.pow_zero]; omega
    | succ axis =>
      rw [List.modify_succ_cons, number, ih (Nat.lt_of_succ_lt_succ h), number, Nat.pow_succ]
      ring

/-! ### Listing the points -/

lemma range_mul (m n : ℕ) :
    List.range (m * n) = (List.range m).flatMap fun j => (List.range n).map (j * n + ·) := by
  induction m with
  | zero => simp
  | succ m ih => rw [Nat.add_mul, Nat.one_mul, List.range_add, ih, List.range_succ,
      List.flatMap_append, List.flatMap_singleton]

lemma map_coords_range (len dim : ℕ) : (List.range (len ^ (dim + 1))).map (coords len (dim + 1)) =
    ((List.range (len ^ dim)).map (coords len dim)).flatMap fun cs =>
      (List.range len).map (· :: cs) := by
  rw [Nat.pow_succ, range_mul, List.map_flatMap, List.flatMap_map]
  refine List.flatMap_congr fun j _ => ?_
  rw [List.map_map]
  refine List.map_congr_left fun c hc => ?_
  have hc := List.mem_range.1 hc
  rw [Function.comp_apply, coords, Nat.mul_add_mod_self_right, Nat.mod_eq_of_lt hc, Nat.mul_comm,
    Nat.mul_add_div (Nat.zero_lt_of_lt hc), Nat.div_eq_of_lt hc, Nat.add_zero]

lemma countP_getD_coords {axis digit : ℕ} (hdigit : digit < len) (haxis : axis < dim) :
    ((List.range (len ^ dim)).map (coords len dim)).countP (fun cs => cs.getD axis 0 = digit) =
      len ^ (dim - 1) := by
  induction dim generalizing axis with
  | zero => exact absurd haxis (Nat.not_lt_zero _)
  | succ dim ih =>
    rw [map_coords_range, Nat.add_sub_cancel]
    cases axis with
    | zero =>
      -- every choice of the other digits is completed by one lowest digit
      rw [countP_flatMap_of (q := fun _ => true) (n := 1) fun cs _ => ?_]
      · simp
      · rw [List.countP_map]
        exact List.nodup_iff_count_eq_one.1 List.nodup_range digit (List.mem_range.2 hdigit)
    | succ axis =>
      have haxis := Nat.lt_of_succ_lt_succ haxis
      rw [countP_flatMap_of (q := fun cs => decide (cs.getD axis 0 = digit)) (n := len)
        fun cs _ => ?_, ih haxis, Nat.pow_pred_mul (Nat.zero_lt_of_lt haxis)]
      · simp only [List.countP_map, Function.comp_def, List.getD_cons_succ]
        cases decide (cs.getD axis 0 = digit) <;> simp

end Eigenmesh.Index
