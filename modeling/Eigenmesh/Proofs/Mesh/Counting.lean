import Mathlib.Algebra.Ring.Nat
import Mathlib.Data.List.Nodup
import Mathlib.Data.List.ProdSigma
import Mathlib.Tactic.Common

/-!
Counting in a list of lists.
-/

namespace Eigenmesh

variable {β γ : Type}

lemma countP_flatMap_of {l : List β} {f : β → List γ} {p : γ → Bool} {q : β → Bool} {n : ℕ}
    (h : ∀ x ∈ l, (f x).countP p = if q x then n else 0) :
    (l.flatMap f).countP p = l.countP q * n := by
  induction l with
  | nil => simp
  | cons x l ih =>
    rw [List.flatMap_cons, List.countP_append, h x List.mem_cons_self,
      ih fun y hy => h y (List.mem_cons_of_mem _ hy), List.countP_cons, Nat.add_mul, Nat.add_comm]
    split <;> simp

lemma countP_flatMap_of_both {l : List β} {f : β → List γ} {p : γ → Bool} {q r : β → Bool}
    (h : ∀ x ∈ l, (f x).countP p = (if q x then 1 else 0) + if r x then 1 else 0) :
    (l.flatMap f).countP p = l.countP q + l.countP r := by
  induction l with
  | nil => rfl
  | cons x l ih =>
    rw [List.flatMap_cons, List.countP_append, h x List.mem_cons_self,
      ih fun y hy => h y (List.mem_cons_of_mem _ hy), List.countP_cons, List.countP_cons]
    omega

lemma countP_product_eq_sum (l : List β) (m : List γ) (p : β × γ → Bool) :
    (l ×ˢ m).countP p = (m.map fun y => l.countP fun x => p (x, y)).sum := by
  induction l with
  | nil => simp
  | cons x l ih =>
    rw [List.product_cons, List.countP_append, ih, List.countP_map]
    clear ih
    induction m with
    | nil => rfl
    | cons y m ih =>
      simp only [List.map_cons, List.sum_cons, List.countP_cons, Function.comp_apply] at ih ⊢
      omega

lemma countP_product {l : List β} {m : List γ} {p : β × γ → Bool} {n : ℕ}
    (h : ∀ y ∈ m, l.countP (fun x => p (x, y)) = n) : (l ×ˢ m).countP p = m.length * n := by
  rw [countP_product_eq_sum, List.map_congr_left h, List.map_const', List.sum_replicate_nat]

lemma countP_of_one [DecidableEq β] {l : List β} (nodup : l.Nodup) {p : β → Bool} {x : β}
    (hx : x ∈ l) (h : ∀ z ∈ l, p z = true ↔ z = x) : l.countP p = 1 := by
  rw [← List.nodup_iff_count_eq_one.1 nodup x hx]
  exact List.countP_congr fun z hz => (h z hz).trans beq_iff_eq.symm

lemma countP_of_two [DecidableEq β] {l : List β} (nodup : l.Nodup) {p : β → Bool} {x y : β}
    (hxy : x ≠ y) (h : ∀ z ∈ l, p z = true ↔ z = x ∨ z = y) :
    l.countP p = (if x ∈ l then 1 else 0) + if y ∈ l then 1 else 0 := by
  rw [← nodup.count, ← nodup.count]
  clear nodup
  induction l with
  | nil => rfl
  | cons z l ih =>
    have hz := h z List.mem_cons_self
    rw [List.countP_cons, List.count_cons, List.count_cons,
      ih fun w hw => h w (List.mem_cons_of_mem _ hw)]
    have apart : ¬(z = x ∧ z = y) := fun h => hxy (h.1.symm.trans h.2)
    simp only [hz, beq_iff_eq]
    split_ifs <;> first | omega | tauto

end Eigenmesh
