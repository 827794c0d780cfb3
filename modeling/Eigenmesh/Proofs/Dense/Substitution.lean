import Mathlib.Algebra.BigOperators.Group.Finset.Sigma
import Mathlib.Algebra.BigOperators.Ring.Finset
import Mathlib.Algebra.BigOperators.Intervals
import Eigenmesh.Dense.Triangular
import Eigenmesh.Proofs.Scalar.Exact

/-!
Triangular systems in exact arithmetic.

Going forward, each unknown satisfies its equation once it is found, and later ones do not occur in
it. Going backward the same holds of the transpose. A matrix that is the product of a triangular one
and its transpose is solved by doing both.
-/

namespace Eigenmesh.Dense

variable {α : Type} [Scalar.Exact α] {L : Dense α} {n : ℕ}

/-- Lower triangular, with a positive diagonal, and with its transpose a factor of the matrix with
the entries `M`. -/
structure IsFactor (L : Dense α) (n : ℕ) (M : ℕ → ℕ → α) : Prop where
  rows : L.rows = n
  cols : L.cols = n
  lower : ∀ i < n, ∀ j < n, i < j → L.entry i j = 0
  diagonal : ∀ i < n, 0 < L.entry i i
  mul : ∀ i < n, ∀ j < n, ∑ k ∈ Finset.range n, L.entry i k * L.entry j k = M i j

lemma fold_sub_eq_sum (n : ℕ) (f : ℕ → α) (s : α) :
    n.fold (fun i _ s => s - f i) s = s - ∑ i ∈ Finset.range n, f i := by
  induction n with
  | zero => simp
  | succ n ih => rw [Nat.fold_succ, ih, Finset.sum_range_succ, sub_sub]

omit [Scalar.Exact α] in
lemma getD_push [Zero α] (x : Array α) (v : α) (i : ℕ) :
    (x.push v).getD i 0 = if i = x.size then v else x.getD i 0 := by
  rw [Array.getD_eq_getD_getElem?, Array.getElem?_push]
  split <;> simp

/-- The first `m` unknowns. -/
def forwardTo (L : Dense α) (b : Array α) (m : ℕ) : Array α :=
  m.fold (fun i _ x =>
    x.push (i.fold (fun j _ s => s - L.entry i j * x.getD j 0) (b.getD i 0) / L.entry i i)) #[]

lemma forwardTo_succ (L : Dense α) (b : Array α) (m : ℕ) :
    L.forwardTo b (m + 1) = (L.forwardTo b m).push ((b.getD m 0 -
      ∑ j ∈ Finset.range m, L.entry m j * (L.forwardTo b m).getD j 0) / L.entry m m) := by
  rw [← fold_sub_eq_sum, forwardTo, Nat.fold_succ]
  rfl

@[simp] lemma size_forwardTo (L : Dense α) (b : Array α) (m : ℕ) : (L.forwardTo b m).size = m := by
  induction m with
  | zero => rfl
  | succ m ih => rw [forwardTo_succ, Array.size_push, ih]

@[simp] lemma size_forward (L : Dense α) (b : Array α) : (L.forward b).size = L.rows :=
  size_forwardTo L b L.rows

@[simp] lemma size_backwardSumsFrom (L : Dense α) (i : ℕ) (x : Array α) :
    (L.backwardSumsFrom i x).size = x.size := by
  induction i generalizing x with
  | zero => rfl
  | succ i ih => rw [backwardSumsFrom, ih, Array.size_setIfInBounds]

@[simp] lemma size_solveBoth (L : Dense α) (b : Array α) : (L.solveBoth b).size = L.rows :=
  (size_backwardSumsFrom L _ _).trans (size_forward L b)

lemma forward_spec (diagonal : ∀ i < L.rows, L.entry i i ≠ 0) (b : Array α) : ∀ i < L.rows,
    ∑ j ∈ Finset.range (i + 1), L.entry i j * (L.forward b).getD j 0 = b.getD i 0 := by
  change ∀ i < L.rows,
    ∑ j ∈ Finset.range (i + 1), L.entry i j * (L.forwardTo b L.rows).getD j 0 = b.getD i 0
  generalize L.rows = m at diagonal ⊢
  induction m with
  | zero => exact fun i hi => absurd hi (Nat.not_lt_zero i)
  | succ m ih =>
    intro i hi
    have solved := ih fun i hi => diagonal i (Nat.lt_succ_of_lt hi)
    have earlier {k : ℕ} (hk : k < m) (v : α) :
        ((L.forwardTo b m).push v).getD k 0 = (L.forwardTo b m).getD k 0 := by
      rw [getD_push, size_forwardTo, if_neg hk.ne]
    rw [forwardTo_succ]
    rcases Nat.lt_succ_iff_lt_or_eq.1 hi with hi | rfl
    · rw [← solved i hi]
      refine Finset.sum_congr rfl fun j hj => ?_
      rw [earlier ((Nat.le_of_lt_succ (Finset.mem_range.1 hj)).trans_lt hi)]
    · rw [Finset.sum_range_succ, getD_push, size_forwardTo, if_pos rfl,
        mul_div_cancel₀ _ (diagonal i (Nat.lt_succ_self i)),
        Finset.sum_congr rfl fun j hj => by rw [earlier (Finset.mem_range.1 hj)], add_sub_cancel]

omit [Scalar.Exact α] in
lemma getD_setIfInBounds [Zero α] {x : Array α} {i : ℕ} (hi : i < x.size) (v : α) (j : ℕ) :
    (x.setIfInBounds i v).getD j 0 = if j = i then v else x.getD j 0 := by
  rw [Array.getD_eq_getD_getElem?, Array.getElem?_setIfInBounds, Array.getD_eq_getD_getElem?]
  by_cases h : i = j
  · subst h
    simp [hi]
  · simp [h, Ne.symm h]

lemma backwardFrom_eq_backwardSumsFrom (L : Dense α) (i : ℕ) (x : Array α) :
    L.backwardFrom i x = L.backwardSumsFrom i x := by
  induction i generalizing x with
  | zero => rfl
  | succ i ih =>
    have reversed : ∑ k ∈ Finset.range (L.rows - (i + 1)),
        L.entry (L.rows - 1 - k) i * x.getD (L.rows - 1 - k) 0 =
        ∑ k ∈ Finset.range (L.rows - (i + 1)),
          L.entry (i + 1 + k) i * x.getD (i + 1 + k) 0 := by
      rw [← Finset.sum_range_reflect]
      refine Finset.sum_congr rfl fun k hk => ?_
      have inside := Finset.mem_range.1 hk
      have place : L.rows - 1 - (L.rows - (i + 1) - 1 - k) = i + 1 + k := by omega
      rw [place]
    rw [backwardFrom, backwardSumsFrom, ih, fold_sub_eq_sum, sumByEight_eq_sum, reversed]

lemma sum_column_setIfInBounds {x : Array α} {i : ℕ} (hi : i < L.rows) (size : x.size = L.rows)
    (v : α) :
    ∑ j ∈ Finset.range (L.rows - i), L.entry (i + j) i * (x.setIfInBounds i v).getD (i + j) 0 =
      L.entry i i * v + ∑ j ∈ Finset.range (L.rows - (i + 1)),
        L.entry (i + 1 + j) i * x.getD (i + 1 + j) 0 := by
  have inside : i < x.size := size ▸ hi
  have first : L.rows - i = L.rows - (i + 1) + 1 := by omega
  rw [first, Finset.sum_range_succ', add_comm]
  congr 1
  · rw [Nat.add_zero, getD_setIfInBounds inside, if_pos rfl]
  · refine Finset.sum_congr rfl fun j _ => ?_
    rw [← Nat.add_assoc, Nat.add_right_comm, getD_setIfInBounds inside, if_neg (by omega)]

lemma backwardSumsFrom_spec (diagonal : ∀ i < L.rows, L.entry i i ≠ 0) {y : ℕ → α} {i : ℕ}
    (hi : i ≤ L.rows) {x : Array α} (size : x.size = L.rows) (given : ∀ k < i, x.getD k 0 = y k)
    (solved : ∀ k, i ≤ k → k < L.rows →
      ∑ j ∈ Finset.range (L.rows - k), L.entry (k + j) k * x.getD (k + j) 0 = y k) :
    ∀ k < L.rows, ∑ j ∈ Finset.range (L.rows - k),
      L.entry (k + j) k * (L.backwardSumsFrom i x).getD (k + j) 0 = y k := by
  induction i generalizing x with
  | zero => exact fun k => solved k (Nat.zero_le k)
  | succ i ih =>
    rw [backwardSumsFrom]
    have inside : i < x.size := size ▸ hi
    refine ih (Nat.le_of_succ_le hi) (by rw [Array.size_setIfInBounds, size])
      (fun k hk => ?_) fun k hk hk' => ?_
    · rw [getD_setIfInBounds inside, if_neg hk.ne, given k (Nat.lt_succ_of_lt hk)]
    · rcases Nat.eq_or_lt_of_le hk with rfl | hk
      · rw [sum_column_setIfInBounds hi size, mul_div_cancel₀ _ (diagonal i hi),
          sumByEight_eq_sum, sub_add_cancel, given i (Nat.lt_succ_self i)]
      · rw [← solved k hk hk']
        refine Finset.sum_congr rfl fun j _ => ?_
        rw [getD_setIfInBounds inside, if_neg (by omega)]

namespace IsFactor

variable {M : ℕ → ℕ → α} (h : IsFactor L n M) (b : Array α)
include h

lemma forward_eq {i : ℕ} (hi : i < n) :
    ∑ k ∈ Finset.range n, L.entry i k * (L.forward b).getD k 0 = b.getD i 0 := by
  obtain ⟨rfl, -, lower, diagonal, -⟩ := h
  rw [← forward_spec (fun i hi => (diagonal i hi).ne') b i hi]
  refine (Finset.sum_subset (Finset.range_mono hi) fun k hk away => ?_).symm
  have away : i < k := by simpa [Nat.lt_succ_iff] using away
  rw [lower i hi k (Finset.mem_range.1 hk) away, zero_mul]

lemma backwardSums_eq {y : Array α} (size : y.size = n) {k : ℕ} (hk : k < n) :
    ∑ j ∈ Finset.range n, L.entry j k * (L.backwardSumsFrom L.rows y).getD j 0 = y.getD k 0 := by
  obtain ⟨rfl, -, lower, diagonal, -⟩ := h
  have regular : ∀ i < L.rows, L.entry i i ≠ 0 := fun i hi => (diagonal i hi).ne'
  have solved := backwardSumsFrom_spec regular le_rfl size
    (fun k _ => rfl) fun k hk hk' => absurd hk' (not_lt.2 hk)
  have cut := Finset.sum_range_add
    (fun j => L.entry j k * (L.backwardSumsFrom L.rows y).getD j 0) k (L.rows - k)
  rw [Nat.add_sub_cancel' hk.le] at cut
  rw [cut, Finset.sum_eq_zero, zero_add]
  · exact solved k hk
  · intro j hj
    have hj := Finset.mem_range.1 hj
    rw [lower j (hj.trans hk) k hk hj, zero_mul]

lemma backward_eq {k : ℕ} (hk : k < n) :
    ∑ j ∈ Finset.range n, L.entry j k * (L.solveBoth b).getD j 0 = (L.forward b).getD k 0 :=
  h.backwardSums_eq ((size_forward L b).trans h.rows) hk

/-- **The solution of the two triangular systems solves the system of their product.** -/
lemma solveBoth_spec {i : ℕ} (hi : i < n) :
    ∑ j ∈ Finset.range n, M i j * (L.solveBoth b).getD j 0 = b.getD i 0 := by
  calc ∑ j ∈ Finset.range n, M i j * (L.solveBoth b).getD j 0
      = ∑ j ∈ Finset.range n, ∑ k ∈ Finset.range n,
          L.entry i k * (L.entry j k * (L.solveBoth b).getD j 0) := by
        refine Finset.sum_congr rfl fun j hj => ?_
        rw [← h.mul i hi j (Finset.mem_range.1 hj), Finset.sum_mul]
        exact Finset.sum_congr rfl fun k _ => mul_assoc _ _ _
    _ = ∑ k ∈ Finset.range n, L.entry i k * (L.forward b).getD k 0 := by
        rw [Finset.sum_comm]
        refine Finset.sum_congr rfl fun k hk => ?_
        rw [← Finset.mul_sum, h.backward_eq b (Finset.mem_range.1 hk)]
    _ = b.getD i 0 := h.forward_eq b hi

end IsFactor

end Eigenmesh.Dense
