import Mathlib.Algebra.Order.Field.Basic
import Mathlib.Tactic.Common
import Eigenmesh.Proofs.Dense
import Eigenmesh.Proofs.Lists
import Eigenmesh.Proofs.Sparse.Sums

/-!
Dense and sparse matrices with the same entries.

A matrix is its size and its entries. Neither is changed by writing the stored rows of a matrix out
in full, or by storing the entries that are not zero.
-/

namespace Eigenmesh

variable {α : Type}

namespace Dense

lemma div_lt_and_mod_lt {rows cols k : ℕ} (hk : k < rows * cols) :
    k / cols < rows ∧ k % cols < cols := by
  have positive : 0 < cols := Nat.pos_of_mul_pos_left (Nat.zero_lt_of_lt hk)
  exact ⟨(Nat.div_lt_iff_lt_mul positive).2 hk, Nat.mod_lt k positive⟩

lemma ofFn_congr {rows cols : ℕ} {f g : ℕ → ℕ → α} (h : ∀ i < rows, ∀ j < cols, f i j = g i j) :
    ofFn rows cols f = ofFn rows cols g := by
  unfold ofFn
  congr 2
  funext k
  obtain ⟨row, col⟩ := div_lt_and_mod_lt k.isLt
  exact h _ row _ col

variable [Zero α]

lemma ofFn_entry (A : Dense α) : ofFn A.rows A.cols A.entry = A := by
  obtain ⟨m, n, a, size⟩ := A
  unfold ofFn
  congr 1
  refine Array.ext (Array.size_ofFn.trans size.symm) fun k hk hk' => ?_
  obtain ⟨-, col⟩ := div_lt_and_mod_lt (size ▸ hk' : k < m * n)
  rw [Array.getElem_ofFn]
  change (if k % n < n then a.getD (k / n * n + k % n) 0 else 0) = _
  rw [if_pos col, Nat.div_add_mod']
  simp [hk']

lemma eq_of_entry {A B : Dense α} (rows : A.rows = B.rows) (cols : A.cols = B.cols)
    (entry : ∀ i < A.rows, ∀ j < A.cols, A.entry i j = B.entry i j) : A = B := by
  rw [← A.ofFn_entry, ofFn_congr entry, rows, cols, B.ofFn_entry]

end Dense

namespace Csr

variable [Scalar.Exact α]

lemma getD_foldl_modify (row : List (ℕ × α)) {line : Array α} {j : ℕ} (hj : j < line.size) :
    (row.foldl (fun line e => line.modify e.1 (· + e.2)) line).getD j 0 =
      line.getD j 0 + Row.weigh (fun k => if k = j then 1 else 0) row := by
  induction row generalizing line with
  | nil => simp
  | cons e row ih =>
    rw [List.foldl_cons, ih (by simpa using hj), Coords.getD_modify _ _ _ hj, Row.weigh_cons]
    split <;> ring

lemma toDense_eq (A : Csr α) : A.toDense = Dense.ofFn A.rows A.cols A.entry := by
  unfold toDense
  refine Dense.ofFn_congr fun i hi j hj => ?_
  have line : (A.stored.map fun row => row.foldl (fun line e => line.modify e.1 (· + e.2))
      (Array.replicate A.cols (0 : α))).getD i #[] =
      (A.row i).foldl (fun line e => line.modify e.1 (· + e.2)) (Array.replicate A.cols 0) := by
    rw [row, Array.getD_eq_getD_getElem?, Array.getElem?_map, Array.getD_eq_getD_getElem?,
      Array.getElem?_eq_getElem hi]
    rfl
  refine (congrArg (fun line => Array.getD line j 0) line).trans ?_
  rw [getD_foldl_modify _ (by simpa using hj), Coords.getD_replicate_zero, zero_add,
    entry_eq_weigh]

@[simp] lemma rows_ofDense (A : Dense α) : (ofDense A).rows = A.rows := Array.size_ofFn

lemma row_ofDense (A : Dense α) {i : ℕ} (hi : i < A.rows) :
    (ofDense A).row i = (List.range A.cols).filterMap fun j =>
      (if A.entry i j == 0 then none else some (A.entry i j)).map (j, ·) := by
  rw [row, ofDense, Array.getD_eq_getD_getElem?, Array.getElem?_ofFn, dif_pos hi]
  rfl

lemma entry_ofDense (A : Dense α) {i j : ℕ} (hi : i < A.rows) (hj : j < A.cols) :
    (ofDense A).entry i j = A.entry i j := by
  rw [entry_eq_weigh, row_ofDense A hi, Row.weigh, sum_filterMap]
  have terms : ∀ k : ℕ,
      ((if A.entry i k == 0 then none else some (A.entry i k)).map fun v => (k, v)).elim 0
        (fun e => e.2 * if e.1 = j then 1 else 0) = if k = j then A.entry i k else 0 := by
    intro k
    split
    · rename_i zero
      simp [Scalar.beq_zero_iff.1 zero]
    · simp
  simp only [terms]
  rw [sum_of_nodup List.nodup_range, if_pos (List.mem_range.2 hj)]

lemma toDense_ofDense (A : Dense α) : (ofDense A).toDense = A := by
  rw [toDense_eq, rows_ofDense]
  refine (Dense.ofFn_congr fun i hi j hj => ?_).trans A.ofFn_entry
  exact entry_ofDense A hi hj

lemma ne_zero_of_mem_ofDense {A : Dense α} {row : List (ℕ × α)} (hrow : row ∈ (ofDense A).stored)
    {e : ℕ × α} (he : e ∈ row) : e.2 ≠ 0 := by
  obtain ⟨i, rfl⟩ := Array.mem_ofFn.1 hrow
  obtain ⟨j, -, he⟩ := List.mem_filterMap.1 he
  obtain ⟨v, hv, rfl⟩ := Option.map_eq_some_iff.1 he
  split at hv
  · cases hv
  · rename_i nonzero
    obtain rfl := Option.some.inj hv
    exact fun zero => nonzero (Scalar.beq_zero_iff.2 zero)

end Csr

/-! ### Products -/

namespace Dense

variable [Ring α] (A : Dense α)

@[simp] lemma size_mulVec (x : Array α) : (A.mulVec x).size = A.rows := Array.size_ofFn

lemma getD_mulVec (x : Array α) {i : ℕ} (hi : i < A.rows) :
    (A.mulVec x).getD i 0 = ∑ j ∈ Finset.range A.cols, A.entry i j * x.getD j 0 := by
  rw [mulVec, Array.getD_eq_getD_getElem?, Array.getElem?_ofFn, dif_pos hi, Option.getD_some,
    sumTo_eq_sum]

lemma mulVec_eq_of_getD {x y : Array α} (size : y.size = A.rows) (entries : ∀ i < A.rows,
    y.getD i 0 = ∑ j ∈ Finset.range A.cols, A.entry i j * x.getD j 0) : y = A.mulVec x := by
  refine (Coords.eq_iff_getD (size.trans (A.size_mulVec x).symm)).2 fun i hi => ?_
  rw [entries i (size ▸ hi), getD_mulVec A x (size ▸ hi)]

end Dense

lemma Csr.mulVec_toDense [Scalar.Exact α] (A : Csr α) (x : Array α) :
    A.mulVec x = A.toDense.mulVec x := by
  have same := A.toDense_eq
  have rows : A.toDense.rows = A.rows := congrArg Dense.rows same
  have cols : A.toDense.cols = A.cols := congrArg Dense.cols same
  refine Dense.mulVec_eq_of_getD _ (Array.size_map.trans rows.symm) fun i hi => ?_
  rw [Csr.mulVec_getD_eq_sum, cols]
  refine Finset.sum_congr rfl fun j hj => ?_
  rw [same, Dense.entry_ofFn _ (rows ▸ hi) (Finset.mem_range.1 hj)]

end Eigenmesh
