import Mathlib.Algebra.BigOperators.Ring.List
import Eigenmesh.Proofs.Dense.Matrices
import Eigenmesh.Solver.Spectrum

/-!
The shifted matrix of a pencil by stored rows.

The stored entries of `A` and those that the shift contributes make one list, in which the values
for one position add up. So the places that `A` and `B` store may overlap or not, and may hold zeros:
the matrix that comes about has the entries of `A - σ B`.
-/

namespace Eigenmesh

variable {α : Type}

namespace Csr

lemma lt_of_mem_triplets {A : Csr α} {t : ℕ × ℕ × α} (ht : t ∈ A.triplets) :
    t.1 < A.rows ∧ t.2.1 < A.cols := by
  obtain ⟨x, hx, ht⟩ := List.mem_flatMap.1 ht
  obtain ⟨e, he, rfl⟩ := List.mem_map.1 ht
  have stored := List.mem_zipIdx_iff_getElem?.1 hx
  rw [Array.getElem?_toList] at stored
  obtain ⟨hi, row⟩ := Array.getElem?_eq_some_iff.1 stored
  exact ⟨hi, (A.ordered x.1 (row ▸ Array.getElem_mem hi)).2 e he⟩

lemma sum_triplets [Scalar.Exact α] (A : Csr α) (i j : ℕ) :
    (A.triplets.map fun t => if t.1 = i ∧ t.2.1 = j then t.2.2 else 0).sum = A.entry i j := by
  have line (x : List (ℕ × α) × ℕ) :
      ((x.1.map fun e => (x.2, e.1, e.2)).map
        fun t => if t.1 = i ∧ t.2.1 = j then t.2.2 else 0).sum =
      if x.2 = i then Row.weigh (fun k => if k = j then 1 else 0) x.1 else 0 := by
    rw [List.map_map]
    by_cases here : x.2 = i <;> simp [Row.weigh, here, Function.comp_def]
  rw [triplets, sum_flatMap, entry_eq_weigh, row, Array.getD_eq_getD_getElem?]
  refine (congrArg List.sum (List.map_congr_left fun x _ => line x)).trans ?_
  rw [sum_zipIdx_ite, Array.getElem?_toList]
  cases A.stored[i]? <;> rfl

end Csr

namespace Pencil

variable [Scalar.Exact α] {n : ℕ} {A : Csr α} {B : Option (Csr α)} {σ : α}

/-- The entries of `B`, without `B` those of the identity. -/
def unitEntry (B : Option (Csr α)) (i j : ℕ) : α :=
  match B with
  | some B => B.entry i j
  | none => if i = j then 1 else 0

/-- What the shift adds to the list of entries. -/
def shiftTriplets (n : ℕ) (B : Option (Csr α)) (σ : α) : List (ℕ × ℕ × α) :=
  if σ == 0 then []
  else match B with
    | some B => B.triplets.map fun (i, j, v) => (i, j, -σ * v)
    | none => (List.range n).map fun i => (i, i, -σ)

lemma lt_of_mem_shiftTriplets (conform : ∀ M, B = some M → M.rows = n ∧ M.cols = n)
    {t : ℕ × ℕ × α} (ht : t ∈ shiftTriplets n B σ) : t.1 < n ∧ t.2.1 < n := by
  unfold shiftTriplets at ht
  split at ht
  · cases ht
  · cases B with
    | none =>
      obtain ⟨i, hi, rfl⟩ := List.mem_map.1 ht
      exact ⟨List.mem_range.1 hi, List.mem_range.1 hi⟩
    | some M =>
      obtain ⟨rows, cols⟩ := conform M rfl
      obtain ⟨s, hs, rfl⟩ := List.mem_map.1 ht
      have inside := Csr.lt_of_mem_triplets hs
      rwa [rows, cols] at inside

lemma sum_shiftTriplets {i : ℕ} (hi : i < n) (j : ℕ) :
    ((shiftTriplets n B σ).map fun t => if t.1 = i ∧ t.2.1 = j then t.2.2 else 0).sum =
      -(unitEntry B i j * σ) := by
  unfold shiftTriplets
  split
  · rename_i zero
    rw [Scalar.beq_zero_iff.1 zero, mul_zero, neg_zero]
    rfl
  · cases B with
    | none =>
      have terms (k : ℕ) : (if k = i ∧ k = j then -σ else 0) =
          if k = i then (if k = j then -σ else 0) else 0 := ite_and ..
      rw [List.map_map]
      simp only [Function.comp_def, terms]
      rw [sum_of_nodup List.nodup_range, if_pos (List.mem_range.2 hi), unitEntry]
      split <;> simp
    | some M =>
      have terms (t : ℕ × ℕ × α) : (if t.1 = i ∧ t.2.1 = j then -σ * t.2.2 else 0) =
          -σ * if t.1 = i ∧ t.2.1 = j then t.2.2 else 0 := by
        rw [mul_ite, mul_zero]
      rw [List.map_map]
      simp only [Function.comp_def, terms]
      rw [List.sum_map_mul_left, Csr.sum_triplets, neg_mul, mul_comm]
      rfl

lemma lt_of_mem_shifted (square : A.cols = A.rows)
    (conform : ∀ M, B = some M → M.rows = A.rows ∧ M.cols = A.rows) :
    ∀ t ∈ (A.triplets ++ shiftTriplets A.rows B σ).toArray, t.1 < A.rows ∧ t.2.1 < A.rows := by
  intro t ht
  rcases List.mem_append.1 (List.mem_toArray.1 ht) with ht | ht
  · exact square ▸ Csr.lt_of_mem_triplets ht
  · exact lt_of_mem_shiftTriplets conform ht

theorem toDense_shiftedCsr {P : Pencil α} (operand : P.A = A.toDense)
    (second : P.B = B.map Csr.toDense) (square : A.cols = A.rows)
    (conform : ∀ M, B = some M → M.rows = A.rows ∧ M.cols = A.rows) :
    (shiftedCsr A B σ).toDense = P.shifted σ := by
  let S : Triplets α :=
    { rows := A.rows
      cols := A.rows
      entries := (A.triplets ++ shiftTriplets A.rows B σ).toArray
      inside := lt_of_mem_shifted square conform }
  have sparse {i : ℕ} (hi : i < A.rows) (j : ℕ) :
      S.toCsr.entry i j = A.entry i j - unitEntry B i j * σ := by
    rw [Triplets.entry_toCsr, Triplets.entry_eq_sum, List.map_append, List.sum_append,
      Csr.sum_triplets, sum_shiftTriplets hi, sub_eq_add_neg]
  have first {i j : ℕ} (hi : i < A.rows) (hj : j < A.rows) : P.A.entry i j = A.entry i j := by
    rw [operand, Csr.toDense_eq, Dense.entry_ofFn _ hi (square ▸ hj)]
  have unit {i j : ℕ} (hi : i < A.rows) (hj : j < A.rows) :
      (P.B.getD (.identity A.rows)).entry i j = unitEntry B i j := by
    rw [second]
    cases B with
    | none => exact Dense.entry_ofFn (fun i j => if i = j then (1 : α) else 0) hi hj
    | some M =>
      obtain ⟨rows, cols⟩ := conform M rfl
      rw [Option.map_some, Option.getD_some, Csr.toDense_eq,
        Dense.entry_ofFn _ (rows ▸ hi) (cols ▸ hj), unitEntry]
  have rows : P.A.rows = A.rows := by rw [operand, Csr.toDense_eq]; rfl
  have cols : P.A.cols = A.rows := by rw [operand, Csr.toDense_eq]; exact square
  change S.toCsr.toDense = _
  rw [Csr.toDense_eq, Triplets.rows_toCsr, shifted, Dense.sub, rows, cols]
  refine Dense.ofFn_congr fun i hi j hj => ?_
  rw [sparse hi, Dense.entry_scale, first hi hj, unit hi hj]

end Pencil

end Eigenmesh
