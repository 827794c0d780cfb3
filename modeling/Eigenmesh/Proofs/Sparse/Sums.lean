import Mathlib.Algebra.BigOperators.Group.List.Basic
import Mathlib.Algebra.BigOperators.Ring.Finset
import Mathlib.Tactic.Ring
import Eigenmesh.Proofs.Scalar.Exact
import Eigenmesh.Proofs.Sparse.Exchanges
import Eigenmesh.Sparse.Triplets

/-!
What a sparse matrix stands for in exact arithmetic.

The entries of a row matter only through their sum at each column. Putting a matrix into compressed
rows reorders entries and adds up those at one column, which changes no such sum, so the product
with a vector and the stored values can be read off the list of entries.
-/

namespace Eigenmesh

variable {α : Type} [Scalar.Exact α] {f : ℕ → α}

namespace Row

/-- The values of a row, each times the factor of its column, summed. -/
def weigh (f : ℕ → α) (row : List (ℕ × α)) : α := (row.map fun e => e.2 * f e.1).sum

@[simp] lemma weigh_nil : weigh f [] = 0 := rfl

@[simp] lemma weigh_cons (e : ℕ × α) (row : List (ℕ × α)) :
    weigh f (e :: row) = e.2 * f e.1 + weigh f row := by
  simp [weigh]

lemma weigh_append (row row' : List (ℕ × α)) :
    weigh f (row ++ row') = weigh f row + weigh f row' := by
  simp [weigh]

lemma weigh_perm {row row' : List (ℕ × α)} (h : row.Perm row') : weigh f row = weigh f row' :=
  (h.map _).sum_eq

lemma weigh_congr {g : ℕ → α} {row : List (ℕ × α)} (h : ∀ e ∈ row, f e.1 = g e.1) :
    weigh f row = weigh g row := by
  unfold weigh
  rw [List.map_congr_left fun e he => by rw [h e he]]

lemma weigh_add (g : ℕ → α) (row : List (ℕ × α)) :
    weigh (fun j => f j + g j) row = weigh f row + weigh g row := by
  induction row with
  | nil => simp
  | cons e row ih => simp only [weigh_cons, ih]; ring

lemma weigh_filter (p : ℕ → Bool) (row : List (ℕ × α)) :
    weigh f (row.filter fun e => p e.1) = weigh (fun j => if p j then f j else 0) row := by
  induction row with
  | nil => rfl
  | cons e row ih =>
    by_cases h : p e.1 = true
    · simp [h, ih]
    · simp [h, ih]

lemma weigh_addAt (j : ℕ) (v : α) (row : List (ℕ × α)) :
    weigh f (addAt j v row) = weigh f row + v * f j := by
  induction row with
  | nil => simp [addAt]
  | cons e row ih =>
    obtain ⟨k, w⟩ := e
    unfold addAt
    split
    · simp only [weigh_cons]; ring
    · split
      · rename_i h; subst h; simp only [weigh_cons]; ring
      · simp only [weigh_cons, ih]; ring

lemma weigh_ofEntries {cols : ℕ} {es : Array (ℕ × α)} (inside : ∀ e ∈ es, e.1 < cols) :
    weigh f (ofEntries cols es) = weigh f es.toList := by
  have sorted := Quicksort.sort_perm (fun a b : ℕ × α => a.1 < b.1) es
  have added : ∀ (l row : List (ℕ × α)), (∀ e ∈ l, e.1 < cols) →
      weigh f (l.foldl (fun row e => if e.1 < cols then addAt e.1 e.2 row else row) row) =
        weigh f row + weigh f l := by
    intro l
    induction l with
    | nil => intro row _; simp
    | cons e l ih =>
      obtain ⟨j, v⟩ := e
      intro row h
      have hj : j < cols := h (j, v) List.mem_cons_self
      rw [List.foldl_cons, ih _ fun e he => h e (List.mem_cons_of_mem _ he)]
      dsimp only
      rw [if_pos hj, weigh_addAt, weigh_cons]
      ring
  unfold ofEntries
  rw [← Array.foldl_toList,
    added _ _ fun e he => inside e (sorted.mem_iff.1 (Array.mem_toList_iff.1 he)),
    weigh_nil, zero_add, weigh_perm (Array.perm_iff_toList_perm.1 sorted)]

lemma weigh_eq_sum {cols : ℕ} {row : List (ℕ × α)} (inside : ∀ e ∈ row, e.1 < cols) :
    weigh f row =
      ∑ j ∈ Finset.range cols, weigh (fun k => if k = j then 1 else 0) row * f j := by
  induction row with
  | nil => simp
  | cons e row ih =>
    have here : e.1 < cols := inside e List.mem_cons_self
    rw [weigh_cons, ih fun e he => inside e (List.mem_cons_of_mem _ he)]
    simp only [weigh_cons, add_mul, Finset.sum_add_distrib, mul_ite, mul_one, mul_zero, ite_mul,
      zero_mul, Finset.sum_ite_eq, Finset.mem_range, here, if_true]

lemma lookup_getD {cols : ℕ} {row : List (ℕ × α)} (ordered : Ordered cols row) (j : ℕ) :
    (row.lookup j).getD 0 = weigh (fun k => if k = j then 1 else 0) row := by
  induction row with
  | nil => rfl
  | cons e row ih =>
    obtain ⟨k, v⟩ := e
    by_cases h : j = k
    · subst h
      have others : weigh (fun k => if k = j then (1 : α) else 0) row = weigh (fun _ => 0) row :=
        weigh_congr fun e he => if_neg (Nat.ne_of_gt ((List.pairwise_cons.1 ordered.1).1 e he))
      rw [weigh_cons, others]
      simp [weigh]
    · have hk : (j == k) = false := by simpa using h
      rw [List.lookup_cons, hk, weigh_cons, if_neg fun e => h e.symm, ← ih ordered.tail]
      simp

end Row

namespace Csr

omit [Scalar.Exact α] in
@[simp] lemma size_byRows (rows : ℕ) (ts : Array (ℕ × ℕ × α)) : (byRows rows ts).size = rows := by
  refine Array.foldl_induction (fun _ (lines : Array (Array (ℕ × α))) => lines.size = rows)
    Array.size_replicate ?_
  intro k lines h
  rw [Array.size_modify, h]

omit [Scalar.Exact α] in
lemma byRows_getElem? (rows : ℕ) (ts : Array (ℕ × ℕ × α)) (i : ℕ) :
    (byRows rows ts)[i]? = if i < rows then
      some ((ts.toList.filter (·.1 = i)).map (·.2)).toArray else none := by
  have collected : ∀ (l : List (ℕ × ℕ × α)) (lines : Array (Array (ℕ × α))),
      (l.foldl (fun lines t => lines.modify t.1 (·.push t.2)) lines)[i]? =
        lines[i]?.map (· ++ ((l.filter (·.1 = i)).map (·.2)).toArray) := by
    intro l
    induction l with
    | nil => intro lines; simp
    | cons t l ih =>
      intro lines
      obtain ⟨k, j, v⟩ := t
      rw [List.foldl_cons, ih, Array.getElem?_modify]
      by_cases h : k = i
      · cases lines[i]? <;> simp [h]
      · simp [h]
  unfold byRows
  rw [← Array.foldl_toList, collected, Array.getElem?_replicate]
  split
  · simp
  · rfl

lemma mulVec_getD (A : Csr α) (x : Array α) (i : ℕ) :
    (A.mulVec x).getD i 0 = Row.weigh (fun j => x.getD j 0) (A.row i) := by
  have product : ∀ (row : List (ℕ × α)) (s : α),
      row.foldl (fun s e => s + e.2 * x.getD e.1 0) s =
        s + Row.weigh (fun j => x.getD j 0) row := by
    intro row
    induction row with
    | nil => simp
    | cons e row ih => intro s; rw [List.foldl_cons, ih, Row.weigh_cons, add_assoc]
  unfold mulVec row
  by_cases hi : i < A.stored.size
  · rw [Array.getD_eq_getD_getElem?, Array.getElem?_map, Array.getElem?_eq_getElem hi,
      Option.map_some, Option.getD_some, product, neg_zero, zero_add]
    simp [hi]
  · simp [hi]

lemma entry_eq_weigh (A : Csr α) (i j : ℕ) :
    A.entry i j = Row.weigh (fun k => if k = j then 1 else 0) (A.row i) := by
  unfold entry row
  by_cases hi : i < A.stored.size
  · have ordered := A.ordered _ (Array.getElem_mem hi)
    simp only [Array.getD_eq_getD_getElem?, Array.getElem?_eq_getElem hi, Option.getD_some]
    exact Row.lookup_getD ordered j
  · simp [hi]

lemma mulVec_getD_eq_sum (A : Csr α) (x : Array α) (i : ℕ) :
    (A.mulVec x).getD i 0 = ∑ j ∈ Finset.range A.cols, A.entry i j * x.getD j 0 := by
  have inside : ∀ e ∈ A.row i, e.1 < A.cols := by
    unfold row
    by_cases hi : i < A.stored.size
    · rw [Array.getD_eq_getD_getElem?, Array.getElem?_eq_getElem hi]
      exact (A.ordered _ (Array.getElem_mem hi)).2
    · simp [hi]
  rw [mulVec_getD, Row.weigh_eq_sum inside]
  exact Finset.sum_congr rfl fun j _ => by rw [entry_eq_weigh]

end Csr

namespace Triplets

/-- The entries of a row, in the order of the list. -/
def rowEntries {α : Type} (A : Triplets α) (i : ℕ) : List (ℕ × α) :=
  (A.entries.toList.filter (·.1 = i)).map (·.2)

/-- The entry of the matrix at a position: all values given for it, summed. -/
def entry (A : Triplets α) (i j : ℕ) : α :=
  (((A.rowEntries i).filter (·.1 = j)).map (·.2)).sum

/-- The product of a row with a vector. -/
def rowDot (A : Triplets α) (i : ℕ) (f : ℕ → α) : α := Row.weigh f (A.rowEntries i)

variable (A : Triplets α)

lemma entry_eq_sum (i j : ℕ) : A.entry i j =
    (A.entries.toList.map fun t => if t.1 = i ∧ t.2.1 = j then t.2.2 else 0).sum := by
  rw [entry, rowEntries]
  induction A.entries.toList with
  | nil => rfl
  | cons t l ih =>
    rw [List.map_cons, List.sum_cons, ← ih]
    by_cases hi : t.1 = i <;> by_cases hj : t.2.1 = j <;> simp [hi, hj]

lemma entry_eq_rowDot (i j : ℕ) : A.entry i j = A.rowDot i fun k => if k = j then 1 else 0 := by
  have h := Row.weigh_filter (f := fun _ => (1 : α)) (fun k => decide (k = j)) (A.rowEntries i)
  simp only [decide_eq_true_eq] at h
  unfold entry rowDot
  rw [← h]
  simp [Row.weigh]

omit [Scalar.Exact α] in
lemma col_lt_of_mem_rowEntries {i : ℕ} {e : ℕ × α} (h : e ∈ A.rowEntries i) :
    i < A.rows ∧ e.1 < A.cols := by
  obtain ⟨t, ht, rfl⟩ := List.mem_map.1 h
  obtain ⟨ht, hi⟩ := List.mem_filter.1 ht
  have inside := A.inside t (Array.mem_toList_iff.1 ht)
  rwa [of_decide_eq_true hi] at inside

lemma rowDot_of_le {i : ℕ} (h : A.rows ≤ i) (f : ℕ → α) : A.rowDot i f = 0 := by
  have none : A.rowEntries i = [] := by
    rw [List.eq_nil_iff_forall_not_mem]
    intro e he
    have := (A.col_lt_of_mem_rowEntries he).1
    omega
  rw [rowDot, none, Row.weigh_nil]

lemma rowDot_eq_sum (i : ℕ) (f : ℕ → α) : A.rowDot i f =
    (A.entries.toList.map fun t => if t.1 = i then t.2.2 * f t.2.1 else 0).sum := by
  rw [rowDot, rowEntries]
  induction A.entries.toList with
  | nil => rfl
  | cons t l ih =>
    rw [List.map_cons, List.sum_cons, ← ih]
    by_cases hi : t.1 = i <;> simp [hi]

lemma weigh_row_toCsr (i : ℕ) (f : ℕ → α) : Row.weigh f (A.toCsr.row i) = A.rowDot i f := by
  unfold toCsr Csr.ofTriplets Csr.row
  dsimp only
  rw [Array.getD_eq_getD_getElem?, Array.getElem?_map, Csr.byRows_getElem?]
  split
  · rw [Option.map_some, Option.getD_some, Row.weigh_ofEntries]
    · rfl
    · intro e he
      exact (A.col_lt_of_mem_rowEntries (i := i) (by simpa [rowEntries] using he)).2
  · rename_i h
    rw [A.rowDot_of_le (Nat.le_of_not_lt h)]
    rfl

omit [Scalar.Exact α] in
@[simp] lemma rows_toCsr [Add α] : A.toCsr.rows = A.rows :=
  Array.size_map.trans (Csr.size_byRows _ _)

omit [Scalar.Exact α] in
@[simp] lemma size_mulVec_toCsr [Scalar α] (x : Array α) : (A.toCsr.mulVec x).size = A.rows :=
  Array.size_map.trans A.rows_toCsr

lemma mulVec_toCsr (x : Array α) (i : ℕ) :
    (A.toCsr.mulVec x).getD i 0 = A.rowDot i fun j => x.getD j 0 := by
  rw [Csr.mulVec_getD, weigh_row_toCsr]

lemma entry_toCsr (i j : ℕ) : A.toCsr.entry i j = A.entry i j := by
  rw [Csr.entry_eq_weigh, weigh_row_toCsr, entry_eq_rowDot]

end Triplets

end Eigenmesh
