import Eigenmesh.Proofs.Sparse.Positions
import Eigenmesh.Proofs.Sparse.Sums

/-!
Parts of a matrix.

The rows and columns that are kept get new numbers, in the order in which they are listed. An entry
stays if its row and its column both have a new number.
-/

namespace Eigenmesh.Triplets

variable {α : Type} {A R : Triplets α} {rows cols : Array ℕ}

/-- The entries at the kept positions, renumbered. -/
def renumber (rowMap colMap : Renumbering) : ℕ × ℕ × α → Option (ℕ × ℕ × α) := fun (i, j, v) => do
  let i ← rowMap.getD i none
  let j ← colMap.getD j none
  return (i, j, v)

lemma restrict?_eq_some (h : A.restrict? rows cols = some R) :
    ∃ rowMap colMap, Renumbering.of? A.rows rows = some rowMap ∧
      Renumbering.of? A.cols cols = some colMap ∧ R.rows = rows.size ∧ R.cols = cols.size ∧
      R.entries = A.entries.filterMap (renumber rowMap colMap) := by
  unfold restrict? at h
  obtain ⟨rowMap, hrow, h⟩ := Option.bind_eq_some_iff.1 h
  obtain ⟨colMap, hcol, h⟩ := Option.bind_eq_some_iff.1 h
  unfold of? at h
  split at h
  · obtain rfl := Option.some.inj h
    exact ⟨rowMap, colMap, hrow, hcol, rfl, rfl, rfl⟩
  · cases h

lemma exists_restrict? (rowRoom : Word.isArray A.rows 16) (colRoom : Word.isArray A.cols 16)
    (hrows : ∀ i ∈ rows, i < A.rows) (hcols : ∀ j ∈ cols, j < A.cols) :
    ∃ R, A.restrict? rows cols = some R := by
  obtain ⟨rowMap, hrow⟩ := Renumbering.exists_of? rowRoom hrows
  obtain ⟨colMap, hcol⟩ := Renumbering.exists_of? colRoom hcols
  have inside : ∀ t ∈ A.entries.filterMap (renumber rowMap colMap),
      t.1 < rows.size ∧ t.2.1 < cols.size := by
    intro t ht
    obtain ⟨⟨i, j, v⟩, -, ht⟩ := Array.mem_filterMap.1 ht
    obtain ⟨a, ha, ht⟩ := Option.bind_eq_some_iff.1 ht
    obtain ⟨b, hb, ht⟩ := Option.bind_eq_some_iff.1 ht
    obtain rfl := Option.some.inj ht
    exact ⟨Renumbering.lt_size hrow ha, Renumbering.lt_size hcol hb⟩
  refine ⟨⟨rows.size, cols.size, _, inside⟩, ?_⟩
  unfold restrict?
  rw [hrow, hcol]
  exact dif_pos inside

lemma entry_restrict? [Scalar.Exact α] (h : A.restrict? rows cols = some R)
    (nodupRows : rows.toList.Nodup) (nodupCols : cols.toList.Nodup) {a b i j : ℕ}
    (hi : rows[a]? = some i) (hj : cols[b]? = some j) : R.entry a b = A.entry i j := by
  obtain ⟨rowMap, colMap, hrow, hcol, -, -, entries⟩ := restrict?_eq_some h
  have isRow (k : ℕ) : rowMap.getD k none = some a ↔ k = i := by
    rw [Renumbering.getD_eq_some_iff hrow nodupRows, hi, Option.some.injEq, eq_comm]
  have isCol (k : ℕ) : colMap.getD k none = some b ↔ k = j := by
    rw [Renumbering.getD_eq_some_iff hcol nodupCols, hj, Option.some.injEq, eq_comm]
  unfold entry rowEntries
  rw [entries, Array.toList_filterMap]
  congr 1
  induction A.entries.toList with
  | nil => rfl
  | cons t ts ih =>
    obtain ⟨k, l, v⟩ := t
    have inRow := isRow k
    have inCol := isCol l
    cases hr : rowMap.getD k none with
    | none =>
      have other : k ≠ i := by simpa [hr] using inRow
      have dropped : renumber rowMap colMap (k, l, v) = none := by rw [renumber, hr]; rfl
      rw [List.filterMap_cons, dropped, ih]
      simp [other]
    | some a' =>
      have hk : a' = a ↔ k = i := by simpa [hr] using inRow
      cases hc : colMap.getD l none with
      | none =>
        have other : l ≠ j := by simpa [hc] using inCol
        have dropped : renumber rowMap colMap (k, l, v) = none := by rw [renumber, hr, hc]; rfl
        rw [List.filterMap_cons, dropped, ih]
        by_cases h : k = i <;> simp [h, other]
      | some b' =>
        have hl : b' = b ↔ l = j := by simpa [hc] using inCol
        have moved : renumber rowMap colMap (k, l, v) = some (a', b', v) := by
          rw [renumber, hr, hc]; rfl
        rw [List.filterMap_cons, moved]
        by_cases h : k = i <;> by_cases h' : l = j <;> simp [h, h', hk, hl, ih]

end Eigenmesh.Triplets
