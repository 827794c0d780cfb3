import Mathlib.Algebra.BigOperators.Group.List.Basic
import Mathlib.Algebra.Order.BigOperators.Group.List
import Mathlib.Algebra.Order.Ring.Nat
import Mathlib.Data.List.Basic
import Mathlib.Data.Nat.Cast.Basic
import Mathlib.Data.Nat.Notation
import Mathlib.Tactic.Common
import Eigenmesh.Sparse.Csr
import Eigenmesh.Word

/-!
The arrays of a matrix in compressed rows.

A matrix is given by its row lengths, columns and values, or by offsets in place of the lengths.
Both say where to cut the lists of columns and values into rows; arrays that are cut into ordered
rows and leave nothing over are those of a matrix.
-/

namespace Eigenmesh

namespace Row

variable {γ : Type} {lengths : List ℕ} {l : List γ}

lemma map_length_cut (fits : l.length = lengths.sum) :
    (cut lengths l).map List.length = lengths := by
  induction lengths generalizing l with
  | nil => rfl
  | cons n lengths ih =>
    rw [List.sum_cons] at fits
    have rest : (l.drop n).length = lengths.sum := by rw [List.length_drop]; omega
    rw [cut, List.map_cons, ih rest, List.length_take]
    congr 1
    omega

lemma flatten_cut (fits : l.length = lengths.sum) : (cut lengths l).flatten = l := by
  induction lengths generalizing l with
  | nil => exact (List.eq_nil_of_length_eq_zero fits).symm
  | cons n lengths ih =>
    rw [List.sum_cons] at fits
    have rest : (l.drop n).length = lengths.sum := by rw [List.length_drop]; omega
    rw [cut, List.flatten_cons, ih rest, List.take_append_drop]

lemma cut_flatten (rows : List (List γ)) : cut (rows.map List.length) rows.flatten = rows := by
  induction rows with
  | nil => rfl
  | cons row rows ih => simp [cut, ih]

lemma cut_getElem? (i : ℕ) :
    (cut lengths l)[i]? = lengths[i]?.map fun n => (l.drop (lengths.take i).sum).take n := by
  induction lengths generalizing l i with
  | nil => rfl
  | cons n lengths ih =>
    cases i with
    | zero => simp [cut]
    | succ i => simp [cut, ih, List.drop_drop]

end Row

namespace Csr

variable {α : Type} {A : Csr α} {lengths columns : List ℕ} {values : List α} {cols : ℕ}

def rowLengths (A : Csr α) : List ℕ := A.stored.toList.map List.length

def storedColumns (A : Csr α) : List ℕ := A.stored.toList.flatten.map (·.1)

def storedValues (A : Csr α) : List α := A.stored.toList.flatten.map (·.2)

@[simp] lemma length_rowLengths (A : Csr α) : A.rowLengths.length = A.rows := by
  simp [rowLengths, rows]

@[simp] lemma length_storedColumns (A : Csr α) : A.storedColumns.length = A.nnz :=
  List.length_map _

@[simp] lemma length_storedValues (A : Csr α) : A.storedValues.length = A.nnz :=
  List.length_map _

lemma sum_rowLengths (A : Csr α) : A.rowLengths.sum = A.nnz := by
  simp [rowLengths, nnz, List.length_flatten]

lemma zip_stored (A : Csr α) : A.storedColumns.zip A.storedValues = A.stored.toList.flatten := by
  rw [storedColumns, storedValues, List.zip_map']
  exact List.map_id' _

lemma lt_of_mem_storedColumns {j : ℕ} (h : j ∈ A.storedColumns) : j < A.cols := by
  obtain ⟨e, he, rfl⟩ := List.mem_map.1 h
  obtain ⟨row, hrow, he⟩ := List.mem_flatten.1 he
  exact (A.ordered row (Array.mem_toList_iff.1 hrow)).2 e he

lemma le_of_mem_rowLengths {n : ℕ} (h : n ∈ A.rowLengths) : n ≤ A.nnz := by
  rw [← sum_rowLengths]
  exact List.single_le_sum (fun _ _ => Nat.zero_le _) n h

lemma eq_of_stored {B : Csr α} (cols : A.cols = B.cols) (stored : A.stored = B.stored) : A = B := by
  cases A
  cases B
  cases cols
  cases stored
  rfl

lemma ofParts?_eq_some_iff : ofParts? lengths cols columns values = some A ↔
    A.cols = cols ∧ A.rowLengths = lengths ∧ A.storedColumns = columns ∧
      A.storedValues = values := by
  unfold ofParts?
  dsimp only
  constructor
  · intro h
    split at h
    · rename_i fits
      obtain rfl := Option.some.inj h
      have paired : (columns.zip values).length = lengths.sum := by
        rw [List.length_zip, fits.2.1, Nat.min_self, fits.1, List.sum_eq_foldl]
      refine ⟨rfl, Row.map_length_cut paired, ?_, ?_⟩
      · rw [storedColumns, Row.flatten_cut paired, List.map_fst_zip (Nat.le_of_eq fits.2.1.symm)]
      · rw [storedValues, Row.flatten_cut paired, List.map_snd_zip (Nat.le_of_eq fits.2.1)]
    · cases h
  · rintro ⟨rfl, rfl, rfl, rfl⟩
    have stored :
        (Row.cut A.rowLengths (A.storedColumns.zip A.storedValues)).toArray = A.stored := by
      rw [zip_stored, rowLengths, Row.cut_flatten]
    have length : A.storedColumns.length = A.rowLengths.foldl (· + ·) 0 := by
      rw [length_storedColumns, ← sum_rowLengths, List.sum_eq_foldl]
    have paired : A.storedValues.length = A.storedColumns.length := by
      rw [length_storedValues, length_storedColumns]
    rw [dif_pos ⟨length, paired, by rw [stored]; exact A.ordered⟩]
    exact congrArg some (eq_of_stored rfl stored)

/-- Offsets, columns and values that fit each other: the offsets begin with zero, do not decrease
and end with the number of values, and between two of them the columns strictly increase within the
matrix. -/
structure Valid (rows cols : ℕ) (offsets columns : List ℕ) (values : List α) : Prop where
  length : offsets.length = rows + 1
  first : offsets[0]? = some 0
  ascending : ∀ i a b, offsets[i]? = some a → offsets[i + 1]? = some b → a ≤ b
  last : offsets[rows]? = some values.length
  paired : columns.length = values.length
  ordered : ∀ i a b, offsets[i]? = some a → offsets[i + 1]? = some b →
    (columns.extract a b).Pairwise (· < ·) ∧ ∀ j ∈ columns.extract a b, j < cols

/-- The offsets that row lengths add up to. -/
def offsetsOf (lengths : List ℕ) : List ℕ := lengths.scanl (· + ·) 0

lemma offsetsOf_getElem? (i : ℕ) : (offsetsOf lengths)[i]? =
    if i ≤ lengths.length then some (lengths.take i).sum else none := by
  rw [offsetsOf, List.getElem?_scanl, ← List.sum_eq_foldl]

lemma ordered_iff (row : List (ℕ × α)) : Row.Ordered cols row ↔
    (row.map (·.1)).Pairwise (· < ·) ∧ ∀ j ∈ row.map (·.1), j < cols := by
  rw [Row.Ordered, List.pairwise_map, List.forall_mem_map]

lemma columns_of_cut (paired : columns.length = values.length) {i a b : ℕ}
    {row : List (ℕ × α)} (hrow : (Row.cut lengths (columns.zip values))[i]? = some row)
    (ha : (offsetsOf lengths)[i]? = some a) (hb : (offsetsOf lengths)[i + 1]? = some b) :
    row.map (·.1) = columns.extract a b := by
  obtain ⟨n, hn, rfl⟩ := Option.map_eq_some_iff.1 (Row.cut_getElem? i ▸ hrow)
  obtain ⟨hi, hn⟩ := List.getElem?_eq_some_iff.1 hn
  rw [offsetsOf_getElem?, if_pos (Nat.le_of_lt hi)] at ha
  rw [offsetsOf_getElem?, if_pos (show i + 1 ≤ _ from hi), List.sum_take_succ _ _ hi, hn] at hb
  obtain rfl := Option.some.inj ha
  obtain rfl := Option.some.inj hb
  rw [List.map_take, List.map_drop, List.map_fst_zip (Nat.le_of_eq paired), List.extract,
    Nat.add_sub_cancel_left]

lemma exists_row {i a b : ℕ} (ha : (offsetsOf lengths)[i]? = some a)
    (hb : (offsetsOf lengths)[i + 1]? = some b) (l : List (ℕ × α)) :
    a ≤ b ∧ ∃ row, (Row.cut lengths l)[i]? = some row := by
  rw [offsetsOf_getElem?] at ha hb
  have hi : i < lengths.length := by
    by_contra h
    rw [if_neg (show ¬i + 1 ≤ lengths.length from h)] at hb
    cases hb
  rw [if_pos (Nat.le_of_lt hi), Option.some.injEq] at ha
  rw [if_pos (show i + 1 ≤ lengths.length from hi), Option.some.injEq,
    List.sum_take_succ _ _ hi] at hb
  refine ⟨by omega, ?_⟩
  rw [Row.cut_getElem?, List.getElem?_eq_getElem hi]
  exact ⟨_, rfl⟩

lemma exists_ofParts?_iff : (∃ A, ofParts? lengths cols columns values = some A) ↔
    columns.length = lengths.sum ∧ values.length = columns.length ∧
      ∀ row ∈ Row.cut lengths (columns.zip values), Row.Ordered cols row := by
  unfold ofParts?
  dsimp only
  rw [List.sum_eq_foldl]
  split
  · rename_i fits
    simp only [List.mem_toArray] at fits
    exact ⟨fun _ => fits, fun _ => ⟨_, rfl⟩⟩
  · rename_i unfit
    simp only [List.mem_toArray] at unfit
    exact ⟨fun ⟨_, h⟩ => (nomatch h), fun fits => absurd fits unfit⟩

lemma exists_ofParts?_iff_valid : (∃ A, ofParts? lengths cols columns values = some A) ↔
    Valid lengths.length cols (offsetsOf lengths) columns values := by
  have whole : (offsetsOf lengths)[lengths.length]? = some lengths.sum := by
    rw [offsetsOf_getElem?, if_pos le_rfl, List.take_length]
  rw [exists_ofParts?_iff]
  constructor
  · rintro ⟨total, paired, ordered⟩
    refine ⟨List.length_scanl, by simp [offsetsOf_getElem?],
      fun i a b ha hb => (exists_row ha hb (columns.zip values)).1, by rw [whole, paired, total],
      paired.symm, fun i a b ha hb => ?_⟩
    obtain ⟨-, row, hrow⟩ := exists_row ha hb (columns.zip values)
    rw [← columns_of_cut paired.symm hrow ha hb, ← ordered_iff]
    exact ordered row (List.mem_of_getElem? hrow)
  · intro valid
    have total : lengths.sum = values.length := Option.some.inj (whole.symm.trans valid.last)
    refine ⟨valid.paired.trans total.symm, valid.paired.symm, fun row hrow => ?_⟩
    obtain ⟨i, hi⟩ := List.mem_iff_getElem?.1 hrow
    obtain ⟨n, hn, -⟩ := Option.map_eq_some_iff.1 (Row.cut_getElem? i ▸ hi)
    obtain ⟨hlt, -⟩ := List.getElem?_eq_some_iff.1 hn
    have ha : (offsetsOf lengths)[i]? = some (lengths.take i).sum := by
      rw [offsetsOf_getElem?, if_pos (Nat.le_of_lt hlt)]
    have hb : (offsetsOf lengths)[i + 1]? = some (lengths.take (i + 1)).sum := by
      rw [offsetsOf_getElem?, if_pos (show i + 1 ≤ lengths.length from hlt)]
    rw [ordered_iff, columns_of_cut valid.paired hi ha hb]
    exact valid.ordered i _ _ ha hb

lemma offset_lt_limit (few : lengths.length < 2 ^ 31) (short : ∀ n ∈ lengths, n < 2 ^ 31) {a : ℕ}
    (ha : a ∈ offsetsOf lengths) : a < Word.limit := by
  obtain ⟨i, hi⟩ := List.mem_iff_getElem?.1 ha
  rw [offsetsOf_getElem?] at hi
  split at hi
  · obtain rfl := Option.some.inj hi
    have part : (lengths.take i).sum ≤ (lengths.take i).length • 2 ^ 31 :=
      List.sum_le_card_nsmul _ _ fun n hn => Nat.le_of_lt (short n (List.mem_of_mem_take hn))
    have count : (lengths.take i).length ≤ lengths.length := by
      rw [List.length_take]
      omega
    have limit : Word.limit = 2 ^ 64 := rfl
    rw [nsmul_eq_mul, Nat.cast_id] at part
    omega
  · cases hi

end Csr

end Eigenmesh
