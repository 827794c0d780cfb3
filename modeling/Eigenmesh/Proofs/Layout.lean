import Mathlib.Algebra.Ring.Nat
import Mathlib.Data.List.OfFn
import Mathlib.Order.Monotone.Defs
import Mathlib.Tactic.Common
import Eigenmesh.LocalVector

/-!
Rows spread over the ranks of a group.

A rank starts where the rows of the ranks before it end, and these are so many shares and one row
more for each rank that takes one. So the ranges follow one another from the first row to the last,
and what the ranks take over of a column is the column, cut where the ranges meet.
-/

namespace Eigenmesh

variable {α : Type} {p n r i : ℕ}

/-! ### Where the ranges meet -/

namespace Comm

/-- The number of rows of the first `r` of `p` ranks. -/
def rowsBefore (p n r : ℕ) : ℕ := r * (n / p) + min r (n % p)

lemma rowsBefore_zero (p n : ℕ) : rowsBefore p n 0 = 0 := by simp [rowsBefore]

lemma rowsBefore_size (pos : 0 < p) : rowsBefore p n p = n := by
  have fewer := Nat.mod_lt n pos
  rw [rowsBefore, Nat.min_eq_right fewer.le, Nat.div_add_mod]

lemma rowsBefore_succ (p n r : ℕ) :
    rowsBefore p n (r + 1) = rowsBefore p n r + (n / p + if r < n % p then 1 else 0) := by
  simp only [rowsBefore, Nat.add_mul, Nat.one_mul]
  split <;> omega

lemma rowsBefore_mono (p n : ℕ) : Monotone (rowsBefore p n) :=
  monotone_nat_of_le_succ fun r => (Nat.le_add_right _ _).trans_eq (rowsBefore_succ p n r).symm

lemma rowsBefore_le (h : r ≤ p) : rowsBefore p n r ≤ n := by
  obtain rfl | pos := Nat.eq_zero_or_pos p
  · obtain rfl := Nat.le_zero.1 h
    rw [rowsBefore_zero]
    exact Nat.zero_le n
  · exact (rowsBefore_mono p n h).trans_eq (rowsBefore_size pos)

variable (c : Comm)

lemma start_layout (n : ℕ) : (c.layout n).start = rowsBefore c.size n c.rank := rfl

lemma stop_layout (n : ℕ) : (c.layout n).stop = rowsBefore c.size n (c.rank + 1) :=
  (rowsBefore_succ c.size n c.rank).symm

lemma exists_rowsBefore (pos : 0 < p) (hi : i < n) :
    ∃ r < p, rowsBefore p n r ≤ i ∧ i < rowsBefore p n (r + 1) := by
  have reached : ∃ r, i < rowsBefore p n r := ⟨p, hi.trans_eq (rowsBefore_size pos).symm⟩
  have found := Nat.find_spec reached
  have least : Nat.find reached ≤ p :=
    Nat.find_min' reached (hi.trans_eq (rowsBefore_size pos).symm)
  obtain ⟨r, hr⟩ : ∃ r, Nat.find reached = r + 1 := by
    refine Nat.exists_eq_succ_of_ne_zero fun zero => ?_
    rw [zero, rowsBefore_zero] at found
    exact Nat.not_lt_zero i found
  have before : ¬i < rowsBefore p n r := Nat.find_min reached (hr ▸ Nat.lt_succ_self r)
  rw [hr] at found least
  exact ⟨r, least, Nat.le_of_not_lt before, found⟩

/-! ### Steps of the computation -/

/-- Length, start and end of the rows of this rank, found step by step; nothing if a step leaves the
range of sizes. -/
def rows? (c : Comm) (n : ℕ) : Option (ℕ × ℕ × ℕ) := do
  let share := n / c.size
  let extra := n % c.size
  let localSize ← Word.add? share (if c.rank < extra then 1 else 0)
  let whole ← Word.mul? c.rank share
  let start ← Word.add? whole (min c.rank extra)
  let stop ← Word.add? start localSize
  return (localSize, start, stop)

lemma rows?_eq_some (small : n < Word.limit) : c.rows? n =
    some ((c.layout n).localSize, (c.layout n).start, (c.layout n).stop) := by
  have stop := (c.layout n).stop_le
  have start := c.start_layout n
  have whole : c.rank * (n / c.size) ≤ (c.layout n).start := by rw [start, rowsBefore]; omega
  change (c.layout n).start + (c.layout n).localSize ≤ n at stop
  have sum₁ : Word.add? (n / c.size) (if c.rank < n % c.size then 1 else 0) =
      some (c.layout n).localSize := Word.fits_eq_some_iff.2 ⟨rfl, by
        change (c.layout n).localSize < _
        omega⟩
  have product : Word.mul? c.rank (n / c.size) = some (c.rank * (n / c.size)) :=
    Word.fits_eq_some_iff.2 ⟨rfl, by omega⟩
  have sum₂ : Word.add? (c.rank * (n / c.size)) (min c.rank (n % c.size)) =
      some (c.layout n).start := Word.fits_eq_some_iff.2 ⟨rfl, by
        change (c.layout n).start < _
        omega⟩
  have sum₃ : Word.add? (c.layout n).start (c.layout n).localSize = some (c.layout n).stop :=
    Word.fits_eq_some_iff.2 ⟨rfl, by omega⟩
  simp only [rows?, sum₁, product, sum₂, sum₃, Option.bind_eq_bind, Option.bind_some,
    Option.pure_def]

end Comm

/-! ### Columns -/

lemma flatten_extract {s : ℕ → ℕ} (mono : Monotone s) (column : Array α) (k : ℕ) :
    (List.ofFn fun r : Fin k => (column.extract (s r) (s (r + 1))).toList).flatten =
      (column.extract (s 0) (s k)).toList := by
  induction k with
  | zero => simp
  | succ k ih =>
    have join : column.extract (s 0) (s k) ++ column.extract (s k) (s (k + 1)) =
        column.extract (s 0) (s (k + 1)) := by
      rw [Array.extract_append_extract, min_eq_left (mono (Nat.zero_le k)),
        max_eq_right (mono (Nat.le_succ k))]
    rw [List.ofFn_succ_last, List.flatten_append, ← join, Array.toList_append]
    simpa using ih

lemma LocalVector.entries_assign_eq_owned {v : LocalVector α} {column : Array α}
    (reaches : v.layout.stop ≤ column.size) :
    (v.assign column).entries = v.layout.owned column := by
  have length : v.layout.stop = v.layout.start + v.entries.size := by rw [v.size_eq]; rfl
  have written : (v.assign column).entries =
      v.entries.mapIdx fun k x => column.getD (v.layout.start + k) x := rfl
  rw [written, Layout.owned]
  refine Array.ext ?_ fun k hk _ => ?_
  · rw [Array.size_mapIdx, Array.size_extract]
    omega
  · have inside : k < v.entries.size := hk.trans_eq Array.size_mapIdx
    have there : v.layout.start + k < column.size := by omega
    rw [Array.getElem_mapIdx, Array.getElem_extract, Array.getD_eq_getD_getElem?,
      Array.getElem?_eq_getElem there, Option.getD_some]

/-! ### All ranks -/

namespace Comm

/-- The rows of each of `p` ranks. -/
def layouts (p n : ℕ) (r : Fin p) : Layout := layout ⟨p, r, r.isLt⟩ n

lemma start_layouts (r : Fin p) : (layouts p n r).start = rowsBefore p n r := start_layout _ n

lemma stop_layouts (r : Fin p) : (layouts p n r).stop = rowsBefore p n (r + 1) := stop_layout _ n

/-- The ranges are all rows in turn, in shares that differ by one row at most, the larger ones
first. -/
structure IsEven (n : ℕ) (l : Fin p → Layout) : Prop where
  globalSize : ∀ r, (l r).globalSize = n
  first : ∀ r, r.val = 0 → (l r).start = 0
  next : ∀ r s, r.val + 1 = s.val → (l r).stop = (l s).start
  last : ∀ r, r.val + 1 = p → (l r).stop = n
  antitone : ∀ r s, r ≤ s → (l s).localSize ≤ (l r).localSize
  even : ∀ r s, (l r).localSize ≤ (l s).localSize + 1

lemma isEven_layouts (p n : ℕ) : IsEven n (layouts p n) where
  globalSize _ := rfl
  first r zero := by rw [start_layouts, zero, rowsBefore_zero]
  next r s next := by rw [stop_layouts, start_layouts, next]
  last r last := by rw [stop_layouts, last, rowsBefore_size r.pos]
  antitone r s h := by
    have h : r.val ≤ s.val := h
    change n / p + (if s.val < n % p then 1 else 0) ≤ n / p + if r.val < n % p then 1 else 0
    split_ifs <;> omega
  even r s := by
    change n / p + (if r.val < n % p then 1 else 0) ≤
      n / p + (if s.val < n % p then 1 else 0) + 1
    split_ifs <;> omega

lemma eq_of_mem_layouts {r s : Fin p} (hr : (layouts p n r).start ≤ i ∧ i < (layouts p n r).stop)
    (hs : (layouts p n s).start ≤ i ∧ i < (layouts p n s).stop) : r = s := by
  rw [start_layouts, stop_layouts] at hr hs
  rcases lt_trichotomy r.val s.val with lt | eq | gt
  · have apart : rowsBefore p n (r + 1) ≤ rowsBefore p n s := rowsBefore_mono p n lt
    omega
  · exact Fin.ext eq
  · have apart : rowsBefore p n (s + 1) ≤ rowsBefore p n r := rowsBefore_mono p n gt
    omega

/-- **The layouts of all ranks partition the rows.** They are computed without a step that leaves
the range of sizes, and every row is owned by one rank. A column of all rows that is written into
one vector per rank, whatever these hold, is the vectors one after another. -/
theorem layouts_partition (pos : 0 < p) (small : n < Word.limit) :
    (∀ r : Fin p, rows? ⟨p, r, r.isLt⟩ n =
      some ((layouts p n r).localSize, (layouts p n r).start, (layouts p n r).stop)) ∧
    IsEven n (layouts p n) ∧
    (∀ i < n, ∃! r : Fin p, (layouts p n r).start ≤ i ∧ i < (layouts p n r).stop) ∧
    ∀ (column : Array α) (v : Fin p → LocalVector α), column.size = n →
      (∀ r, (v r).layout = layouts p n r) →
      (List.ofFn fun r => ((v r).assign column).entries.toList).flatten = column.toList := by
  refine ⟨fun r => rows?_eq_some _ small, isEven_layouts p n, fun i hi => ?_,
    fun column v size spread => ?_⟩
  · obtain ⟨r, hr, start, stop⟩ := exists_rowsBefore pos hi
    have owned : (layouts p n ⟨r, hr⟩).start ≤ i ∧ i < (layouts p n ⟨r, hr⟩).stop := by
      rw [start_layouts, stop_layouts]
      exact ⟨start, stop⟩
    exact ⟨⟨r, hr⟩, owned, fun s hs => eq_of_mem_layouts hs owned⟩
  · have part (r : Fin p) : ((v r).assign column).entries =
        column.extract (rowsBefore p n r) (rowsBefore p n (r + 1)) := by
      have stop : (v r).layout.stop = rowsBefore p n (r + 1) := by
        rw [spread r, stop_layouts]
      have reaches : (v r).layout.stop ≤ column.size := by
        rw [stop, size]
        exact rowsBefore_le r.isLt
      rw [LocalVector.entries_assign_eq_owned reaches, Layout.owned, stop, spread r, start_layouts]
    simp only [part]
    rw [flatten_extract (rowsBefore_mono p n), rowsBefore_zero, rowsBefore_size pos, ← size,
      Array.extract_size]

/-- Three rows on five ranks, the last two of which own none, and the most rows there can be. -/
theorem layouts_partition_fiveRanks :
    0 < 5 ∧ 3 < Word.limit ∧ Word.limit - 1 < Word.limit ∧
      (List.ofFn fun r => (layouts 5 3 r).localSize) = [1, 1, 1, 0, 0] ∧
      (List.ofFn fun r : Fin 5 => ((LocalVector.zeros (layouts 5 3 r)).assign
        #[(7 : ℕ), 8, 9]).entries.toList).flatten = [7, 8, 9] ∧
      rows? ⟨5, 4, by decide⟩ (Word.limit - 1) =
        some (3689348814741910323, 14757395258967641292, Word.limit - 1) := by
  have few : 3 < Word.limit := by decide
  have many : Word.limit - 1 < Word.limit := by decide
  obtain ⟨-, -, -, written⟩ := layouts_partition (α := ℕ) (by decide : 0 < 5) few
  obtain ⟨computed, -⟩ := layouts_partition (α := ℕ) (by decide : 0 < 5) many
  exact ⟨by decide, few, many, by decide, written _ _ rfl fun _ => rfl, computed 4⟩

end Comm

end Eigenmesh
