import Mathlib.Data.Nat.Notation
import Mathlib.Tactic.Common
import Eigenmesh.Proofs.Dense.Substitution
import Eigenmesh.Proofs.Scalar.Rational
import Eigenmesh.Proofs.Sparse.Conversions
import Eigenmesh.Proofs.Sparse.Restriction

/-!
Operations on lists of entries as operations on matrices.

A list of entries denotes the matrix of their sums. Adding an entry, clearing positions, exchanging
rows with columns and keeping some of them do the same to the matrix, however often a position
is listed, so after any number of operations the list denotes the matrix that the same operations
make of the matrix. As long as their arguments fit, only a lack of room can stop them.
-/

namespace Eigenmesh

variable {α : Type}

namespace Triplets

/-- An operation on a matrix. The first two start a new one. -/
inductive Operation (α : Type)
  | zeros (rows cols : ℕ)
  | new (rows cols : ℕ) (entries : Array (ℕ × ℕ × α))
  | push (i j : ℕ) (v : α)
  | extend (entries : List (ℕ × ℕ × α))
  | clear (p : ℕ → ℕ → Bool)
  | transpose
  | restrict (rows cols : Array ℕ)

namespace Operation

/-- The arguments are positions in a matrix of the given size, and no row or column is kept
twice. -/
def InRange (rows cols : ℕ) : Operation α → Prop
  | zeros _ _ => True
  | new rows cols entries => ∀ t ∈ entries, t.1 < rows ∧ t.2.1 < cols
  | push i j _ => i < rows ∧ j < cols
  | extend entries => ∀ t ∈ entries, t.1 < rows ∧ t.2.1 < cols
  | clear _ => True
  | transpose => True
  | restrict keptRows keptCols =>
    (∀ i ∈ keptRows, i < rows) ∧ (∀ j ∈ keptCols, j < cols) ∧
      keptRows.toList.Nodup ∧ keptCols.toList.Nodup

/-- To renumber rows and columns there have to be as many places. -/
def HasRoom (rows cols : ℕ) : Operation α → Prop
  | restrict _ _ => Word.isArray rows 16 ∧ Word.isArray cols 16
  | _ => True

instance (rows cols : ℕ) (op : Operation α) : Decidable (op.InRange rows cols) :=
  match op with
  | zeros _ _ | clear _ | transpose => inferInstanceAs (Decidable True)
  | new rows cols entries =>
    inferInstanceAs (Decidable (∀ t ∈ entries, t.1 < rows ∧ t.2.1 < cols))
  | push i j _ => inferInstanceAs (Decidable (i < rows ∧ j < cols))
  | extend entries => inferInstanceAs (Decidable (∀ t ∈ entries, t.1 < rows ∧ t.2.1 < cols))
  | restrict keptRows keptCols =>
    inferInstanceAs (Decidable ((∀ i ∈ keptRows, i < rows) ∧ (∀ j ∈ keptCols, j < cols) ∧
      keptRows.toList.Nodup ∧ keptCols.toList.Nodup))

instance (rows cols : ℕ) (op : Operation α) : Decidable (op.HasRoom rows cols) :=
  match op with
  | restrict _ _ => inferInstanceAs (Decidable (Word.isArray rows 16 ∧ Word.isArray cols 16))
  | zeros _ _ | new _ _ _ | push _ _ _ | extend _ | clear _ | transpose =>
    inferInstanceAs (Decidable True)

end Operation

/-- The list of entries after an operation, nothing if that is refused. -/
def after? [Zero α] [BEq α] (A : Triplets α) : Operation α → Option (Triplets α)
  | .zeros rows cols => some (.zeros rows cols)
  | .new rows cols entries => of? rows cols entries
  | .push i j v => A.push? i j v
  | .extend entries => if (A.extend entries).2 then some (A.extend entries).1 else none
  | .clear p => some (A.clear p)
  | .transpose => some A.transpose
  | .restrict rows cols => A.restrict? rows cols

end Triplets

namespace Dense

variable [Zero α] [Add α]

/-- The sums of the values that are given for the positions. -/
def ofTriplets (rows cols : ℕ) (ts : List (ℕ × ℕ × α)) : Dense α :=
  .ofFn rows cols fun i j => (ts.map fun t => if t.1 = i ∧ t.2.1 = j then t.2.2 else 0).sum

/-- The matrix after an operation. -/
def after (M : Dense α) : Triplets.Operation α → Dense α
  | .zeros rows cols => .zeros rows cols
  | .new rows cols entries => .ofTriplets rows cols entries.toList
  | .push i j v =>
    .ofFn M.rows M.cols fun r c => if r = i ∧ c = j then M.entry r c + v else M.entry r c
  | .extend entries => M.add (.ofTriplets M.rows M.cols entries)
  | .clear p => .ofFn M.rows M.cols fun r c => if p r c then 0 else M.entry r c
  | .transpose => M.transpose
  | .restrict rows cols =>
    .ofFn rows.size cols.size fun a b => M.entry (rows.getD a 0) (cols.getD b 0)

/-- The matrix after operations in turn, starting from the empty matrix. -/
def make (ops : List (Triplets.Operation α)) : Dense α := ops.foldl after (zeros 0 0)

/-- Each operation has the property at the size that the matrix has by then. -/
def Throughout (P : ℕ → ℕ → Triplets.Operation α → Prop) :
    Dense α → List (Triplets.Operation α) → Prop
  | _, [] => True
  | M, op :: ops => P M.rows M.cols op ∧ Throughout P (M.after op) ops

instance Throughout.decidable (P : ℕ → ℕ → Triplets.Operation α → Prop)
    [∀ rows cols op, Decidable (P rows cols op)] :
    (M : Dense α) → (ops : List (Triplets.Operation α)) → Decidable (Throughout P M ops)
  | _, [] => inferInstanceAs (Decidable True)
  | M, op :: ops =>
    have := decidable P (M.after op) ops
    inferInstanceAs (Decidable (P M.rows M.cols op ∧ Throughout P (M.after op) ops))

end Dense

/-! ### Entries -/

namespace Dense

@[simp] lemma rows_set (M : Dense α) (i j : ℕ) (v : α) : (M.set i j v).rows = M.rows := by
  unfold set
  split <;> rfl

@[simp] lemma cols_set (M : Dense α) (i j : ℕ) (v : α) : (M.set i j v).cols = M.cols := by
  unfold set
  split <;> rfl

lemma entry_eq_getD [Zero α] {M : Dense α} {i j : ℕ} (hj : j < M.cols) :
    M.entry i j = M.entries.getD (i * M.cols + j) 0 := if_pos hj

lemma place_eq_iff {cols i j r c : ℕ} (hj : j < cols) (hc : c < cols) :
    r * cols + c = i * cols + j ↔ r = i ∧ c = j := by
  have positive : 0 < cols := Nat.zero_lt_of_lt hj
  refine ⟨fun h => ?_, fun ⟨hr, hc⟩ => hr ▸ hc ▸ rfl⟩
  have row := congrArg (· / cols) h
  have col := congrArg (· % cols) h
  simp only [Nat.mul_comm _ cols, Nat.mul_add_div positive, Nat.mul_add_mod,
    Nat.div_eq_of_lt hj, Nat.div_eq_of_lt hc, Nat.mod_eq_of_lt hj, Nat.mod_eq_of_lt hc,
    Nat.add_zero] at row col
  exact ⟨row, col⟩

lemma entry_set [Zero α] {M : Dense α} {i j r c : ℕ} (hi : i < M.rows) (hj : j < M.cols)
    (hc : c < M.cols) (v : α) :
    (M.set i j v).entry r c = if r = i ∧ c = j then v else M.entry r c := by
  have place : i * M.cols + j < M.entries.size := by
    rw [M.size_eq]
    exact place_lt hi hj
  have written : (M.set i j v).entries = M.entries.setIfInBounds (i * M.cols + j) v := by
    unfold set
    rw [if_pos hj]
  rw [entry_eq_getD ((M.cols_set i j v).symm ▸ hc), entry_eq_getD hc, written, cols_set,
    getD_setIfInBounds place]
  exact if_congr (place_eq_iff hj hc) rfl rfl

variable [Scalar.Exact α]

lemma foldl_set (ts : List (ℕ × ℕ × α)) {M : Dense α}
    (inside : ∀ t ∈ ts, t.1 < M.rows ∧ t.2.1 < M.cols) :
    let N := ts.foldl (fun D t => D.set t.1 t.2.1 (D.entry t.1 t.2.1 + t.2.2)) M
    N.rows = M.rows ∧ N.cols = M.cols ∧ ∀ r, ∀ c < M.cols, N.entry r c =
      M.entry r c + (ts.map fun t => if t.1 = r ∧ t.2.1 = c then t.2.2 else 0).sum := by
  induction ts generalizing M with
  | nil => exact ⟨rfl, rfl, fun r c _ => (add_zero _).symm⟩
  | cons t ts ih =>
    obtain ⟨hi, hj⟩ := inside t List.mem_cons_self
    have rest := @ih (M.set t.1 t.2.1 (M.entry t.1 t.2.1 + t.2.2)) fun u hu => by
      rw [rows_set, cols_set]
      exact inside u (List.mem_cons_of_mem _ hu)
    rw [rows_set, cols_set] at rest
    refine ⟨rest.1, rest.2.1, fun r c hc => ?_⟩
    rw [List.foldl_cons, rest.2.2 r c hc, entry_set hi hj hc, List.map_cons, List.sum_cons,
      ← add_assoc]
    by_cases here : r = t.1 ∧ c = t.2.1
    · obtain ⟨rfl, rfl⟩ := here
      simp
    · rw [if_neg here, if_neg fun h => here ⟨h.1.symm, h.2.symm⟩, add_zero]

end Dense

namespace Triplets

variable [Scalar.Exact α] {A A' : Triplets α} {M : Dense α} {op : Operation α}

/-- **Both conversions sum the values of a position.** -/
lemma toDense_eq (A : Triplets α) : A.toDense = .ofFn A.rows A.cols A.entry := by
  have inside : ∀ t ∈ A.entries.toList,
      t.1 < (Dense.zeros A.rows A.cols : Dense α).rows ∧
        t.2.1 < (Dense.zeros A.rows A.cols : Dense α).cols :=
    fun t ht => A.inside t (Array.mem_toList_iff.1 ht)
  obtain ⟨rows, cols, entries⟩ := Dense.foldl_set A.entries.toList inside
  unfold toDense
  rw [← Array.foldl_toList]
  refine Dense.eq_of_entry rows cols fun i hi j hj => ?_
  replace hi : i < A.rows := hi.trans_eq rows
  replace hj : j < A.cols := hj.trans_eq cols
  refine (entries i j hj).trans ?_
  rw [Dense.zeros, Dense.entry_ofFn _ hi hj, Dense.entry_ofFn _ hi hj, zero_add, entry_eq_sum]

lemma toDense_toCsr (A : Triplets α) : A.toCsr.toDense = A.toDense := by
  rw [toDense_eq, Csr.toDense_eq, rows_toCsr]
  exact Dense.ofFn_congr fun i _ j _ => A.entry_toCsr i j

/-! ### One operation -/

/-- The list of entries and the matrix have the same size and the same entries. -/
structure Denotes (A : Triplets α) (M : Dense α) : Prop where
  rows : A.rows = M.rows
  cols : A.cols = M.cols
  entry : ∀ i < M.rows, ∀ j < M.cols, A.entry i j = M.entry i j

lemma Denotes.toDense (d : A.Denotes M) : A.toDense = M := by
  rw [toDense_eq, d.rows, d.cols, Dense.ofFn_congr d.entry, M.ofFn_entry]

lemma denotes_ofFn {rows cols : ℕ} {f : ℕ → ℕ → α} (hr : A.rows = rows) (hc : A.cols = cols)
    (entry : ∀ i < rows, ∀ j < cols, A.entry i j = f i j) : A.Denotes (.ofFn rows cols f) where
  rows := hr
  cols := hc
  entry i hi j hj := (entry i hi j hj).trans (Dense.entry_ofFn f hi hj).symm

lemma denotes_zeros (rows cols : ℕ) : (zeros rows cols : Triplets α).Denotes (.zeros rows cols) :=
  denotes_ofFn rfl rfl fun _ _ _ _ => rfl

/-- An entry that is zero is left out, which changes no sum. -/
lemma exists_push? {i j : ℕ} (hi : i < A.rows) (hj : j < A.cols) (v : α) :
    ∃ A', A.push? i j v = some A' ∧ A'.rows = A.rows ∧ A'.cols = A.cols ∧
      ∀ r c, A'.entry r c = A.entry r c + if i = r ∧ j = c then v else 0 := by
  unfold push?
  rw [dif_pos ⟨hi, hj⟩]
  split
  · rename_i zero
    rw [Scalar.beq_zero_iff.1 zero]
    exact ⟨A, rfl, rfl, rfl, fun r c => by rw [ite_self, add_zero]⟩
  · refine ⟨_, rfl, rfl, rfl, fun r c => ?_⟩
    simp only [entry_eq_sum, Array.toList_push, List.map_append, List.sum_append, List.map_cons,
      List.map_nil, List.sum_cons, List.sum_nil, add_zero]

lemma exists_extend {ts : List (ℕ × ℕ × α)} (inside : ∀ t ∈ ts, t.1 < A.rows ∧ t.2.1 < A.cols) :
    ∃ A', A.extend ts = (A', true) ∧ A'.rows = A.rows ∧ A'.cols = A.cols ∧
      ∀ r c, A'.entry r c =
        A.entry r c + (ts.map fun t => if t.1 = r ∧ t.2.1 = c then t.2.2 else 0).sum := by
  induction ts generalizing A with
  | nil => exact ⟨A, rfl, rfl, rfl, fun r c => (add_zero _).symm⟩
  | cons t ts ih =>
    obtain ⟨hi, hj⟩ := inside t List.mem_cons_self
    obtain ⟨B, pushed, rows, cols, entry⟩ := exists_push? hi hj t.2.2
    obtain ⟨A', taken, rows', cols', entry'⟩ := @ih B fun u hu => by
      rw [rows, cols]
      exact inside u (List.mem_cons_of_mem _ hu)
    refine ⟨A', ?_, rows'.trans rows, cols'.trans cols, fun r c => ?_⟩
    · rw [extend, pushed]
      exact taken
    · rw [entry', entry, List.map_cons, List.sum_cons, add_assoc]

lemma entry_clear (p : ℕ → ℕ → Bool) (i j : ℕ) :
    (A.clear p).entry i j = if p i j then 0 else A.entry i j := by
  rw [entry_eq_sum, entry_eq_sum, clear, Array.toList_filter]
  induction A.entries.toList with
  | nil => rw [List.filter_nil, List.map_nil, List.sum_nil, ite_self]
  | cons t ts ih =>
    by_cases here : t.1 = i ∧ t.2.1 = j
    · obtain ⟨rfl, rfl⟩ := here
      by_cases cleared : p t.1 t.2.1 = true
      · simpa [cleared] using ih
      · simpa [cleared] using ih
    · by_cases cleared : p t.1 t.2.1 = true
      · simpa [cleared, here] using ih
      · simpa [cleared, here] using ih

lemma entry_transpose (i j : ℕ) : A.transpose.entry i j = A.entry j i := by
  rw [entry_eq_sum, entry_eq_sum, transpose, Array.toList_map, List.map_map]
  refine congrArg List.sum (List.map_congr_left fun t _ => ?_)
  exact if_congr and_comm rfl rfl

lemma Renumbering.exists_of?_iff {n : ℕ} {kept : Array ℕ} (inside : ∀ i ∈ kept, i < n) :
    (∃ m, Renumbering.of? n kept = some m) ↔ Word.isArray n 16 := by
  refine ⟨fun ⟨m, hm⟩ => ?_, fun room => Renumbering.exists_of? room inside⟩
  unfold Renumbering.of? at hm
  split at hm
  · rename_i h
    exact (Bool.and_eq_true _ _ ▸ h).1
  · cases hm

/-- **An operation whose arguments fit is done if there is room.** -/
lemma exists_after?_iff (d : A.Denotes M) (inRange : op.InRange M.rows M.cols) :
    (∃ A', A.after? op = some A') ↔ op.HasRoom M.rows M.cols := by
  cases op with
  | zeros rows cols => exact ⟨fun _ => trivial, fun _ => ⟨_, rfl⟩⟩
  | new rows cols entries => exact ⟨fun _ => trivial, fun _ => ⟨_, dif_pos inRange⟩⟩
  | push i j v =>
    obtain ⟨A', pushed, -⟩ := exists_push? (d.rows ▸ inRange.1) (d.cols ▸ inRange.2) v
    exact ⟨fun _ => trivial, fun _ => ⟨A', pushed⟩⟩
  | extend ts =>
    obtain ⟨A', taken, -⟩ := @exists_extend _ _ A ts (by rwa [d.rows, d.cols])
    refine ⟨fun _ => trivial, fun _ => ⟨A', ?_⟩⟩
    simp only [after?, taken, if_true]
  | clear p => exact ⟨fun _ => trivial, fun _ => ⟨_, rfl⟩⟩
  | transpose => exact ⟨fun _ => trivial, fun _ => ⟨_, rfl⟩⟩
  | restrict rows cols =>
    obtain ⟨hrows, hcols, -⟩ := inRange
    rw [← d.rows] at hrows
    rw [← d.cols] at hcols
    change (∃ R, A.restrict? rows cols = some R) ↔ _ ∧ _
    rw [← d.rows, ← d.cols]
    refine ⟨fun ⟨R, hR⟩ => ?_, fun room => exists_restrict? room.1 room.2 hrows hcols⟩
    obtain ⟨rowMap, colMap, hrow, hcol, -⟩ := restrict?_eq_some hR
    exact ⟨(Renumbering.exists_of?_iff hrows).1 ⟨_, hrow⟩,
      (Renumbering.exists_of?_iff hcols).1 ⟨_, hcol⟩⟩

/-- **An operation does to the matrix what it does to the list of entries.** -/
lemma Denotes.after (d : A.Denotes M) (inRange : op.InRange M.rows M.cols)
    (done : A.after? op = some A') : A'.Denotes (M.after op) := by
  cases op with
  | zeros rows cols =>
    obtain rfl := Option.some.inj done
    exact denotes_zeros rows cols
  | new rows cols entries =>
    obtain rfl := Option.some.inj ((dif_pos inRange).symm.trans done)
    exact denotes_ofFn rfl rfl fun i _ j _ => entry_eq_sum _ i j
  | push i j v =>
    obtain ⟨B, pushed, rows, cols, entry⟩ :=
      exists_push? (d.rows ▸ inRange.1) (d.cols ▸ inRange.2) v
    obtain rfl := Option.some.inj (pushed.symm.trans done)
    rw [Dense.after]
    refine denotes_ofFn (rows.trans d.rows) (cols.trans d.cols) fun r hr c hc => ?_
    rw [entry, d.entry r hr c hc]
    by_cases here : r = i ∧ c = j
    · rw [if_pos here, if_pos ⟨here.1.symm, here.2.symm⟩]
    · rw [if_neg here, if_neg fun h => here ⟨h.1.symm, h.2.symm⟩, add_zero]
  | extend ts =>
    obtain ⟨B, taken, rows, cols, entry⟩ :=
      @exists_extend _ _ A ts (by rwa [d.rows, d.cols])
    simp only [after?, taken, if_true] at done
    obtain rfl := Option.some.inj done
    rw [Dense.after, Dense.add]
    refine denotes_ofFn (rows.trans d.rows) (cols.trans d.cols) fun r hr c hc => ?_
    rw [entry, d.entry r hr c hc, Dense.ofTriplets, Dense.entry_ofFn _ hr hc]
  | clear p =>
    obtain rfl := Option.some.inj done
    rw [Dense.after]
    refine denotes_ofFn d.rows d.cols fun r hr c hc => ?_
    rw [entry_clear, d.entry r hr c hc]
  | transpose =>
    obtain rfl := Option.some.inj done
    exact denotes_ofFn d.cols d.rows fun r hr c hc =>
      (entry_transpose r c).trans (d.entry c hc r hr)
  | restrict rows cols =>
    obtain ⟨hrows, hcols, nodupRows, nodupCols⟩ := inRange
    obtain ⟨-, -, -, -, sizeRows, sizeCols, -⟩ := restrict?_eq_some done
    rw [Dense.after]
    refine denotes_ofFn sizeRows sizeCols fun a ha b hb => ?_
    have row : rows[a]? = some (rows.getD a 0) := by simp [ha]
    have col : cols[b]? = some (cols.getD b 0) := by simp [hb]
    rw [entry_restrict? done nodupRows nodupCols row col]
    exact d.entry _ (hrows _ (Array.mem_of_getElem? row)) _ (hcols _ (Array.mem_of_getElem? col))

/-! ### Any number of operations -/

lemma Denotes.run (d : A.Denotes M) {ops : List (Operation α)}
    (inRange : M.Throughout Operation.InRange ops) :
    ((∃ B, ops.foldlM after? A = some B) ↔ M.Throughout Operation.HasRoom ops) ∧
      ∀ B, ops.foldlM after? A = some B → B.Denotes (ops.foldl Dense.after M) := by
  induction ops generalizing A M with
  | nil =>
    refine ⟨⟨fun _ => trivial, fun _ => ⟨A, rfl⟩⟩, fun B hB => ?_⟩
    obtain rfl := Option.some.inj hB
    exact d
  | cons op ops ih =>
    obtain ⟨first, rest⟩ := inRange
    simp only [List.foldlM_cons, List.foldl_cons, bind, Option.bind_eq_some_iff]
    refine ⟨⟨?_, ?_⟩, ?_⟩
    · rintro ⟨B, A', hA, hB⟩
      exact ⟨(exists_after?_iff d first).1 ⟨A', hA⟩, (ih (d.after first hA) rest).1.1 ⟨B, hB⟩⟩
    · rintro ⟨room, later⟩
      obtain ⟨A', hA⟩ := (exists_after?_iff d first).2 room
      obtain ⟨B, hB⟩ := (ih (d.after first hA) rest).1.2 later
      exact ⟨B, A', hA, hB⟩
    · rintro B ⟨A', hA, hB⟩
      exact (ih (d.after first hA) rest).2 B hB

end Triplets

end Eigenmesh
