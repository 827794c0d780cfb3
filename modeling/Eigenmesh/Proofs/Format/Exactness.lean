import Eigenmesh.Proofs.Format.Readers
import Eigenmesh.Proofs.Sparse.Parts

/-!
Matrices and vectors in files.

What is read is what is written: the bytes in front of the input are those of the matrix that
reading gives, so no two byte strings are read as one matrix, and nothing but the written form of a
matrix is accepted. The only matrices without a written form are those whose sizes do not fit into
31 bits.
-/

namespace Eigenmesh.Binary

variable {s rest w : List UInt8}

/-! ### What is written -/

/-- The sizes of the matrix take 31 bits. -/
structure Fits (A : Csr UInt64) : Prop where
  rows : A.rows ≤ 2 ^ 31 - 1
  cols : A.cols ≤ 2 ^ 31 - 1
  nnz : A.nnz ≤ 2 ^ 31 - 1

/-- The parts of a matrix in their order in a file. -/
def matrixBytes (A : Csr UInt64) : List UInt8 :=
  BigEndian.encode 4 matrixClass ++ (BigEndian.encode 4 A.rows ++ (BigEndian.encode 4 A.cols ++
    (BigEndian.encode 4 A.nnz ++ (A.rowLengths.flatMap (BigEndian.encode 4) ++
      (A.storedColumns.flatMap (BigEndian.encode 4) ++ A.storedValues.flatMap encodeValue)))))

def vectorBytes (v : List UInt64) : List UInt8 :=
  BigEndian.encode 4 vectorClass ++ (BigEndian.encode 4 v.length ++ v.flatMap encodeValue)

lemma encodeLength_of_lt {n : ℕ} (h : n < 2 ^ 31) : encodeLength n = .ok (BigEndian.encode 4 n) :=
  if_pos h

lemma encodeLength_of_le {n : ℕ} (h : 2 ^ 31 ≤ n) : encodeLength n = .error (.tooLong n) :=
  if_neg (Nat.not_lt.2 h)

lemma mapM_encodeLength {β : Type} {f : β → ℕ} {l : List β} (h : ∀ x ∈ l, f x < 2 ^ 31) :
    l.mapM (fun x => encodeLength (f x)) = .ok (l.map fun x => BigEndian.encode 4 (f x)) := by
  induction l with
  | nil => rfl
  | cons x l ih =>
    rw [List.mapM_cons, encodeLength_of_lt (h x List.mem_cons_self),
      ih fun y hy => h y (List.mem_cons_of_mem _ hy)]
    rfl

lemma encodeMatrix_of_fits {A : Csr UInt64} (fits : Fits A) :
    encodeMatrix A = .ok (matrixBytes A) := by
  obtain ⟨rows, cols, nnz⟩ := fits
  have lengths : ∀ row ∈ A.stored.toList, row.length < 2 ^ 31 := by
    intro row hrow
    have := A.le_of_mem_rowLengths (List.mem_map_of_mem hrow)
    omega
  have columns : ∀ e ∈ A.stored.toList.flatten, e.1 < 2 ^ 31 := by
    intro e he
    have := A.lt_of_mem_storedColumns (List.mem_map_of_mem he)
    omega
  unfold encodeMatrix
  dsimp only
  rw [encodeLength_of_lt (by omega), encodeLength_of_lt (by omega), encodeLength_of_lt (by omega),
    mapM_encodeLength lengths, mapM_encodeLength columns]
  refine congrArg Except.ok ?_
  simp only [matrixBytes, Csr.rowLengths, Csr.storedColumns, Csr.storedValues, List.flatMap_def,
    List.map_map, Function.comp_def, List.append_assoc]

lemma encodeMatrix_eq_ok_iff {A : Csr UInt64} :
    encodeMatrix A = .ok w ↔ Fits A ∧ w = matrixBytes A := by
  by_cases fits : Fits A
  · rw [encodeMatrix_of_fits fits, Except.ok.injEq, eq_comm]
    exact (and_iff_right fits).symm
  · refine ⟨fun h => absurd ?_ fits, fun h => absurd h.1 fits⟩
    -- The first size that is too large is the one that is refused.
    unfold encodeMatrix at h
    by_cases rows : A.rows < 2 ^ 31
    · rw [encodeLength_of_lt rows] at h
      by_cases cols : A.cols < 2 ^ 31
      · rw [encodeLength_of_lt cols] at h
        by_cases nnz : A.nnz < 2 ^ 31
        · exact ⟨by omega, by omega, by omega⟩
        · rw [encodeLength_of_le (Nat.le_of_not_lt nnz)] at h
          cases h
      · rw [encodeLength_of_le (Nat.le_of_not_lt cols)] at h
        cases h
    · rw [encodeLength_of_le (Nat.le_of_not_lt rows)] at h
      cases h

lemma encodeVector_eq_ok_iff {v : List UInt64} :
    encodeVector v = .ok w ↔ v.length ≤ 2 ^ 31 - 1 ∧ w = vectorBytes v := by
  unfold encodeVector
  by_cases small : v.length < 2 ^ 31
  · rw [encodeLength_of_lt small]
    change Except.ok _ = Except.ok w ↔ _
    rw [Except.ok.injEq, vectorBytes, List.append_assoc, List.flatMap_def, eq_comm]
    exact (and_iff_right (by omega)).symm
  · rw [encodeLength_of_le (Nat.le_of_not_lt small)]
    exact ⟨fun h => (nomatch h), fun h => by omega⟩

/-! ### What is read -/

lemma assembled_eq_ok_iff {o : Option (Csr UInt64)} {A : Csr UInt64} :
    (match o with
      | some A => (return A : Reader (Csr UInt64))
      | none => throw Fault.inconsistent) s = .ok (A, rest) ↔ o = some A ∧ s = rest := by
  cases o with
  | none => exact ⟨fun h => (nomatch h), fun h => (nomatch h.1)⟩
  | some B => rw [return_eq_ok, Option.some.injEq, eq_comm]

lemma matrix_eq_ok_iff {A : Csr UInt64} :
    matrix s = .ok (A, rest) ↔ Fits A ∧ s = matrixBytes A ++ rest := by
  unfold matrix
  rw [(expectClass_decodes (by decide)).bind_eq_ok]
  simp only [(length_decodes _).bind_eq_ok, (times_decodes (length_decodes _) _).bind_eq_ok,
    (times_decodes value_decodes _).bind_eq_ok]
  constructor
  · rintro ⟨-, _, -, rfl, rows, _, hrows, rfl, cols, _, hcols, rfl, nnz, _, hnnz, rfl, lengths, _,
      ⟨hlengths, -⟩, rfl, columns, _, ⟨hcolumns, -⟩, rfl, values, _, -, rfl, assembled⟩
    obtain ⟨parts, rfl⟩ := assembled_eq_ok_iff.1 assembled
    obtain ⟨rfl, rfl, rfl, rfl⟩ := Csr.ofParts?_eq_some_iff.1 parts
    rw [Csr.length_rowLengths] at hlengths
    rw [Csr.length_storedColumns] at hcolumns
    subst hlengths hcolumns
    refine ⟨⟨by omega, by omega, by omega⟩, ?_⟩
    simp only [matrixBytes, List.append_assoc]
  · rintro ⟨⟨rows, cols, nnz⟩, rfl⟩
    have lengths : ∀ n ∈ A.rowLengths, n < 2 ^ 31 := fun n hn => by
      have := A.le_of_mem_rowLengths hn
      omega
    have columns : ∀ j ∈ A.storedColumns, j < 2 ^ 31 := fun j hj => by
      have := A.lt_of_mem_storedColumns hj
      omega
    refine ⟨(), _, trivial, by simp only [matrixBytes, List.append_assoc],
      A.rows, _, by omega, rfl, A.cols, _, by omega, rfl, A.nnz, _, by omega, rfl,
      A.rowLengths, _, ⟨A.length_rowLengths, lengths⟩, rfl,
      A.storedColumns, _, ⟨A.length_storedColumns, columns⟩, rfl,
      A.storedValues, rest, ⟨A.length_storedValues, fun _ _ => trivial⟩, rfl, ?_⟩
    exact assembled_eq_ok_iff.2 ⟨Csr.ofParts?_eq_some_iff.2 ⟨rfl, rfl, rfl, rfl⟩, rfl⟩

lemma vector_eq_ok_iff {v : List UInt64} :
    vector s = .ok (v, rest) ↔ v.length ≤ 2 ^ 31 - 1 ∧ s = vectorBytes v ++ rest := by
  unfold vector
  rw [(expectClass_decodes (by decide)).bind_eq_ok]
  simp only [(length_decodes _).bind_eq_ok, times_decodes value_decodes _ _]
  constructor
  · rintro ⟨-, _, -, rfl, n, _, hn, rfl, ⟨rfl, -⟩, rfl⟩
    exact ⟨by omega, by simp only [vectorBytes, List.append_assoc]⟩
  · rintro ⟨small, rfl⟩
    exact ⟨(), _, trivial, by simp only [vectorBytes, List.append_assoc], v.length, _, by omega,
      rfl, ⟨rfl, fun _ _ => trivial⟩, rfl⟩

/-- **Reading accepts exactly what writing produces.** Whatever the bytes are, the offsets that the
row lengths in them add up to are sizes, and the parts make a matrix exactly if these offsets and
the columns are valid. -/
theorem decoded_exactly :
    (∀ s A rest, matrix s = .ok (A, rest) ↔
      Fits A ∧ ∃ w, encodeMatrix A = .ok w ∧ s = w ++ rest) ∧
    (∀ A w, encodeMatrix A = .ok w ↔ Fits A ∧ w = matrixBytes A) ∧
    (∀ s v rest, vector s = .ok (v, rest) ↔
      v.length ≤ 2 ^ 31 - 1 ∧ ∃ w, encodeVector v = .ok w ∧ s = w ++ rest) ∧
    (∀ v w, encodeVector v = .ok w ↔ v.length ≤ 2 ^ 31 - 1 ∧ w = vectorBytes v) ∧
    (∀ s lengths rest n, n ≤ 2 ^ 31 - 1 → times (length .rowLength) n s = .ok (lengths, rest) →
      ∀ a ∈ Csr.offsetsOf lengths, a < Word.limit) ∧
    (∀ lengths cols columns values,
      (∃ A : Csr UInt64, Csr.ofParts? lengths cols columns values = some A) ↔
        Csr.Valid lengths.length cols (Csr.offsetsOf lengths) columns values) := by
  refine ⟨fun s A rest => ?_, fun A w => encodeMatrix_eq_ok_iff, fun s v rest => ?_,
    fun v w => encodeVector_eq_ok_iff, fun s lengths rest n few read a ha => ?_,
    fun _ _ _ _ => Csr.exists_ofParts?_iff_valid⟩
  · rw [matrix_eq_ok_iff]
    refine and_congr_right fun fits => ⟨fun h => ?_, ?_⟩
    · exact ⟨_, encodeMatrix_of_fits fits, h⟩
    · rintro ⟨w, written, h⟩
      rwa [(encodeMatrix_eq_ok_iff.1 written).2] at h
  · rw [vector_eq_ok_iff]
    refine and_congr_right fun fits => ⟨fun h => ?_, ?_⟩
    · exact ⟨_, encodeVector_eq_ok_iff.2 ⟨fits, rfl⟩, h⟩
    · rintro ⟨w, written, h⟩
      rwa [(encodeVector_eq_ok_iff.1 written).2] at h
  · obtain ⟨⟨rfl, short⟩, -⟩ := (times_decodes (length_decodes _) n _ _ _).1 read
    exact Csr.offset_lt_limit (by omega) short ha

/-- Two rows of three columns, the second one empty, with minus zero and a number that is none. -/
def twoRows : Csr UInt64 where
  cols := 3
  stored := #[[(0, 0x8000000000000000), (2, 0x7ff8000000000001)], []]
  ordered := by decide

/-- The matrix is written and read again from a longer input. -/
theorem decoded_exactly_twoRows : Fits twoRows ∧
    ∃ w, encodeMatrix twoRows = .ok w ∧ matrix (w ++ [7]) = .ok (twoRows, [7]) := by
  have fits : Fits twoRows := ⟨by decide, by decide, by decide⟩
  have written := (decoded_exactly.2.1 twoRows _).2 ⟨fits, rfl⟩
  exact ⟨fits, _, written, (decoded_exactly.1 _ twoRows [7]).2 ⟨fits, _, written, rfl⟩⟩

end Eigenmesh.Binary
