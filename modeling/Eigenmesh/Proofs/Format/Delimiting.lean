import Eigenmesh.Proofs.Format.Exactness

/-!
Objects that tell where they end.

No reader looks beyond what it takes, and none notices the end of the input unless it needs more of
it. So more input changes nothing for a reader that has come to an answer, be it an object or a
fault of the bytes; only a reader that has run out of bytes may come to another one. An object is
therefore not mistaken for a shorter one, and objects may be written one after another.
-/

namespace Eigenmesh.Binary

variable {β γ : Type} {s t rest w : List UInt8} {e : Fault}

/-- What bytes that are no object are rejected with. -/
inductive Invalid : Fault → Prop
  | negative {what : Quantity} {v : ℤ} (h : v < 0) : Invalid (.negative what v)
  | wrongClass {found expected : ℤ} (h : found ≠ expected) : Invalid (.wrongClass found expected)
  | inconsistent : Invalid .inconsistent

lemma not_invalid_truncated : ¬Invalid .truncated := nofun

/-- More input is left unread, or does not help. -/
structure Incremental (r : Reader β) : Prop where
  ok_append : ∀ {s x rest}, r s = .ok (x, rest) → ∀ t, r (s ++ t) = .ok (x, rest ++ t)
  error_append : ∀ {s e}, r s = .error e → e ≠ .truncated → ∀ t, r (s ++ t) = .error e
  invalid : ∀ {s e}, r s = .error e → e ≠ .truncated → Invalid e

/-! ### Readers made of readers -/

lemma bind_of_ok {r : Reader β} {f : β → Reader γ} {x : β} (h : r s = .ok (x, rest)) :
    (r >>= f) s = f x rest := by
  change (r s >>= fun p => f p.1 p.2) = _
  rw [h]
  rfl

lemma bind_of_error {r : Reader β} {f : β → Reader γ} (h : r s = .error e) :
    (r >>= f) s = .error e := by
  change (r s >>= fun p => f p.1 p.2) = _
  rw [h]
  rfl

lemma bind_eq_error {r : Reader β} {f : β → Reader γ} (h : (r >>= f) s = .error e) :
    r s = .error e ∨ ∃ x t, r s = .ok (x, t) ∧ f x t = .error e := by
  cases hr : r s with
  | error e' =>
    rw [bind_of_error hr] at h
    exact .inl (congrArg _ (Except.error.inj h))
  | ok p =>
    rw [bind_of_ok hr] at h
    exact .inr ⟨p.1, p.2, rfl, h⟩

namespace Incremental

lemma pure (x : β) : Incremental (Pure.pure x : Reader β) where
  ok_append h t := by
    obtain ⟨rfl, rfl⟩ := return_eq_ok.1 h
    rfl
  error_append h := nomatch h
  invalid h := nomatch h

lemma throw (invalid : Invalid e) : Incremental (MonadExcept.throw e : Reader β) where
  ok_append h := nomatch h
  error_append h _ _ := h
  invalid h _ := Except.error.inj h ▸ invalid

lemma bind {r : Reader β} {f : β → Reader γ} (first : Incremental r)
    (next : ∀ x, Incremental (f x)) : Incremental (r >>= f) where
  ok_append h t := by
    obtain ⟨x, u, hr, hf⟩ := bind_eq_ok.1 h
    rw [bind_of_ok (first.ok_append hr t)]
    exact (next x).ok_append hf t
  error_append h more t := by
    rcases bind_eq_error h with hr | ⟨x, u, hr, hf⟩
    · exact bind_of_error (first.error_append hr more t)
    · rw [bind_of_ok (first.ok_append hr t)]
      exact (next x).error_append hf more t
  invalid h more := by
    rcases bind_eq_error h with hr | ⟨x, u, -, hf⟩
    · exact first.invalid hr more
    · exact (next x).invalid hf more

end Incremental

/-! ### The readers of the format -/

lemma incremental_bytes (n : ℕ) : Incremental (bytes n) where
  ok_append h t := by
    obtain ⟨length, rfl⟩ := (bytes_decodes n _ _ _).1 h
    exact (bytes_decodes n _ _ _).2 ⟨length, List.append_assoc _ _ _⟩
  error_append h more := by
    unfold bytes at h
    simp only at h
    split at h
    · cases h
    · exact absurd (Except.error.inj h).symm more
  invalid h more := by
    unfold bytes at h
    simp only at h
    split at h
    · cases h
    · exact absurd (Except.error.inj h).symm more

lemma incremental_integer : Incremental integer :=
  (incremental_bytes 4).bind fun _ => .pure _

lemma incremental_value : Incremental value :=
  (incremental_bytes 8).bind fun _ => .pure _

lemma incremental_length (what : Quantity) : Incremental (length what) := by
  refine incremental_integer.bind fun v => ?_
  split
  case isTrue negative => exact .throw (.negative negative)
  case isFalse => exact .pure _

lemma incremental_expectClass (expected : ℕ) : Incremental (expectClass expected) := by
  refine incremental_integer.bind fun found => ?_
  split
  case isTrue => exact .pure _
  case isFalse other => exact .throw (.wrongClass other)

lemma incremental_times {r : Reader β} (h : Incremental r) (n : ℕ) :
    Incremental (times r n) := by
  induction n with
  | zero => exact .pure _
  | succ n ih => exact h.bind fun _ => ih.bind fun _ => .pure _

lemma incremental_matrix : Incremental matrix := by
  refine (incremental_expectClass _).bind fun _ => (incremental_length _).bind fun rows =>
    (incremental_length _).bind fun cols => (incremental_length _).bind fun nnz =>
    (incremental_times (incremental_length _) rows).bind fun lengths =>
    (incremental_times (incremental_length _) nnz).bind fun columns =>
    (incremental_times incremental_value nnz).bind fun values => ?_
  cases Csr.ofParts? lengths cols columns values with
  | some A => exact .pure A
  | none => exact .throw .inconsistent

lemma incremental_vector : Incremental vector :=
  (incremental_expectClass _).bind fun _ =>
    (incremental_length _).bind fun n => incremental_times incremental_value n

/-! ### Where an object ends -/

/-- The reader knows the end of what it reads: it answers with an object, with what is wrong, or
that bytes are missing, and only the last answer may change when there are more. All of what is
written of an object is needed to read it. -/
structure SelfDelimiting (r : Reader β) (written : β → Except Fault (List UInt8)) : Prop where
  outcome : ∀ s, (∃ x rest, r s = .ok (x, rest)) ∨ r s = .error .truncated ∨
    ∃ e, Invalid e ∧ r s = .error e
  ok_append : ∀ s x rest, r s = .ok (x, rest) → ∀ t, r (s ++ t) = .ok (x, rest ++ t)
  invalid_append : ∀ s e, Invalid e → r s = .error e → ∀ t, r (s ++ t) = .error e
  truncated_of_prefix : ∀ s t, s <+: t → r t = .error .truncated → r s = .error .truncated
  truncated_of_proper : ∀ x s w, written x = .ok w → s <+: w → s ≠ w → r s = .error .truncated

lemma Incremental.selfDelimiting {r : Reader β} {written : β → Except Fault (List UInt8)}
    (h : Incremental r) (reads : ∀ x w, written x = .ok w → r w = .ok (x, [])) :
    SelfDelimiting r written := by
  have outcome (s : List UInt8) : (∃ x rest, r s = .ok (x, rest)) ∨ r s = .error .truncated ∨
      ∃ e, Invalid e ∧ r s = .error e := by
    cases hr : r s with
    | ok p => exact .inl ⟨p.1, p.2, rfl⟩
    | error e =>
      by_cases short : e = .truncated
      · exact .inr (.inl (congrArg _ short))
      · exact .inr (.inr ⟨e, h.invalid hr short, rfl⟩)
  have rejected {s : List UInt8} {e : Fault} (invalid : Invalid e) (hr : r s = .error e)
      (t : List UInt8) : r (s ++ t) = .error e :=
    h.error_append hr (fun short => not_invalid_truncated (short ▸ invalid)) t
  refine ⟨outcome, fun s x rest hr => h.ok_append hr, fun s e => rejected, ?_, ?_⟩
  · rintro s _ ⟨t, rfl⟩ short
    -- any other answer to the prefix would be the answer to all of it
    rcases outcome s with ⟨x, rest, hr⟩ | hr | ⟨e, invalid, hr⟩
    · rw [h.ok_append hr t] at short
      cases short
    · exact hr
    · rw [rejected invalid hr t] at short
      exact absurd (Except.error.inj short ▸ invalid) not_invalid_truncated
  · rintro x s _ hw ⟨t, rfl⟩ proper
    have whole := reads x _ hw
    rcases outcome s with ⟨y, rest, hr⟩ | hr | ⟨e, invalid, hr⟩
    · rw [h.ok_append hr t] at whole
      obtain ⟨-, nothing⟩ := Prod.mk.inj (Except.ok.inj whole)
      rw [(List.append_eq_nil_iff.1 nothing).2, List.append_nil] at proper
      exact absurd rfl proper
    · exact hr
    · rw [rejected invalid hr t] at whole
      cases whole

lemma matrix_of_encodeMatrix {A : Csr UInt64} (h : encodeMatrix A = .ok w) (rest : List UInt8) :
    matrix (w ++ rest) = .ok (A, rest) := by
  obtain ⟨fits, rfl⟩ := encodeMatrix_eq_ok_iff.1 h
  exact matrix_eq_ok_iff.2 ⟨fits, rfl⟩

lemma vector_of_encodeVector {v : List UInt64} (h : encodeVector v = .ok w) (rest : List UInt8) :
    vector (w ++ rest) = .ok (v, rest) := by
  obtain ⟨fits, rfl⟩ := encodeVector_eq_ok_iff.1 h
  exact vector_eq_ok_iff.2 ⟨fits, rfl⟩

lemma expectClass_of_ne {found expected : ℕ} (small : found < 2 ^ 31) (other : found ≠ expected) :
    expectClass expected (BigEndian.encode 4 found ++ rest) =
      .error (.wrongClass found expected) := by
  have front : bytes 4 (BigEndian.encode 4 found ++ rest) = .ok (BigEndian.encode 4 found, rest) :=
    (bytes_decodes 4 _ _ _).2 ⟨BigEndian.length_encode 4 found, rfl⟩
  have read : integer (BigEndian.encode 4 found ++ rest) = .ok ((found : ℤ), rest) := by
    unfold integer
    rw [bind_of_ok front, BigEndian.decode_encode (by omega), BigEndian.signed_of_lt small]
    rfl
  have different : (found : ℤ) ≠ expected := fun same => other (Int.ofNat.inj same)
  unfold expectClass
  rw [bind_of_ok read, if_neg different]
  rfl

lemma vector_of_matrixBytes (A : Csr UInt64) (rest : List UInt8) :
    vector (matrixBytes A ++ rest) = .error (.wrongClass matrixClass vectorClass) := by
  rw [matrixBytes, List.append_assoc]
  exact bind_of_error (expectClass_of_ne (by decide) (by decide))

lemma matrix_of_vectorBytes (v : List UInt64) (rest : List UInt8) :
    matrix (vectorBytes v ++ rest) = .error (.wrongClass vectorClass matrixClass) := by
  rw [vectorBytes, List.append_assoc]
  exact bind_of_error (expectClass_of_ne (by decide) (by decide))

/-! ### One object after another -/

/-- An object in a file. -/
inductive Item
  | matrix (A : Csr UInt64)
  | vector (v : List UInt64)

namespace Item

/-- Its sizes take 31 bits. -/
def Fits : Item → Prop
  | matrix A => Binary.Fits A
  | vector v => v.length ≤ 2 ^ 31 - 1

def encode : Item → Except Fault (List UInt8)
  | matrix A => encodeMatrix A
  | vector v => encodeVector v

/-- The reader of objects of this kind. -/
def reader : Item → Reader Item
  | matrix _ => do return matrix (← Binary.matrix)
  | vector _ => do return vector (← Binary.vector)

/-- The objects one after another. -/
def encodeAll : List Item → Except Fault (List UInt8)
  | [] => .ok []
  | x :: xs => do return (← x.encode) ++ (← encodeAll xs)

/-- Each reader in turn. -/
def readAll : List (Reader Item) → Reader (List Item)
  | [] => return []
  | r :: rs => do
    let x ← r
    let xs ← readAll rs
    return x :: xs

lemma exists_encode {x : Item} (h : x.Fits) :
    ∃ w, x.encode = .ok w ∧ ∀ rest, x.reader (w ++ rest) = .ok (x, rest) := by
  cases x with
  | matrix A =>
    have written := encodeMatrix_of_fits h
    exact ⟨_, written, fun rest => bind_of_ok (matrix_of_encodeMatrix written rest)⟩
  | vector v =>
    have written := encodeVector_eq_ok_iff.2 ⟨h, rfl⟩
    exact ⟨_, written, fun rest => bind_of_ok (vector_of_encodeVector written rest)⟩

lemma exists_encodeAll {xs : List Item} (h : ∀ x ∈ xs, x.Fits) :
    ∃ w, encodeAll xs = .ok w ∧
      ∀ rest, readAll (xs.map reader) (w ++ rest) = .ok (xs, rest) := by
  induction xs with
  | nil => exact ⟨[], rfl, fun rest => rfl⟩
  | cons x xs ih =>
    obtain ⟨hx, hxs⟩ := List.forall_mem_cons.1 h
    obtain ⟨u, written, first⟩ := exists_encode hx
    obtain ⟨w, all, others⟩ := ih hxs
    refine ⟨u ++ w, by rw [encodeAll, written, all]; rfl, fun rest => ?_⟩
    rw [List.map_cons, readAll, List.append_assoc, bind_of_ok (first _), bind_of_ok (others _)]
    rfl

end Item

/-- **Decoding is incremental, and objects end where they end.** What both readers have come to is
not changed by more input, unless bytes were missing, and of a written object none may be. So
objects that are written one after another are read again one after another, and an object of the
other kind is told by the number in front. -/
theorem self_delimiting :
    SelfDelimiting matrix encodeMatrix ∧ SelfDelimiting vector encodeVector ∧
    (∀ xs : List Item, (∀ x ∈ xs, x.Fits) → ∃ w, Item.encodeAll xs = .ok w ∧
      Item.readAll (xs.map Item.reader) w = .ok (xs, [])) ∧
    (∀ A w rest, encodeMatrix A = .ok w →
      vector (w ++ rest) = .error (.wrongClass matrixClass vectorClass)) ∧
    ∀ v w rest, encodeVector v = .ok w →
      matrix (w ++ rest) = .error (.wrongClass vectorClass matrixClass) := by
  refine ⟨incremental_matrix.selfDelimiting fun A w h => ?_,
    incremental_vector.selfDelimiting fun v w h => ?_, fun xs fits => ?_, fun A w rest h => ?_,
    fun v w rest h => ?_⟩
  · rw [← List.append_nil w]
    exact matrix_of_encodeMatrix h []
  · rw [← List.append_nil w]
    exact vector_of_encodeVector h []
  · obtain ⟨w, written, read⟩ := Item.exists_encodeAll fits
    refine ⟨w, written, ?_⟩
    rw [← List.append_nil w]
    exact read []
  · rw [(encodeMatrix_eq_ok_iff.1 h).2]
    exact vector_of_matrixBytes A rest
  · rw [(encodeVector_eq_ok_iff.1 h).2]
    exact matrix_of_vectorBytes v rest

/-- A matrix and a vector one after the other. The matrix alone cannot do without its last byte. -/
theorem self_delimiting_two :
    (∀ x ∈ [Item.matrix twoRows, .vector [0]], x.Fits) ∧
    (∃ w, Item.encodeAll [.matrix twoRows, .vector [0]] = .ok w ∧
      Item.readAll [Item.reader (.matrix twoRows), Item.reader (.vector [0])] w =
        .ok ([.matrix twoRows, .vector [0]], [])) ∧
    ∃ w, encodeMatrix twoRows = .ok w ∧ matrix w.dropLast = .error .truncated ∧
      matrix (w ++ [7]) = .ok (twoRows, [7]) ∧
      vector (w ++ [7]) = .error (.wrongClass matrixClass vectorClass) := by
  obtain ⟨matrices, -, items, other, -⟩ := self_delimiting
  have fits : Fits twoRows := ⟨by decide, by decide, by decide⟩
  have vectorFits : (Item.vector [0]).Fits := show 1 ≤ 2 ^ 31 - 1 by decide
  have all : ∀ x ∈ [Item.matrix twoRows, .vector [0]], x.Fits :=
    List.forall_mem_cons.2 ⟨fits, List.forall_mem_singleton.2 vectorFits⟩
  have written := encodeMatrix_of_fits fits
  have read : matrix (matrixBytes twoRows) = .ok (twoRows, []) := by
    rw [← List.append_nil (matrixBytes twoRows)]
    exact matrix_of_encodeMatrix written []
  refine ⟨all, items _ all, _, written, ?_, matrices.ok_append _ _ _ read [7],
    other _ _ [7] written⟩
  refine matrices.truncated_of_proper _ _ _ written (List.dropLast_prefix _) fun same => ?_
  have shorter := congrArg List.length same
  rw [List.length_dropLast] at shorter
  have nonempty : 0 < (matrixBytes twoRows).length := by decide +kernel
  omega

end Eigenmesh.Binary
