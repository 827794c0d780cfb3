import Mathlib.Data.List.Perm.Basic
import Mathlib.Data.Nat.Notation
import Mathlib.Tactic.Common
import Eigenmesh.Proofs.Sparse.Fixing
import Eigenmesh.Proofs.Sparse.Operations

/-!
Unknowns that are given their values in several calls.

What a call leaves is settled by the values it finds on a row and by which values are given, in
whatever order. A second call moves nothing to the right-hand side for an unknown that the first one
has fixed, since its columns are cleared by then, and the rows that the first one has replaced give
nothing to move.
-/

namespace Eigenmesh.Triplets

variable {α : Type}

/-- The values of the unknowns that are not fixed. -/
def freed [Zero α] (fixed : List ℕ) (f : ℕ → α) (j : ℕ) : α := if j ∈ fixed then 0 else f j

section Freed

variable [Zero α] {fixed : List ℕ} {f : ℕ → α} {j : ℕ}

lemma freed_of_mem (h : j ∈ fixed) : freed fixed f j = 0 := if_pos h

lemma freed_of_notMem (h : j ∉ fixed) : freed fixed f j = f j := if_neg h

lemma freed_freed (first second : List ℕ) (f : ℕ → α) :
    freed first (freed second f) = freed (first ++ second) f := by
  funext j
  simp only [freed, List.mem_append]
  split_ifs <;> simp_all

end Freed

variable [Scalar.Exact α] {A A' A'' A₁ A₂ : Triplets α} {given given' : List (ℕ × α)}
  {first second : List (ℕ × α)} {b b' b'' b₁ b₂ : Array α} {i : ℕ}

/-- A matrix and a right-hand side that a call with the given values may leave. -/
structure Fixes (A : Triplets α) (given : List (ℕ × α)) (b : Array α) (A' : Triplets α)
    (b' : Array α) : Prop where
  rows : A'.rows = A.rows
  cols : A'.cols = A.cols
  inside : ∀ p ∈ given, p.1 < b.size
  fixedRow : ∀ i ∈ given.map (·.1), ∀ f, A'.rowDot i f = f i
  freeRow : ∀ i ∉ given.map (·.1), ∀ f, A'.rowDot i f = A.rowDot i (freed (given.map (·.1)) f)
  right : Reduces A given b b'

lemma exists_fixes (square : A.rows = A.cols) (size : b.size = A.rows)
    (nodup : (given.map (·.1)).Nodup) (inside : ∀ p ∈ given, p.1 < A.rows) :
    ∃ A' b', A.fixDofs given b = some (A', b') ∧ Fixes A given b A' b' := by
  obtain ⟨b', fixes, right⟩ := fixDofs_eq_some square size inside (.of_nodup nodup)
  have listed : ∀ i ∈ given.map (·.1), i < A.rows := List.forall_mem_map.2 inside
  obtain ⟨rows, cols, -⟩ :=
    pushUnits_eq (A := A.clear (touches (given.map (·.1)))) square listed
  refine ⟨_, b', fixes, rows, cols, size ▸ inside, fun i hi f => ?_, fun i hi f => ?_, right⟩
  · rw [rowDot_fixed square listed, if_pos hi, List.count_eq_one_of_mem nodup hi, Nat.cast_one,
      one_mul]
  · rw [rowDot_fixed square listed, if_neg hi]
    rfl

/-! ### The given values -/

omit [Scalar.Exact α] in
lemma notMem_append (h : i ∉ (first ++ second).map (·.1)) :
    i ∉ first.map (·.1) ∧ i ∉ second.map (·.1) := by
  rwa [List.map_append, List.mem_append, not_or] at h

lemma known_append (single : SingleValued (first ++ second)) (i : ℕ) :
    known (first ++ second) i = known first i + freed (first.map (·.1)) (known second) i := by
  have single_first : SingleValued first := single.subset fun _ => List.mem_append_left second
  by_cases h : i ∈ first.map (·.1)
  · obtain ⟨⟨_, v⟩, hv, rfl⟩ := List.mem_map.1 h
    rw [known_of_mem single (List.mem_append_left _ hv), known_of_mem single_first hv,
      freed_of_mem h, add_zero]
  · rw [known, List.lookup_append, lookup_eq_none h, Option.none_or, known_of_notMem h,
      freed_of_notMem h, zero_add, known]

/-! ### What calls leave -/

namespace Fixes

lemma congr (fixes : Fixes A given b A' b') (single : SingleValued given)
    (same : ∀ p, p ∈ given' ↔ p ∈ given) : Fixes A given' b A' b' := by
  have mentioned (i : ℕ) : i ∈ given'.map (·.1) ↔ i ∈ given.map (·.1) := by
    simp only [List.mem_map, same]
  have freed_eq (f : ℕ → α) : freed (given'.map (·.1)) f = freed (given.map (·.1)) f := by
    funext j
    simp only [freed, mentioned]
  refine ⟨fixes.rows, fixes.cols, fun p hp => fixes.inside p ((same p).1 hp),
    fun i hi => fixes.fixedRow i ((mentioned i).1 hi), fun i hi f => ?_,
    fixes.right.congr single same⟩
  rw [freed_eq, fixes.freeRow i (mt (mentioned i).2 hi)]

lemma reduces_append (one : Fixes A first b A₁ b₁) (two : Fixes A₁ second b₁ A₂ b₂)
    (single : SingleValued (first ++ second)) : Reduces A (first ++ second) b b₂ where
  size := two.right.size.trans one.right.size
  listed i v h := by
    by_cases later : i ∈ second.map (·.1)
    · obtain ⟨⟨_, w⟩, hw, rfl⟩ := List.mem_map.1 later
      rw [two.right.listed _ w hw, single _ v w h (List.mem_append_right _ hw)]
    · have hv : (i, v) ∈ first :=
        (List.mem_append.1 h).resolve_right fun hv => later (List.mem_map_of_mem hv)
      have hi : i ∈ first.map (·.1) := List.mem_map_of_mem hv
      have inside : i < b₁.size := one.right.size ▸ one.inside _ hv
      -- the row of an unknown that is fixed already has nothing but its own value
      rw [two.right.free i inside later, one.right.listed i v hv, one.fixedRow i hi,
        known_of_notMem later, sub_zero]
  free i hi free := by
    obtain ⟨h, h'⟩ := notMem_append free
    have whole : A.rowDot i (known (first ++ second)) =
        A.rowDot i (known first) + A.rowDot i (freed (first.map (·.1)) (known second)) := by
      rw [funext (known_append single)]
      exact Row.weigh_add _ _
    rw [two.right.free i (one.right.size ▸ hi) h', one.right.free i hi h, one.freeRow i h,
      sub_sub, whole]

lemma append (one : Fixes A first b A₁ b₁) (two : Fixes A₁ second b₁ A₂ b₂)
    (single : SingleValued (first ++ second)) : Fixes A (first ++ second) b A₂ b₂ where
  rows := two.rows.trans one.rows
  cols := two.cols.trans one.cols
  inside := List.forall_mem_append.2 ⟨one.inside, one.right.size ▸ two.inside⟩
  fixedRow i hi f := by
    by_cases later : i ∈ second.map (·.1)
    · exact two.fixedRow i later f
    · have earlier : i ∈ first.map (·.1) := by
        rw [List.map_append, List.mem_append] at hi
        exact hi.resolve_right later
      rw [two.freeRow i later, one.fixedRow i earlier, freed_of_notMem later]
  freeRow i hi f := by
    obtain ⟨h, h'⟩ := notMem_append hi
    rw [two.freeRow i h', one.freeRow i h, freed_freed, List.map_append]
  right := one.reduces_append two single

lemma unique (fixes : Fixes A given b A' b') (fixes' : Fixes A given b A'' b'') :
    A'.toDense = A''.toDense ∧ b' = b'' := by
  have row (i : ℕ) (f : ℕ → α) : A'.rowDot i f = A''.rowDot i f := by
    by_cases h : i ∈ given.map (·.1)
    · rw [fixes.fixedRow i h, fixes'.fixedRow i h]
    · rw [fixes.freeRow i h, fixes'.freeRow i h]
  refine ⟨?_, fixes.right.unique fixes'.right⟩
  rw [toDense_eq, toDense_eq, fixes.rows, fixes.cols, fixes'.rows, fixes'.cols]
  refine Dense.ofFn_congr fun i _ j _ => ?_
  rw [entry_eq_rowDot, entry_eq_rowDot, row]

end Fixes

/-- **Giving values in two calls is giving them in one.** If no unknown is listed twice, two calls
one after the other leave the matrix and the right-hand side that one call with all the values
leaves, in whatever order they are listed, and a call that is made again changes nothing. -/
theorem fixDofs_composes (A : Triplets α) (b : Array α) (first second all : List (ℕ × α))
    (square : A.rows = A.cols) (size : b.size = A.rows) (order : all.Perm (first ++ second))
    (nodup : (all.map (·.1)).Nodup) (inside : ∀ p ∈ all, p.1 < A.rows) :
    ∃ A₁ b₁ A₂ b₂ A' A'', A.fixDofs first b = some (A₁, b₁) ∧
      A₁.fixDofs second b₁ = some (A₂, b₂) ∧ A.fixDofs all b = some (A', b₂) ∧
      A'.toDense = A₂.toDense ∧
      A'.fixDofs all b₂ = some (A'', b₂) ∧ A''.toDense = A'.toDense := by
  have single : SingleValued all := .of_nodup nodup
  have nodup_append : ((first ++ second).map (·.1)).Nodup := (order.map _).nodup_iff.1 nodup
  rw [List.map_append] at nodup_append
  have mem_all (p : ℕ × α) : p ∈ first ++ second ↔ p ∈ all := order.symm.mem_iff
  obtain ⟨A₁, b₁, call₁, one⟩ := exists_fixes square size nodup_append.of_append_left
    fun p hp => inside p ((mem_all p).1 (List.mem_append_left _ hp))
  have square₁ : A₁.rows = A₁.cols := by rw [one.rows, one.cols, square]
  have size₁ : b₁.size = A₁.rows := by rw [one.right.size, one.rows, size]
  obtain ⟨A₂, b₂, call₂, two⟩ := exists_fixes square₁ size₁ nodup_append.of_append_right
    fun p hp => one.rows ▸ inside p ((mem_all p).1 (List.mem_append_right _ hp))
  obtain ⟨A', b', call, whole⟩ := exists_fixes square size nodup inside
  have square' : A'.rows = A'.cols := by rw [whole.rows, whole.cols, square]
  have size' : b'.size = A'.rows := by rw [whole.right.size, whole.rows, size]
  obtain ⟨A'', b'', again, twice⟩ := exists_fixes square' size' nodup (whole.rows ▸ inside)
  -- both calls together, and the same call twice, fix what one call with the whole list fixes
  have together : Fixes A all b A₂ b₂ :=
    (one.append two (single.subset fun p => (mem_all p).1)).congr
      (single.subset fun p => (mem_all p).1) fun p => (mem_all p).symm
  have doubled : SingleValued (all ++ all) := single.subset fun p => by simp
  have repeated : Fixes A all b A'' b'' := (whole.append twice doubled).congr doubled (by simp)
  obtain ⟨matrix, rfl⟩ := whole.unique together
  obtain ⟨matrix', rfl⟩ := repeated.unique whole
  exact ⟨A₁, b₁, A₂, b'', A', A'', call₁, call₂, call, matrix, again, matrix'⟩

/-- The last unknown of three is given, and then the first one. -/
theorem fixDofs_composes_last_first :
    secondDifferences.rows = secondDifferences.cols ∧
    (#[1, 1, 1] : Array ℚ).size = secondDifferences.rows ∧
    [(0, (2 : ℚ)), (2, 5)].Perm ([(2, 5)] ++ [(0, 2)]) ∧
    ([(0, (2 : ℚ)), (2, 5)].map (·.1)).Nodup ∧
    (∀ p ∈ [(0, (2 : ℚ)), (2, 5)], p.1 < secondDifferences.rows) ∧
    ∃ A₁ b₁ A₂ b₂ A' A'', secondDifferences.fixDofs [(2, 5)] #[1, 1, 1] = some (A₁, b₁) ∧
      A₁.fixDofs [(0, 2)] b₁ = some (A₂, b₂) ∧
      secondDifferences.fixDofs [(0, 2), (2, 5)] #[1, 1, 1] = some (A', b₂) ∧
      A'.toDense = A₂.toDense ∧
      A'.fixDofs [(0, 2), (2, 5)] b₂ = some (A'', b₂) ∧ A''.toDense = A'.toDense :=
  ⟨rfl, rfl, .swap _ _ [], by decide, by decide,
    fixDofs_composes secondDifferences #[1, 1, 1] [(2, 5)] [(0, 2)] [(0, 2), (2, 5)] rfl rfl
      (.swap _ _ []) (by decide) (by decide)⟩

end Eigenmesh.Triplets
