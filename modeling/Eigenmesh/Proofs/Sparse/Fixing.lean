import Mathlib.Algebra.Order.BigOperators.Group.Finset
import Eigenmesh.Proofs.Scalar.Rational
import Eigenmesh.Proofs.Sparse.Restriction

/-!
Linear systems with some unknowns given.

The matrix after fixing is made of two parts that do not touch: the part between free unknowns, as
it was, and ones on the diagonal of the fixed ones. What the given values contribute to the other
equations moves to the right-hand side.
-/

namespace Eigenmesh.Triplets

variable {α : Type}

/-! ### The matrix after fixing -/

/-- The positions in the row or the column of one of the unknowns. -/
def touches (fixed : List ℕ) (i j : ℕ) : Bool := decide (i ∈ fixed) || decide (j ∈ fixed)

section Units

variable [Scalar.Exact α] {A : Triplets α} {units : List ℕ}

lemma push?_one {i : ℕ} (square : A.rows = A.cols) (hi : i < A.rows) :
    ∃ A', A.push? i i 1 = some A' ∧ A'.rows = A.rows ∧ A'.cols = A.cols ∧
      A'.entries = A.entries.push (i, i, 1) := by
  unfold push?
  rw [dif_pos ⟨hi, square ▸ hi⟩, if_neg (by simp)]
  exact ⟨_, rfl, rfl, rfl, rfl⟩

lemma pushUnits_eq (square : A.rows = A.cols) (inside : ∀ i ∈ units, i < A.rows) :
    (A.pushUnits units).rows = A.rows ∧ (A.pushUnits units).cols = A.cols ∧
      (A.pushUnits units).entries.toList = A.entries.toList ++ units.map fun i => (i, i, 1) := by
  induction units generalizing A with
  | nil => exact ⟨rfl, rfl, (List.append_nil _).symm⟩
  | cons i units ih =>
    obtain ⟨A', pushed, rows, cols, entries⟩ := push?_one square (inside i List.mem_cons_self)
    have rest := @ih A' (by rw [rows, cols, square])
      fun j hj => rows ▸ inside j (List.mem_cons_of_mem _ hj)
    unfold pushUnits
    rw [pushed, Option.getD_some]
    refine ⟨rest.1.trans rows, rest.2.1.trans cols, rest.2.2.trans ?_⟩
    rw [entries, Array.toList_push, List.map_cons, List.append_assoc, List.singleton_append]

lemma rowDot_pushUnits (square : A.rows = A.cols) (inside : ∀ i ∈ units, i < A.rows) (i : ℕ)
    (f : ℕ → α) : (A.pushUnits units).rowDot i f = A.rowDot i f + units.count i * f i := by
  have ones : Row.weigh f (((units.map fun k => (k, k, (1 : α))).filter (·.1 = i)).map (·.2)) =
      units.count i * f i := by
    induction units with
    | nil => simp
    | cons k units ih =>
      have rest := ih fun j hj => inside j (List.mem_cons_of_mem _ hj)
      by_cases h : k = i
      · subst h
        simp [rest]
        ring
      · simp [h, rest]
  unfold rowDot rowEntries
  rw [(pushUnits_eq square inside).2.2, List.filter_append, List.map_append, Row.weigh_append, ones]

lemma rowDot_clear (fixed : List ℕ) (i : ℕ) (f : ℕ → α) :
    (A.clear (touches fixed)).rowDot i f =
      if i ∈ fixed then 0 else A.rowDot i fun j => if j ∈ fixed then 0 else f j := by
  have kept : (A.clear (touches fixed)).rowEntries i =
      if i ∈ fixed then [] else (A.rowEntries i).filter fun e => !decide (e.1 ∈ fixed) := by
    unfold rowEntries clear
    dsimp only
    rw [Array.toList_filter, List.filter_filter]
    split
    · rename_i h
      rw [List.map_eq_nil_iff, List.filter_eq_nil_iff]
      rintro t -
      simp only [touches, Bool.and_eq_true, decide_eq_true_eq, not_and]
      rintro rfl
      simp [h]
    · rename_i h
      rw [List.filter_map, List.filter_filter]
      congr 1
      refine List.filter_congr fun t _ => ?_
      by_cases hi : t.1 = i
      · simp [touches, hi, h]
      · simp [hi]
  unfold rowDot
  rw [kept]
  split
  · rfl
  · rw [Row.weigh_filter fun j => !decide (j ∈ fixed)]
    exact Row.weigh_congr fun e _ => by by_cases h : e.1 ∈ fixed <;> simp [h]

end Units

/-! ### The right-hand side -/

section Given

variable [Scalar.Exact α] {A : Triplets α} {given given' : List (ℕ × α)} {b b' b'' : Array α}

/-- The value given for an unknown, zero for a free one. -/
def known (given : List (ℕ × α)) (i : ℕ) : α := (given.lookup i).getD 0

lemma known_of_mem (single : SingleValued given) {i : ℕ} {v : α} (h : (i, v) ∈ given) :
    known given i = v := by
  rw [known, single.lookup_eq h, Option.getD_some]

lemma known_of_notMem {i : ℕ} (h : i ∉ given.map (·.1)) : known given i = 0 := by
  rw [known, lookup_eq_none h, Option.getD_none]

lemma known_congr (single : SingleValued given) (same : ∀ p, p ∈ given' ↔ p ∈ given) :
    known given' = known given := by
  funext i
  by_cases h : i ∈ given.map (·.1)
  · obtain ⟨⟨_, v⟩, hv, rfl⟩ := List.mem_map.1 h
    rw [known_of_mem single hv, known_of_mem (single.subset fun p => (same p).1) ((same _).2 hv)]
  · have h' : i ∉ given'.map (·.1) := by simpa only [List.mem_map, same] using h
    rw [known_of_notMem h, known_of_notMem h']

lemma givenValues?_eq_some {n : ℕ} (inside : ∀ p ∈ given, p.1 < n) (single : SingleValued given) :
    ∃ m, givenValues? n given = some m ∧
      (∀ i, (m.getD i none).isSome = decide (i ∈ given.map (·.1))) ∧
      ∀ i, (m.map (·.getD 0)).getD i 0 = known given i := by
  have recorded {i : ℕ} {v : α} (h : (i, v) ∈ given) :
      (given.foldl (fun m p => m.setIfInBounds p.1 (some p.2)) (Array.replicate n none))[i]? =
        some (some v) :=
    write_of_mem some single h (by rw [Array.size_replicate]; exact inside _ h)
  have unmentioned {i : ℕ} (h : i ∉ given.map (·.1)) :
      (given.foldl (fun m p => m.setIfInBounds p.1 (some p.2)) (Array.replicate n none))[i]? =
        if i < n then some none else none := by
    rw [write_of_notMem some h, Array.getElem?_replicate]
  unfold givenValues?
  rw [if_pos (List.all_eq_true.2 fun p hp => decide_eq_true (inside p hp))]
  refine ⟨_, rfl, fun i => ?_, fun i => ?_⟩
  · rw [Array.getD_eq_getD_getElem?]
    by_cases h : i ∈ given.map (·.1)
    · obtain ⟨⟨_, v⟩, hv, rfl⟩ := List.mem_map.1 h
      rw [recorded hv, decide_eq_true h]
      rfl
    · rw [unmentioned h, decide_eq_false h]
      split <;> rfl
  · rw [Array.getD_eq_getD_getElem?, Array.getElem?_map]
    by_cases h : i ∈ given.map (·.1)
    · obtain ⟨⟨_, v⟩, hv, rfl⟩ := List.mem_map.1 h
      rw [recorded hv, known_of_mem single hv]
      rfl
    · rw [unmentioned h, known_of_notMem h]
      split <;> rfl

/-- The right-hand side after fixing: given values, and what the other equations have left. -/
structure Reduces (A : Triplets α) (given : List (ℕ × α)) (b b' : Array α) : Prop where
  size : b'.size = b.size
  listed : ∀ i v, (i, v) ∈ given → b'.getD i 0 = v
  free : ∀ i < b.size, i ∉ given.map (·.1) →
    b'.getD i 0 = b.getD i 0 - A.rowDot i (known given)

lemma Reduces.congr (r : Reduces A given b b') (single : SingleValued given)
    (same : ∀ p, p ∈ given' ↔ p ∈ given) : Reduces A given' b b' where
  size := r.size
  listed i v h := r.listed i v ((same _).1 h)
  free i hi h := by
    have h' : i ∉ given.map (·.1) := by simpa only [List.mem_map, same] using h
    rw [known_congr single same, r.free i hi h']

lemma Reduces.unique (r : Reduces A given b b') (r' : Reduces A given b b'') : b' = b'' := by
  rw [Coords.eq_iff_getD (r.size.trans r'.size.symm), r.size]
  intro i hi
  by_cases h : i ∈ given.map (·.1)
  · obtain ⟨⟨_, v⟩, hv, rfl⟩ := List.mem_map.1 h
    rw [r.listed _ v hv, r'.listed _ v hv]
  · rw [r.free i hi h, r'.free i hi h]

lemma fixDofs_eq_some (square : A.rows = A.cols) (size : b.size = A.rows)
    (inside : ∀ p ∈ given, p.1 < A.rows) (single : SingleValued given) :
    ∃ b', A.fixDofs given b =
      some ((A.clear (touches (given.map (·.1)))).pushUnits (given.map (·.1)), b') ∧
      Reduces A given b b' := by
  obtain ⟨m, values, flags, gamma⟩ := givenValues?_eq_some inside single
  have touched : (fun i j => (m.getD i none).isSome || (m.getD j none).isSome) =
      touches (given.map (·.1)) := by
    funext i j
    rw [flags, flags, touches]
  let rest := Coords.sub b (A.toCsr.mulVec (m.map (·.getD 0)))
  have rest_size : rest.size = b.size := Coords.size_sub _ _
  refine ⟨given.foldl (fun b p => b.setIfInBounds p.1 p.2) rest, ?_, ?_, ?_, ?_⟩
  · unfold fixDofs
    rw [if_pos ⟨square, size⟩, values]
    dsimp only [bind, Option.bind]
    rw [touched]
    rfl
  · exact (size_write id given rest).trans rest_size
  · intro i v h
    have hi : i < rest.size := by rw [rest_size, size]; exact inside _ h
    have written : (given.foldl (fun b p => b.setIfInBounds p.1 p.2) rest)[i]? = some v :=
      write_of_mem id single h hi
    rw [Array.getD_eq_getD_getElem?, written, Option.getD_some]
  · intro i hi h
    have kept : (given.foldl (fun b p => b.setIfInBounds p.1 p.2) rest)[i]? = rest[i]? :=
      write_of_notMem id h rest
    rw [Array.getD_eq_getD_getElem?, kept, ← Array.getD_eq_getD_getElem?, Coords.getD_sub _ _ hi,
      mulVec_toCsr, funext gamma]

lemma rowDot_fixed (square : A.rows = A.cols) {fixed : List ℕ} (inside : ∀ i ∈ fixed, i < A.rows)
    (i : ℕ) (f : ℕ → α) :
    ((A.clear (touches fixed)).pushUnits fixed).rowDot i f =
      if i ∈ fixed then fixed.count i * f i
      else A.rowDot i fun j => if j ∈ fixed then 0 else f j := by
  rw [rowDot_pushUnits (A := A.clear (touches fixed)) square inside, rowDot_clear]
  split
  · rw [zero_add]
  · rename_i h
    rw [List.count_eq_zero_of_not_mem h, Nat.cast_zero, zero_mul, add_zero]

end Given

/-! ### The system after fixing -/

variable [Scalar.Exact α] {A : Triplets α} {given : List (ℕ × α)} {b : Array α}

lemma restrict?_fixed (square : A.rows = A.cols) {fixed : List ℕ}
    (inside : ∀ i ∈ fixed, i < A.rows) {free : Array ℕ} (apart : ∀ i ∈ free, i ∉ fixed) :
    ((A.clear (touches fixed)).pushUnits fixed).restrict? free free = A.restrict? free free := by
  obtain ⟨rows, cols, entries⟩ := pushUnits_eq (A := A.clear (touches fixed)) square inside
  unfold restrict?
  rw [rows, cols]
  refine Option.bind_congr fun rowMap hrow => Option.bind_congr fun colMap hcol => ?_
  have dropped (t : ℕ × ℕ × α) (h : touches fixed t.1 t.2.1 = true) :
      renumber rowMap colMap t = none := by
    rw [touches, Bool.or_eq_true, decide_eq_true_eq, decide_eq_true_eq] at h
    rcases h with h | h
    · rw [renumber, Renumbering.getD_of_notMem hrow fun hi => apart _ hi h]
      rfl
    · rw [renumber, Renumbering.getD_of_notMem hcol fun hi => apart _ hi h]
      cases rowMap.getD t.1 none <;> rfl
  have units : (fixed.map fun i => (i, i, (1 : α))).filterMap (renumber rowMap colMap) = [] := by
    rw [List.filterMap_eq_nil_iff]
    intro t ht
    obtain ⟨i, hi, rfl⟩ := List.mem_map.1 ht
    exact dropped _ (by simp [touches, hi])
  have kept (l : List (ℕ × ℕ × α)) :
      (l.filter fun t => !touches fixed t.1 t.2.1).filterMap (renumber rowMap colMap) =
        l.filterMap (renumber rowMap colMap) := by
    induction l with
    | nil => rfl
    | cons t l ih =>
      by_cases h : touches fixed t.1 t.2.1 = true
      · simp [h, dropped t h, ih]
      · rw [List.filter_cons_of_pos (by simpa using h), List.filterMap_cons, List.filterMap_cons,
          ih]
  have same : ((A.clear (touches fixed)).pushUnits fixed).entries.filterMap
      (renumber rowMap colMap) = A.entries.filterMap (renumber rowMap colMap) := by
    rw [← Array.toList_inj, Array.toList_filterMap, Array.toList_filterMap, entries,
      List.filterMap_append, units, List.append_nil]
    unfold clear
    rw [Array.toList_filter, kept]
  exact congrArg (of? free.size free.size) same

/-- The matrix has a positive quadratic form on the vectors that vanish at the given unknowns. -/
def PositiveApart (A : Triplets α) (fixed : List ℕ) : Prop :=
  ∀ x : Array α, x.size = A.rows → (∀ i ∈ fixed, x.getD i 0 = 0) → (∃ i, x.getD i 0 ≠ 0) →
    0 < Coords.dot x (A.toCsr.mulVec x)

/-- A system `A' u = b'` that stands for `A u = b` with given values for some unknowns: its
solutions, its matrix, and what the matrix inherits. -/
structure Imposes (A : Triplets α) (given : List (ℕ × α)) (b : Array α) (A' : Triplets α)
    (b' : Array α) : Prop where
  rows : A'.rows = A.rows
  cols : A'.cols = A.cols
  size : b'.size = b.size
  solution : ∀ u : Array α, u.size = A.rows →
    (A'.toCsr.mulVec u = b' ↔ (∀ p ∈ given, u[p.1]? = some p.2) ∧
      ∀ i < A.rows, i ∉ given.map (·.1) → (A.toCsr.mulVec u)[i]? = b[i]?)
  identity : ∀ i j, i ∈ given.map (·.1) ∨ j ∈ given.map (·.1) →
    A'.entry i j = if i = j then 1 else 0
  restriction : ∀ free : Array ℕ, (∀ i ∈ free, i < A.rows ∧ i ∉ given.map (·.1)) →
    A'.restrict? free free = A.restrict? free free ∧
    (free.toList.Nodup → Word.isArray A.rows 16 → ∃ R, A.restrict? free free = some R ∧
      R.rows = free.size ∧ R.cols = free.size ∧
      ∀ a i c j, free[a]? = some i → free[c]? = some j → R.entry a c = A'.entry i j)
  symmetric : (∀ i j, A.entry i j = A.entry j i) → ∀ i j, A'.entry i j = A'.entry j i
  positive : A.PositiveApart (given.map (·.1)) → A'.PositiveApart []

section Fixed

variable {fixed : List ℕ}

/-- The entries of the matrix after fixing: on the diagonal of an unknown stands how often it is
listed. -/
lemma entry_fixed (square : A.rows = A.cols) (inside : ∀ i ∈ fixed, i < A.rows) (i j : ℕ) :
    ((A.clear (touches fixed)).pushUnits fixed).entry i j =
      if i ∈ fixed ∨ j ∈ fixed then if i = j then (fixed.count i : α) else 0 else A.entry i j := by
  rw [entry_eq_rowDot, rowDot_fixed square inside]
  by_cases hi : i ∈ fixed
  · rw [if_pos hi, if_pos (show i ∈ fixed ∨ j ∈ fixed from .inl hi), mul_ite, mul_one, mul_zero]
  · rw [if_neg hi]
    by_cases hj : j ∈ fixed
    · have ne : i ≠ j := fun e => hi (e ▸ hj)
      have vanishes : (fun k => if k ∈ fixed then (0 : α) else if k = j then 1 else 0) =
          fun _ => 0 := by
        funext k
        by_cases hk : k ∈ fixed
        · rw [if_pos hk]
        · rw [if_neg hk, if_neg fun e : k = j => hk (e ▸ hj)]
      rw [if_pos (show i ∈ fixed ∨ j ∈ fixed from .inr hj), if_neg ne, vanishes]
      simp [rowDot, Row.weigh]
    · have unchanged : (fun k => if k ∈ fixed then (0 : α) else if k = j then 1 else 0) =
          fun k => if k = j then 1 else 0 := by
        funext k
        by_cases hk : k ∈ fixed
        · rw [if_pos hk, if_neg fun e : k = j => hj (e ▸ hk)]
        · rw [if_neg hk]
      rw [if_neg (not_or.2 ⟨hi, hj⟩), unchanged, entry_eq_rowDot]

lemma identity_of_nodup (square : A.rows = A.cols) (inside : ∀ i ∈ fixed, i < A.rows)
    (nodup : fixed.Nodup) {i j : ℕ} (h : i ∈ fixed ∨ j ∈ fixed) :
    ((A.clear (touches fixed)).pushUnits fixed).entry i j = if i = j then 1 else 0 := by
  rw [entry_fixed square inside, if_pos h]
  by_cases e : i = j
  · subst e
    rw [if_pos rfl, if_pos rfl, List.count_eq_one_of_mem nodup (h.elim id id), Nat.cast_one]
  · rw [if_neg e, if_neg e]

lemma symmetric_fixed (square : A.rows = A.cols) (inside : ∀ i ∈ fixed, i < A.rows)
    (symmetric : ∀ i j, A.entry i j = A.entry j i) (i j : ℕ) :
    ((A.clear (touches fixed)).pushUnits fixed).entry i j =
      ((A.clear (touches fixed)).pushUnits fixed).entry j i := by
  by_cases e : i = j
  · rw [e]
  · rw [entry_fixed square inside, entry_fixed square inside, symmetric i j, if_neg e,
      if_neg fun e' : j = i => e e'.symm]
    simp only [or_comm]

lemma dot_fixed (square : A.rows = A.cols) (inside : ∀ i ∈ fixed, i < A.rows)
    (nodup : fixed.Nodup) {x y : Array α} (hx : x.size = A.rows) (hy : y.size = A.rows)
    (cut : ∀ i, y.getD i 0 = if i ∈ fixed then 0 else x.getD i 0) :
    Coords.dot x (((A.clear (touches fixed)).pushUnits fixed).toCsr.mulVec x) =
      (∑ i ∈ Finset.range A.rows, if i ∈ fixed then x.getD i 0 * x.getD i 0 else 0) +
        Coords.dot y (A.toCsr.mulVec y) := by
  rw [Coords.dot_eq_sum, Coords.dot_eq_sum, hx, hy, ← Finset.sum_add_distrib]
  refine Finset.sum_congr rfl fun i _ => ?_
  rw [mulVec_toCsr, mulVec_toCsr, rowDot_fixed square inside]
  simp only [cut]
  by_cases hi : i ∈ fixed
  · rw [if_pos hi, if_pos hi, if_pos hi, List.count_eq_one_of_mem nodup hi]
    ring
  · rw [if_neg hi, if_neg hi, if_neg hi, zero_add]

lemma positive_fixed (square : A.rows = A.cols) (inside : ∀ i ∈ fixed, i < A.rows)
    (nodup : fixed.Nodup) (positive : A.PositiveApart fixed) :
    ((A.clear (touches fixed)).pushUnits fixed).PositiveApart [] := by
  intro x hx _ ⟨i, hi⟩
  replace hx : x.size = A.rows :=
    hx.trans (pushUnits_eq (A := A.clear (touches fixed)) square inside).1
  let y : Array α := Array.ofFn fun k : Fin A.rows => if k.val ∈ fixed then 0 else x.getD k 0
  have hy : y.size = A.rows := Array.size_ofFn
  have cut (k : ℕ) : y.getD k 0 = if k ∈ fixed then 0 else x.getD k 0 := by
    by_cases hk : k < A.rows
    · simp [y, hk]
    · have beyond : x.getD k 0 = 0 := by simp [hx, hk]
      rw [beyond, ite_self]
      simp [y, hk]
  rw [dot_fixed square inside nodup hx hy cut]
  have squares : 0 ≤ ∑ k ∈ Finset.range A.rows,
      if k ∈ fixed then x.getD k 0 * x.getD k 0 else 0 :=
    Finset.sum_nonneg fun k _ => by split <;> [exact mul_self_nonneg _; exact le_rfl]
  by_cases free : ∃ k, y.getD k 0 ≠ 0
  · have form := positive y hy (fun k hk => by rw [cut, if_pos hk]) free
    exact add_pos_of_nonneg_of_pos squares form
  · -- Nothing is left on the free unknowns, so a fixed one is not zero.
    have zero (k : ℕ) : y.getD k 0 = 0 := not_not.1 fun h => free ⟨k, h⟩
    have form : Coords.dot y (A.toCsr.mulVec y) = 0 := by
      rw [Coords.dot_eq_sum]
      exact Finset.sum_eq_zero fun k _ => by rw [zero, zero_mul]
    have fixed_i : i ∈ fixed := by
      by_contra h
      have := zero i
      rw [cut, if_neg h] at this
      exact hi this
    rw [form, add_zero]
    refine lt_of_lt_of_le (mul_self_pos.2 hi) ?_
    have single := Finset.single_le_sum
      (f := fun k => if k ∈ fixed then x.getD k 0 * x.getD k 0 else 0)
      (fun k _ => by split <;> [exact mul_self_nonneg _; exact le_rfl])
      (Finset.mem_range.2 (inside i fixed_i))
    simpa only [if_pos fixed_i] using single

end Fixed

lemma mulVec_fixed_eq_iff (square : A.rows = A.cols) (size : b.size = A.rows)
    (inside : ∀ i ∈ given.map (·.1), i < A.rows) (nodup : (given.map (·.1)).Nodup)
    {b' u : Array α} (reduces : Reduces A given b b') (hu : u.size = A.rows) :
    ((A.clear (touches (given.map (·.1)))).pushUnits (given.map (·.1))).toCsr.mulVec u = b' ↔
      (∀ p ∈ given, u[p.1]? = some p.2) ∧
      ∀ i < A.rows, i ∉ given.map (·.1) → (A.toCsr.mulVec u)[i]? = b[i]? := by
  have single : SingleValued given := .of_nodup nodup
  let fixed := given.map (·.1)
  let A' := (A.clear (touches fixed)).pushUnits fixed
  have rows : (A'.toCsr.mulVec u).size = A.rows :=
    (size_mulVec_toCsr A' u).trans (pushUnits_eq (A := A.clear (touches fixed)) square inside).1
  have row (i : ℕ) : (A'.toCsr.mulVec u).getD i 0 =
      if i ∈ fixed then fixed.count i * u.getD i 0
      else A.rowDot i fun j => if j ∈ fixed then 0 else u.getD j 0 := by
    rw [mulVec_toCsr, rowDot_fixed square inside]
  have takes : (∀ p ∈ given, u[p.1]? = some p.2) ↔
      ∀ i ∈ fixed, (A'.toCsr.mulVec u).getD i 0 = b'.getD i 0 := by
    have at_pair (p : ℕ × α) (hp : p ∈ given) : u[p.1]? = some p.2 ↔
        (A'.toCsr.mulVec u).getD p.1 0 = b'.getD p.1 0 := by
      have hi : p.1 ∈ fixed := List.mem_map_of_mem hp
      rw [Coords.getElem?_eq_some_iff_getD (hu ▸ inside _ hi), row, if_pos hi,
        List.count_eq_one_of_mem nodup hi, Nat.cast_one, one_mul, reduces.listed _ _ hp]
    refine ⟨fun h i hi => ?_, fun h p hp => (at_pair p hp).2 (h _ (List.mem_map_of_mem hp))⟩
    obtain ⟨p, hp, rfl⟩ := List.mem_map.1 hi
    exact (at_pair p hp).1 (h p hp)
  -- With the given values taken, the known columns complete the free ones to the whole product.
  have rest (h : ∀ p ∈ given, u[p.1]? = some p.2) (i : ℕ) (hi : i < A.rows) (free : i ∉ fixed) :
      (A'.toCsr.mulVec u).getD i 0 = b'.getD i 0 ↔ (A.toCsr.mulVec u)[i]? = b[i]? := by
    have split : (fun j => u.getD j 0) =
        fun j => (if j ∈ fixed then 0 else u.getD j 0) + known given j := by
      funext j
      by_cases hj : j ∈ fixed
      · obtain ⟨p, hp, rfl⟩ := List.mem_map.1 hj
        rw [if_pos hj, zero_add, known_of_mem single hp,
          (Coords.getElem?_eq_some_iff_getD (hu ▸ inside _ hj)).1 (h p hp)]
      · rw [if_neg hj, known_of_notMem hj, add_zero]
    have whole : A.rowDot i (fun j => u.getD j 0) =
        A.rowDot i (fun j => if j ∈ fixed then 0 else u.getD j 0) + A.rowDot i (known given) := by
      rw [split]
      exact Row.weigh_add _ _
    have hib : i < b.size := size ▸ hi
    have hiA : i < (A.toCsr.mulVec u).size := by rwa [size_mulVec_toCsr]
    have hb : b[i]? = some (b.getD i 0) := (Coords.getElem?_eq_some_iff_getD hib).2 rfl
    rw [hb, Coords.getElem?_eq_some_iff_getD hiA, row, if_neg free, reduces.free i hib free,
      eq_sub_iff_add_eq, mulVec_toCsr, whole]
  rw [Coords.eq_iff_getD (rows.trans (size.symm.trans reduces.size.symm)), rows, takes]
  constructor
  · intro h
    have onFixed : ∀ i ∈ fixed, (A'.toCsr.mulVec u).getD i 0 = b'.getD i 0 :=
      fun i hi => h i (inside i hi)
    exact ⟨onFixed, fun i hi free => (rest (takes.2 onFixed) i hi free).1 (h i hi)⟩
  · rintro ⟨onFixed, onFree⟩ i hi
    by_cases h : i ∈ fixed
    · exact onFixed i h
    · exact (rest (takes.2 onFixed) i hi h).2 (onFree i hi h)

/-- **Fixing imposes the given values and nothing else.** -/
theorem fixDofs_imposes (A : Triplets α) (given : List (ℕ × α)) (b : Array α)
    (square : A.rows = A.cols) (nodup : (given.map (·.1)).Nodup)
    (inside : ∀ p ∈ given, p.1 < A.rows) (size : b.size = A.rows) :
    ∃ A' b', A.fixDofs given b = some (A', b') ∧ Imposes A given b A' b' := by
  obtain ⟨b', fixes, reduces⟩ := fixDofs_eq_some square size inside (.of_nodup nodup)
  have listed : ∀ i ∈ given.map (·.1), i < A.rows := by
    intro i hi
    obtain ⟨p, hp, rfl⟩ := List.mem_map.1 hi
    exact inside p hp
  obtain ⟨rows, cols, -⟩ :=
    pushUnits_eq (A := A.clear (touches (given.map (·.1)))) square listed
  refine ⟨_, b', fixes, rows, cols, reduces.size, ?_, ?_, ?_, ?_, ?_⟩
  · exact fun u hu => mulVec_fixed_eq_iff square size listed nodup reduces hu
  · exact fun i j h => identity_of_nodup square listed nodup h
  · intro free apart
    refine ⟨restrict?_fixed square listed fun i hi => (apart i hi).2, fun once room => ?_⟩
    obtain ⟨R, hR⟩ := exists_restrict? room (square ▸ room) (fun i hi => (apart i hi).1)
      (fun i hi => square ▸ (apart i hi).1)
    obtain ⟨-, -, -, -, hrows, hcols, -⟩ := restrict?_eq_some hR
    refine ⟨R, hR, hrows, hcols, fun a i c j hi hj => ?_⟩
    have hi' := (apart i (Array.mem_of_getElem? hi)).2
    have hj' := (apart j (Array.mem_of_getElem? hj)).2
    rw [entry_restrict? hR once once hi hj, entry_fixed square listed,
      if_neg (not_or.2 ⟨hi', hj'⟩)]
  · exact symmetric_fixed square listed
  · exact positive_fixed square listed nodup

/-- The second differences of three numbers, one entry given in two parts and one that is zero. -/
def secondDifferences : Triplets ℚ where
  rows := 3
  cols := 3
  entries := #[(0, 0, 2), (0, 1, -1), (1, 0, -1), (1, 1, 1), (0, 2, 0), (1, 2, -1), (2, 1, -1),
    (2, 2, 2), (1, 1, 1)]
  inside := by decide

/-- The first unknown of three is given. -/
theorem fixDofs_imposes_first :
    secondDifferences.rows = secondDifferences.cols ∧
    ([(0, (2 : ℚ))].map (·.1)).Nodup ∧ (∀ p ∈ [(0, (2 : ℚ))], p.1 < secondDifferences.rows) ∧
    (#[1, 1, 1] : Array ℚ).size = secondDifferences.rows ∧
    ∃ A' b', secondDifferences.fixDofs [(0, 2)] #[1, 1, 1] = some (A', b') ∧
      Imposes secondDifferences [(0, 2)] #[1, 1, 1] A' b' :=
  ⟨rfl, by decide, by decide, rfl,
    fixDofs_imposes secondDifferences [(0, 2)] #[1, 1, 1] rfl (by decide) (by decide) rfl⟩

end Eigenmesh.Triplets
