import Mathlib.Algebra.Order.Field.Basic
import Mathlib.Data.List.Count
import Eigenmesh.Assembly
import Eigenmesh.Proofs.Sparse.Fixing

/-!
The list of essential unknowns.

Which unknowns are listed decides the right-hand side and all of the matrix but the diagonal of the
listed unknowns. There every mention adds a one, so the order of the list does not matter and its
repetitions do: only for a list without any are the essential rows and columns those of the
identity.
-/

namespace Eigenmesh.LinearSpace

variable {α : Type}

/-- Every essential unknown has a value, and the right-hand side the right size. -/
structure Complete (A : Triplets α) (b : Array α) (essential : List ℕ)
    (values : Option (Array α)) : Prop where
  size : b.size = A.rows
  values : ∀ u, values = some u → ∀ i ∈ essential, i < u.size

lemma Complete.of_members {A : Triplets α} {b : Array α} {essential essential' : List ℕ}
    {values : Option (Array α)} (h : Complete A b essential values)
    (same : ∀ i, i ∈ essential ↔ i ∈ essential') : Complete A b essential' values :=
  ⟨h.size, fun u hu i hi => h.values u hu i ((same i).2 hi)⟩

variable [Scalar.Exact α] {A : Triplets α} {b : Array α} {essential essential' : List ℕ}
  {values : Option (Array α)}

/-! ### Values -/

/-- The value that an essential unknown takes. -/
def essentialValue (values : Option (Array α)) (i : ℕ) : α :=
  match values with
  | some u => u.getD i 0
  | none => 0

omit [Scalar.Exact α] in
lemma mapM_eq_none {β : Type} {l : List ℕ} {g : ℕ → Option β} {i : ℕ} (hi : i ∈ l)
    (h : g i = none) : l.mapM g = none := by
  induction l with
  | nil => cases hi
  | cons k l ih =>
    rw [List.mapM_cons]
    rcases List.mem_cons.1 hi with rfl | hi
    · rw [h]
      rfl
    · rw [ih hi]
      cases g k <;> rfl

lemma essentialValues?_eq_some (h : ∀ u, values = some u → ∀ i ∈ essential, i < u.size) :
    essentialValues? essential values =
      some (essential.map fun i => (i, essentialValue values i)) := by
  refine mapM_eq_some_map fun i hi => ?_
  cases values with
  | none => rfl
  | some u =>
    have there := h u rfl i hi
    simp [essentialValue, there]

lemma essentialValues?_eq_none {u : Array α} {i : ℕ} (hi : i ∈ essential) (missing : u.size ≤ i) :
    essentialValues? essential (some u) = none :=
  mapM_eq_none hi (by simp [missing])

/-! ### The system -/

lemma singleValued_values : SingleValued (essential.map fun i => (i, essentialValue values i)) := by
  intro i v w hv hw
  obtain ⟨k, -, hk⟩ := List.mem_map.1 hv
  obtain ⟨l, -, hl⟩ := List.mem_map.1 hw
  obtain ⟨rfl, rfl⟩ := Prod.mk.inj hk
  obtain ⟨rfl, rfl⟩ := Prod.mk.inj hl
  rfl

lemma map_fst_values :
    (essential.map fun i => (i, essentialValue values i)).map (·.1) = essential := by
  rw [List.map_map]
  exact List.map_id' essential

lemma linearSystem?_eq_some (square : A.rows = A.cols) (inside : ∀ i ∈ essential, i < A.rows)
    (complete : Complete A b essential values) :
    ∃ c, linearSystem? A b essential values =
        some (((A.clear (Triplets.touches essential)).pushUnits essential).toCsr, c) ∧
      Triplets.Reduces A (essential.map fun i => (i, essentialValue values i)) b c := by
  have within : ∀ p ∈ essential.map fun i => (i, essentialValue values i), p.1 < A.rows := by
    intro p hp
    obtain ⟨i, hi, rfl⟩ := List.mem_map.1 hp
    exact inside i hi
  obtain ⟨c, fixed, reduces⟩ :=
    Triplets.fixDofs_eq_some square complete.size within singleValued_values
  rw [map_fst_values] at fixed
  refine ⟨c, ?_, reduces⟩
  unfold linearSystem?
  rw [essentialValues?_eq_some complete.values]
  dsimp only [bind, Option.bind]
  rw [fixed]
  rfl

lemma linearSystem?_eq_none (incomplete : ¬Complete A b essential values) :
    linearSystem? A b essential values = none := by
  unfold linearSystem?
  by_cases provided : ∀ u, values = some u → ∀ i ∈ essential, i < u.size
  · have unfit : b.size ≠ A.rows := fun size => incomplete ⟨size, provided⟩
    rw [essentialValues?_eq_some provided]
    dsimp only [bind, Option.bind]
    rw [Triplets.fixDofs, if_neg fun h => unfit h.2]
  · push Not at provided
    obtain ⟨u, rfl, i, hi, missing⟩ := provided
    rw [essentialValues?_eq_none hi missing]
    rfl

lemma reduces_unique (same : ∀ i, i ∈ essential ↔ i ∈ essential') {c c' : Array α}
    (h : Triplets.Reduces A (essential.map fun i => (i, essentialValue values i)) b c)
    (h' : Triplets.Reduces A (essential'.map fun i => (i, essentialValue values i)) b c') :
    c = c' := by
  have alike (p : ℕ × α) : p ∈ (essential.map fun i => (i, essentialValue values i)) ↔
      p ∈ essential'.map fun i => (i, essentialValue values i) := by
    simp only [List.mem_map, same]
  exact h.unique (h'.congr singleValued_values alike)

lemma entry_system (square : A.rows = A.cols) (inside : ∀ i ∈ essential, i < A.rows) (i j : ℕ) :
    ((A.clear (Triplets.touches essential)).pushUnits essential).toCsr.entry i j =
      if i ∈ essential ∨ j ∈ essential then if i = j then (essential.count i : α) else 0
      else A.entry i j := by
  rw [Triplets.entry_toCsr, Triplets.entry_fixed square inside]

lemma rows_system (square : A.rows = A.cols) (inside : ∀ i ∈ essential, i < A.rows) :
    ((A.clear (Triplets.touches essential)).pushUnits essential).toCsr.rows = A.rows :=
  (Triplets.rows_toCsr _).trans
    (Triplets.pushUnits_eq (A := A.clear (Triplets.touches essential)) square inside).1

lemma cols_system (square : A.rows = A.cols) (inside : ∀ i ∈ essential, i < A.rows) :
    ((A.clear (Triplets.touches essential)).pushUnits essential).toCsr.cols = A.cols :=
  (Triplets.pushUnits_eq (A := A.clear (Triplets.touches essential)) square inside).2.1

/-- **The solutions of the system.** They have the given values and satisfy the equations of the
free unknowns. -/
lemma exists_linearSystem? (square : A.rows = A.cols) (nodup : essential.Nodup)
    (inside : ∀ i ∈ essential, i < A.rows) (complete : Complete A b essential values) :
    ∃ C c, linearSystem? A b essential values = some (C, c) ∧ C.rows = A.rows ∧ C.cols = A.cols ∧
      ∀ x : Array α, x.size = A.rows → (C.mulVec x = c ↔
        (∀ i ∈ essential, x.getD i 0 = essentialValue values i) ∧
        ∀ i < A.rows, i ∉ essential →
          ∑ j ∈ Finset.range A.rows, A.entry i j * x.getD j 0 = b.getD i 0) := by
  obtain ⟨c, system, reduces⟩ := linearSystem?_eq_some square inside complete
  have listed : (essential.map fun i => (i, essentialValue values i)).map (·.1) = essential :=
    map_fst_values
  refine ⟨_, c, system, rows_system square inside, cols_system square inside, fun x size => ?_⟩
  have solved := Triplets.mulVec_fixed_eq_iff square complete.size (listed.symm ▸ inside)
    (listed.symm ▸ nodup) reduces size
  rw [listed] at solved
  rw [solved, List.forall_mem_map]
  refine and_congr (forall₂_congr fun i hi => ?_) (forall₃_congr fun i hi _ => ?_)
  · rw [Coords.getElem?_eq_some_iff_getD (size ▸ inside i hi)]
  · have value : b[i]? = some (b.getD i 0) :=
      (Coords.getElem?_eq_some_iff_getD (complete.size ▸ hi)).2 rfl
    rw [value, Coords.getElem?_eq_some_iff_getD (by rwa [Triplets.size_mulVec_toCsr]),
      Csr.mulVec_getD_eq_sum]
    simp only [Triplets.entry_toCsr, square]
    rfl

lemma entry_system_eq_iff (square : A.rows = A.cols) (inside : ∀ i ∈ essential, i < A.rows)
    (same : ∀ i, i ∈ essential ↔ i ∈ essential') :
    (∀ i j, ((A.clear (Triplets.touches essential)).pushUnits essential).toCsr.entry i j =
      ((A.clear (Triplets.touches essential')).pushUnits essential').toCsr.entry i j) ↔
    essential.Perm essential' := by
  have inside' : ∀ i ∈ essential', i < A.rows := fun i hi => inside i ((same i).2 hi)
  rw [List.perm_iff_count]
  constructor
  · intro h i
    by_cases hi : i ∈ essential
    · have diagonal := h i i
      rw [entry_system square inside, entry_system square inside', if_pos (.inl hi), if_pos rfl,
        if_pos (.inl ((same i).1 hi)), if_pos rfl] at diagonal
      exact Nat.cast_injective diagonal
    · rw [List.count_eq_zero_of_not_mem hi, List.count_eq_zero_of_not_mem (mt (same i).2 hi)]
  · intro h i j
    rw [entry_system square inside, entry_system square inside', h i]
    simp only [same]

lemma identity_system_iff (square : A.rows = A.cols) (inside : ∀ i ∈ essential, i < A.rows) :
    (∀ i j, i ∈ essential ∨ j ∈ essential →
      ((A.clear (Triplets.touches essential)).pushUnits essential).toCsr.entry i j =
        if i = j then 1 else 0) ↔ essential.Nodup := by
  constructor
  · intro h
    rw [List.nodup_iff_count_eq_one]
    intro i hi
    have diagonal := h i i (.inl hi)
    rw [entry_system square inside, if_pos (.inl hi), if_pos rfl, if_pos rfl] at diagonal
    exact Nat.cast_eq_one.1 diagonal
  · intro nodup i j h
    rw [Triplets.entry_toCsr, Triplets.identity_of_nodup square inside nodup h]

/-- **The essential unknowns count as often as they are listed.** Two lists of the same unknowns
give the same right-hand side, and the same matrix exactly if one is a rearrangement of the other;
the essential rows and columns are those of the identity exactly if nothing is listed twice. -/
theorem linearSystem?_of_members (A : Triplets α) (b : Array α) (values : Option (Array α))
    (square : A.rows = A.cols) (inside : ∀ i ∈ essential, i < A.rows)
    (same : ∀ i, i ∈ essential ↔ i ∈ essential') :
    (Complete A b essential values → ∃ C C' c,
      linearSystem? A b essential values = some (C, c) ∧
      linearSystem? A b essential' values = some (C', c) ∧
      (∀ i j, C.entry i j =
        if i ∈ essential ∨ j ∈ essential then if i = j then (essential.count i : α) else 0
        else A.entry i j) ∧
      ((∀ i j, C.entry i j = C'.entry i j) ↔ essential.Perm essential') ∧
      ((∀ i j, i ∈ essential ∨ j ∈ essential → C.entry i j = if i = j then 1 else 0) ↔
        essential.Nodup)) ∧
    (¬Complete A b essential values →
      linearSystem? A b essential values = none ∧ linearSystem? A b essential' values = none) := by
  refine ⟨fun complete => ?_, fun incomplete => ⟨linearSystem?_eq_none incomplete, ?_⟩⟩
  · obtain ⟨c, system, reduces⟩ := linearSystem?_eq_some square inside complete
    obtain ⟨c', system', reduces'⟩ := linearSystem?_eq_some square
      (fun i hi => inside i ((same i).2 hi)) (complete.of_members same)
    obtain rfl := reduces_unique same reduces reduces'
    exact ⟨_, _, c, system, system', entry_system square inside,
      entry_system_eq_iff square inside same, identity_system_iff square inside⟩
  · exact linearSystem?_eq_none fun complete =>
      incomplete (complete.of_members fun i => (same i).symm)

/-- The corner between two parts of a boundary is listed with each of them. -/
theorem linearSystem?_of_members_corner :
    Triplets.secondDifferences.rows = Triplets.secondDifferences.cols ∧
    (∀ i ∈ [0, 0, 2], i < Triplets.secondDifferences.rows) ∧
    (∀ i, i ∈ [0, 0, 2] ↔ i ∈ [2, 0]) ∧
    ∃ C C' c,
      linearSystem? Triplets.secondDifferences #[1, 1, 1] [0, 0, 2] none = some (C, c) ∧
      linearSystem? Triplets.secondDifferences #[1, 1, 1] [2, 0] none = some (C', c) ∧
      C.entry 0 0 = 2 ∧ ¬∀ i j, C.entry i j = C'.entry i j := by
  have inside : ∀ i ∈ [0, 0, 2], i < Triplets.secondDifferences.rows := by decide
  have same : ∀ i, i ∈ [0, 0, 2] ↔ i ∈ [2, 0] := by
    intro i
    simp only [List.mem_cons, List.not_mem_nil]
    tauto
  obtain ⟨C, C', c, system, system', entries, agree, -⟩ :=
    (linearSystem?_of_members Triplets.secondDifferences #[1, 1, 1] none rfl inside same).1
      ⟨rfl, fun _ h => nomatch h⟩
  refine ⟨rfl, inside, same, C, C', c, system, system', ?_, fun h => ?_⟩
  · rw [entries]
    rfl
  · exact absurd (agree.1 h).length_eq (by decide)

/-- The essential unknowns are not a set: one that is listed twice gets a two on the diagonal. -/
theorem not_linearSystem?_members :
    ¬∀ (A : Triplets ℚ) (b : Array ℚ) (essential essential' : List ℕ) (values : Option (Array ℚ)),
      A.rows = A.cols → (∀ i ∈ essential, i < A.rows) → (∀ i, i ∈ essential ↔ i ∈ essential') →
      ∀ C c C' c', linearSystem? A b essential values = some (C, c) →
        linearSystem? A b essential' values = some (C', c') →
        (∀ i j, C.entry i j = C'.entry i j) ∧ c = c' := by
  intro set
  have inside : ∀ i ∈ [0, 0], i < Triplets.secondDifferences.rows := by decide
  have same : ∀ i, i ∈ [0, 0] ↔ i ∈ [0] := by simp
  have complete : Complete Triplets.secondDifferences #[1, 1, 1] [0, 0] none :=
    ⟨rfl, fun _ h => nomatch h⟩
  obtain ⟨c, system, -⟩ := linearSystem?_eq_some rfl inside complete
  obtain ⟨c', system', -⟩ := linearSystem?_eq_some rfl (by decide) (complete.of_members same)
  have agree := (set _ _ _ _ _ rfl inside same _ _ _ _ system system').1
  exact absurd ((entry_system_eq_iff rfl inside same).1 agree).length_eq (by decide)

end Eigenmesh.LinearSpace
