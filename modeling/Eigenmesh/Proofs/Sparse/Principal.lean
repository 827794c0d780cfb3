import Mathlib.Algebra.Order.Field.Basic
import Mathlib.Data.List.GetD
import Mathlib.Tactic.Common
import Eigenmesh.Patches
import Eigenmesh.Proofs.Dense
import Eigenmesh.Proofs.Sparse.Sums

/-!
The rows and columns of a sparse matrix at listed unknowns.

In an increasing list halving finds every number that is there. So each stored entry of a row is
added at the place of its column, if the list has that column, and no other.
-/

namespace Eigenmesh

namespace Search

variable {xs : Array ℕ} {key i : ℕ}

lemma getD_lt_getD (sorted : xs.toList.Pairwise (· < ·)) {j k : ℕ} (hk : k < xs.size)
    (h : j < k) : xs.getD j 0 < xs.getD k 0 := by
  rw [Array.getD_eq_getD_getElem?, Array.getD_eq_getD_getElem?,
    Array.getElem?_eq_getElem (h.trans hk), Array.getElem?_eq_getElem hk]
  exact List.pairwise_iff_getElem.1 sorted j k (h.trans hk) hk h

lemma floor_eq (sorted : xs.toList.Pairwise (· < ·)) (hi : xs[i]? = some key) {base size : ℕ}
    (low : base ≤ i) (high : i < base + size) (inside : base + size ≤ xs.size) :
    floor xs key base size = i := by
  have there : i < xs.size := (Array.getElem?_eq_some_iff.1 hi).1
  have value : xs.getD i 0 = key := by simp [Array.getD_eq_getD_getElem?, hi]
  fun_induction floor xs key base size with
  | case1 base size small => omega
  | case2 base size large half ih =>
    have halves : half = size / 2 := rfl
    by_cases below : key < xs.getD (base + half) 0
    · rw [dif_pos below] at ih
      rw [if_pos below]
      have before : i < base + half := by
        by_contra after
        rcases Nat.eq_or_lt_of_le (not_lt.1 after) with rfl | after
        · omega
        · have := getD_lt_getD sorted there after
          omega
      exact ih low (by omega) (by omega)
    · rw [dif_neg below] at ih
      rw [if_neg below]
      have after : base + half ≤ i := by
        by_contra before
        have := getD_lt_getD sorted (show base + half < xs.size by omega) (not_le.1 before)
        omega
      exact ih after (by omega) (by omega)

lemma place?_eq_some_iff (sorted : xs.toList.Pairwise (· < ·)) :
    place? xs key = some i ↔ xs[i]? = some key := by
  have unfolded : place? xs key =
    if xs[floor xs key 0 xs.size]? = some key then some (floor xs key 0 xs.size) else none := rfl
  rw [unfolded]
  constructor
  · intro h
    obtain ⟨found, place⟩ := Option.ite_none_right_eq_some.1 h
    rwa [← Option.some.inj place]
  · intro h
    have there : i < xs.size := (Array.getElem?_eq_some_iff.1 h).1
    rw [floor_eq sorted h (Nat.zero_le i) (by omega) (Nat.zero_add _).le, if_pos h]

end Search

namespace Csr

variable {α : Type} [Scalar.Exact α] {A : Csr α} {dofs : List ℕ}

/-- Adds a stored value of a row at the place of its column, if it has one. -/
def addPlaced (places : Array ℕ) (line : Array α) (e : ℕ × α) : Array α :=
  match Search.place? places e.1 with
  | some b => line.modify b (· + e.2)
  | none => line

lemma size_addPlaced {places : Array ℕ} {line : Array α} {e : ℕ × α} :
    (addPlaced places line e).size = line.size := by
  unfold addPlaced
  split
  · exact Array.size_modify
  · rfl

lemma getD_addPlaced (sorted : dofs.Pairwise (· < ·)) {b : ℕ} (hb : b < dofs.length)
    {line : Array α} (size : line.size = dofs.length) (e : ℕ × α) :
    (addPlaced dofs.toArray line e).getD b 0 =
      line.getD b 0 + e.2 * if e.1 = dofs[b] then 1 else 0 := by
  have found (c : ℕ) : Search.place? dofs.toArray e.1 = some c ↔ dofs[c]? = some e.1 := by
    rw [Search.place?_eq_some_iff (by simpa using sorted), List.getElem?_toArray]
  have here : e.1 = dofs[b] ↔ Search.place? dofs.toArray e.1 = some b := by
    rw [found, List.getElem?_eq_getElem hb, Option.some.injEq, eq_comm]
  rw [if_congr here rfl rfl, addPlaced]
  cases Search.place? dofs.toArray e.1 with
  | none => simp
  | some c =>
    have inside : b < line.size := size ▸ hb
    dsimp only
    rw [Coords.getD_modify _ _ _ inside]
    by_cases h : c = b <;> simp [h]

lemma getD_foldl_addPlaced (sorted : dofs.Pairwise (· < ·)) {b : ℕ} (hb : b < dofs.length)
    (row : List (ℕ × α)) {line : Array α} (size : line.size = dofs.length) :
    (row.foldl (addPlaced dofs.toArray) line).getD b 0 =
      line.getD b 0 + Row.weigh (fun j => if j = dofs[b] then 1 else 0) row := by
  induction row generalizing line with
  | nil => simp
  | cons e row ih =>
    rw [List.foldl_cons, ih (size_addPlaced.trans size), getD_addPlaced sorted hb size,
      Row.weigh_cons, add_assoc]

lemma entry_principal (sorted : dofs.Pairwise (· < ·)) {a b : ℕ} (ha : a < dofs.length)
    (hb : b < dofs.length) : (A.principal dofs).entry a b = A.entry dofs[a] dofs[b] := by
  rw [principal, Dense.entry_ofFn _ ha hb, entry_eq_weigh]
  have line : (dofs.map fun i => (A.row i).foldl (addPlaced dofs.toArray)
      (Array.replicate dofs.length (0 : α))).toArray.getD a #[] =
        (A.row dofs[a]).foldl (addPlaced dofs.toArray) (Array.replicate dofs.length 0) := by
    simp [ha]
  change ((dofs.map fun i => (A.row i).foldl (addPlaced dofs.toArray)
    (Array.replicate dofs.length (0 : α))).toArray.getD a #[]).getD b 0 = _
  rw [line, getD_foldl_addPlaced sorted hb _ Array.size_replicate, Coords.getD_replicate_zero,
    zero_add]

lemma entry_principal_getD (sorted : dofs.Pairwise (· < ·)) {a b : ℕ} (ha : a < dofs.length)
    (hb : b < dofs.length) :
    (A.principal dofs).entry a b = A.entry (dofs.getD a 0) (dofs.getD b 0) := by
  rw [entry_principal sorted ha hb, List.getD_eq_getElem _ 0 ha, List.getD_eq_getElem _ 0 hb]

end Csr

end Eigenmesh
