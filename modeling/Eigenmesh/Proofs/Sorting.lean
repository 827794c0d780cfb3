import Mathlib.Tactic.Common
import Eigenmesh.Scalar.Double
import Eigenmesh.Solver.Selection

/-!
Sorting by preference.

Numbers are ranked by a total order, and pairs by the numbers that a choice of eigenvalues looks at,
so that different pairs may tie. A stable sort leaves what ties in the order that it came in.
-/

namespace Eigenmesh

/-- A list in order, with those that tie in the order of the other list. -/
structure StableSort {β : Type} (le : β → β → Bool) (before after : List β) : Prop where
  perm : after.Perm before
  ordered : after.Pairwise fun x y => le x y = true
  ties : ∀ x, after.filter (fun y => le x y && le y x) = before.filter fun y => le x y && le y x

lemma stableSort_mergeSort {β : Type} {le : β → β → Bool}
    (trans : ∀ x y z, le x y = true → le y z = true → le x z = true)
    (total : ∀ x y, (le x y || le y x) = true) (l : List β) : StableSort le l (l.mergeSort le) where
  perm := List.mergeSort_perm l le
  ordered := List.pairwise_mergeSort trans total l
  ties x := by
    have tied : (l.filter fun y => le x y && le y x).Pairwise fun y z => le y z = true := by
      refine List.pairwise_of_forall_mem_list fun y hy z hz => ?_
      obtain ⟨-, hy⟩ := List.mem_filter.1 hy
      obtain ⟨-, hz⟩ := List.mem_filter.1 hz
      rw [Bool.and_eq_true] at hy hz
      exact trans y x z hy.2 hz.1
    have kept := (List.sublist_mergeSort trans total tied List.filter_sublist).filter
      fun y => le x y && le y x
    rw [List.filter_filter] at kept
    simp only [Bool.and_self] at kept
    exact (kept.eq_of_length ((List.mergeSort_perm l le).filter _).length_eq.symm).symm

lemma StableSort.first_le {β : Type} {le : β → β → Bool} {before after : List β}
    (s : StableSort le before after) (n : Nat) :
    ∀ x ∈ after.take n, ∀ y ∈ after.drop n, le x y = true := by
  have ordered := s.ordered
  rw [← List.take_append_drop n after, List.pairwise_append] at ordered
  exact ordered.2.2

/-- The ranking of numbers is a total order up to ties. -/
class Scalar.Ranked (α : Type) [Scalar α] : Prop where
  total : ∀ a b : α, (Scalar.ranks a b || Scalar.ranks b a) = true
  trans : ∀ a b c : α, Scalar.ranks a b = true → Scalar.ranks b c = true → Scalar.ranks a c = true

/-- Doubles are ranked by their bits, so also those that are not numbers. -/
instance : Scalar.Ranked Float where
  total a b := by
    change (decide (Double.rank a ≤ Double.rank b) || decide (Double.rank b ≤ Double.rank a)) = true
    rw [Bool.or_eq_true, decide_eq_true_eq, decide_eq_true_eq]
    exact Int.le_total _ _
  trans a b c := by
    change decide (Double.rank a ≤ Double.rank b) = true →
      decide (Double.rank b ≤ Double.rank c) = true → decide (Double.rank a ≤ Double.rank c) = true
    simp only [decide_eq_true_eq]
    exact Int.le_trans

namespace Which

variable {α : Type} [Scalar α] [Scalar.Ranked α] (which : Which) (target : α)

lemma prefers_total (z w : Cplx α) :
    (which.prefers target z w || which.prefers target w z) = true :=
  Scalar.Ranked.total _ _

lemma prefers_trans (z w u : Cplx α) :
    which.prefers target z w = true → which.prefers target w u = true →
      which.prefers target z u = true :=
  Scalar.Ranked.trans _ _ _

end Which

end Eigenmesh
