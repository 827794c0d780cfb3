import Mathlib.Data.Nat.Notation
import Mathlib.Tactic.Common
import Eigenmesh.Sparse.Quicksort

/-!
Sorting keeps what is sorted.

Insertion, networks, heaps and partitions all work by exchanging entries of the array, so what comes
out is a rearrangement of what went in. Nothing here depends on what entries are compared by.
-/

namespace Eigenmesh.Quicksort

variable {α : Type} {less : α → α → Bool} {a b : Array α}

lemma swapIfInBounds_perm (a : Array α) (i j : ℕ) : (a.swapIfInBounds i j).Perm a := by
  unfold Array.swapIfInBounds
  split
  · split
    · exact Array.swap_perm _ _
    · exact .refl _
  · exact .refl _

lemma fold_perm {n : ℕ} {f : (i : ℕ) → i < n → Array α → Array α}
    (h : ∀ i hi a, (f i hi a).Perm a) (a : Array α) : (n.fold f a).Perm a := by
  induction n with
  | zero => exact .refl _
  | succ n ih =>
    rw [Nat.fold_succ]
    exact (h _ _ _).trans (ih fun i hi a => h i _ a)

/-! ### Insertion and networks -/

lemma sink_perm (lo k : ℕ) (a : Array α) : (sink less lo k a).Perm a := by
  induction k generalizing a with
  | zero => exact .refl _
  | succ k ih =>
    unfold sink
    split
    · exact (ih _).trans (swapIfInBounds_perm _ _ _)
    · exact .refl _

lemma insertFrom_perm (lo sorted len : ℕ) (a : Array α) :
    (insertFrom less lo sorted len a).Perm a :=
  fold_perm (fun _ _ _ => sink_perm _ _ _) a

lemma compareExchange_perm (i j : ℕ) (a : Array α) : (compareExchange less i j a).Perm a := by
  unfold compareExchange
  split
  · exact swapIfInBounds_perm _ _ _
  · exact .refl _

lemma runNetwork_perm (network : List (ℕ × ℕ)) (lo : ℕ) (a : Array α) :
    (runNetwork less network lo a).Perm a := by
  induction network generalizing a with
  | nil => exact .refl _
  | cons p network ih => exact (ih _).trans (compareExchange_perm _ _ _)

lemma sortRegion_perm (lo len : ℕ) (a : Array α) : (sortRegion less lo len a).Perm a := by
  unfold sortRegion
  split
  · exact (insertFrom_perm _ _ _ _).trans (runNetwork_perm _ _ _)
  · split
    · exact (insertFrom_perm _ _ _ _).trans (runNetwork_perm _ _ _)
    · exact insertFrom_perm _ _ _ _

lemma sortSmall_perm (lo len : ℕ) (a : Array α) : (sortSmall less lo len a).Perm a := by
  unfold sortSmall
  split
  · exact sortRegion_perm _ _ _
  · exact (insertFrom_perm _ _ _ _).trans
      ((sortRegion_perm _ _ _).trans (sortRegion_perm _ _ _))

/-! ### Heaps -/

lemma siftDown_perm (lo size fuel node : ℕ) (a : Array α) :
    (siftDown less lo size fuel node a).Perm a := by
  induction fuel generalizing node a with
  | zero => exact .refl _
  | succ fuel ih =>
    have moved (child : ℕ) :
        (if lessAt less a (lo + node) (lo + child) then
          siftDown less lo size fuel child (a.swapIfInBounds (lo + node) (lo + child))
        else a).Perm a := by
      split
      · exact (ih _ _).trans (swapIfInBounds_perm _ _ _)
      · exact .refl _
    unfold siftDown
    dsimp only
    by_cases bottom : size ≤ 2 * node + 1
    · rw [if_pos bottom]
    · rw [if_neg bottom]
      exact moved _

lemma heapSort_perm (lo len : ℕ) (a : Array α) : (heapSort less lo len a).Perm a :=
  (fold_perm (fun _ _ _ => (siftDown_perm _ _ _ _ _).trans (swapIfInBounds_perm _ _ _)) _).trans
    (fold_perm (fun _ _ _ => siftDown_perm _ _ _ _ _) a)

/-! ### Partitions -/

lemma partition_perm (isLeft : Array α → ℕ → Bool) (lo len pivot : ℕ) (a : Array α) :
    (partition isLeft lo len pivot a).1.Perm a := by
  -- The counter beside the array only tells where to exchange.
  have pass : ∀ (n : ℕ) (s : Array α × ℕ),
      (n.fold (fun t _ (s : Array α × ℕ) =>
        let a := s.1
        let left := s.2
        let r := lo + 2 + t
        let a' := (a.swapIfInBounds (lo + 1 + left) (r - 1)).swapIfInBounds (lo + 1 + left) r
        (a', if isLeft a r then left + 1 else left)) s).1.Perm s.1 := by
    intro n s
    induction n with
    | zero => exact .refl _
    | succ n ih =>
      rw [Nat.fold_succ]
      exact (swapIfInBounds_perm _ _ _).trans ((swapIfInBounds_perm _ _ _).trans ih)
  exact (swapIfInBounds_perm _ _ _).trans ((swapIfInBounds_perm _ _ _).trans
    ((pass _ _).trans (swapIfInBounds_perm _ _ _)))

lemma sortStretch_perm (limit : ℕ) (hasAncestor : Bool) (lo len : ℕ) (a : Array α) :
    (sortStretch less limit hasAncestor lo len a).Perm a := by
  induction limit generalizing hasAncestor lo len a with
  | zero =>
    unfold sortStretch
    split
    · exact sortSmall_perm _ _ _
    · exact heapSort_perm _ _ _
  | succ limit ih =>
    unfold sortStretch
    split
    · exact sortSmall_perm _ _ _
    · dsimp only
      split
      · exact (ih _ _ _ _).trans (partition_perm _ _ _ _ _)
      · exact (ih _ _ _ _).trans ((ih _ _ _ _).trans (partition_perm _ _ _ _ _))

/-- **Sorting rearranges**, whatever is compared. -/
theorem sort_perm (less : α → α → Bool) (a : Array α) : (sort less a).Perm a := by
  unfold sort
  dsimp only
  split
  · exact insertFrom_perm _ _ _ _
  · split
    · exact .refl _
    · split
      · exact Array.perm_iff_toList_perm.2 (by
          rw [Array.toList_reverse]
          exact List.reverse_perm _)
      · exact sortStretch_perm _ _ _ _ _

end Eigenmesh.Quicksort
