import Mathlib.Data.Finset.Card
import Mathlib.Data.List.Sort
import Mathlib.Tactic.Common
import Eigenmesh.Mesh.Simplicial
import Eigenmesh.Proofs.Mesh.Counting

/-!
The sides of a mesh.

Sorted corners do not tell how a cell is oriented, and in a sorted list of sides those that occur
once are the ones without an equal neighbour.
-/

namespace Eigenmesh

namespace Simplex

variable {β γ : Type}

lemma mem_sides {s l : List β} :
    s ∈ sides l ↔ ∃ before v after, l = before ++ v :: after ∧ s = before ++ after := by
  induction l generalizing s with
  | nil => simp [sides]
  | cons w l ih =>
    rw [sides, List.mem_cons, List.mem_map]
    constructor
    · rintro (rfl | ⟨s, hs, rfl⟩)
      · exact ⟨[], w, s, rfl, rfl⟩
      · obtain ⟨before, v, after, rfl, rfl⟩ := ih.1 hs
        exact ⟨w :: before, v, after, rfl, rfl⟩
    · rintro ⟨_ | ⟨u, before⟩, v, after, hl, rfl⟩
      · exact .inl (List.cons.inj hl).2.symm
      · obtain ⟨rfl, rfl⟩ := List.cons.inj hl
        exact .inr ⟨before ++ after, ih.2 ⟨before, v, after, rfl, rfl⟩, rfl⟩

lemma mem_sides_iff_sublist {s l : List β} :
    s ∈ sides l ↔ s.Sublist l ∧ s.length + 1 = l.length := by
  rw [mem_sides]
  constructor
  · rintro ⟨before, v, after, rfl, rfl⟩
    exact ⟨(List.sublist_cons_self v after).append_left before, by simp; omega⟩
  · rintro ⟨hs, length⟩
    induction hs with
    | slnil => simp at length
    | @cons s l v hs _ =>
      obtain rfl := hs.eq_of_length (Nat.succ.inj length)
      exact ⟨[], v, s, rfl, rfl⟩
    | @cons_cons s l w hs ih =>
      obtain ⟨before, v, after, rfl, rfl⟩ := ih (Nat.succ.inj length)
      exact ⟨w :: before, v, after, rfl, rfl⟩

lemma sides_map (f : β → γ) (l : List β) : sides (l.map f) = (sides l).map (List.map f) := by
  induction l with
  | nil => rfl
  | cons v l ih =>
    rw [List.map_cons, sides, ih, sides, List.map_cons, List.map_map, List.map_map]
    rfl

lemma subset_toFinset_iff [DecidableEq β] {cell : List β} (hcell : cell.Nodup) {side : Finset β}
    (card : side.card + 1 = cell.length) :
    side ⊆ cell.toFinset ↔ ∃ s ∈ sides cell, s.toFinset = side := by
  constructor
  · intro hsub
    have corners : (cell.filter (· ∈ side)).toFinset = side := by
      rw [List.toFinset_filter]
      simpa using Finset.filter_mem_eq_inter.trans (Finset.inter_eq_right.2 hsub)
    refine ⟨cell.filter (· ∈ side), mem_sides_iff_sublist.2 ⟨List.filter_sublist, ?_⟩, corners⟩
    rw [← List.toFinset_card_of_nodup (hcell.filter _), corners, card]
  · rintro ⟨s, hs, rfl⟩ v hv
    rw [List.mem_toFinset] at hv ⊢
    exact (mem_sides_iff_sublist.1 hs).1.subset hv

end Simplex

namespace SimplicialMesh

/-! ### Sorting corners -/

lemma sorted_perm (l : List ℕ) : (sorted l).Perm l := List.mergeSort_perm l _

lemma pairwise_sorted (l : List ℕ) : (sorted l).Pairwise (· ≤ ·) := by
  have h := @List.pairwise_mergeSort ℕ (fun a b => decide (a ≤ b))
    (fun a b c => by simpa using Nat.le_trans) (fun a b => by simpa using Nat.le_total a b) l
  simpa only [sorted, decide_eq_true_eq] using h

lemma sorted_of_pairwise {l : List ℕ} (h : l.Pairwise (· ≤ ·)) : sorted l = l :=
  List.mergeSort_of_pairwise (by simpa using h)

lemma sorted_congr {l l' : List ℕ} (h : l.Perm l') : sorted l = sorted l' :=
  List.Perm.eq_of_pairwise (fun _ _ _ _ => Nat.le_antisymm) (pairwise_sorted l) (pairwise_sorted l')
    ((sorted_perm l).trans (h.trans (sorted_perm l').symm))

lemma map_sorted_sides_perm {cell cell' : List ℕ} (h : cell.Perm cell') :
    ((Simplex.sides cell).map sorted).Perm ((Simplex.sides cell').map sorted) := by
  have cons_sorted (v : ℕ) (s : List (List ℕ)) :
      (s.map (v :: ·)).map sorted = (s.map sorted).map fun t => sorted (v :: t) := by
    rw [List.map_map, List.map_map]
    exact List.map_congr_left fun t _ => sorted_congr ((sorted_perm t).symm.cons v)
  induction h with
  | nil => exact .refl _
  | @cons v l l' h ih =>
    rw [Simplex.sides, Simplex.sides, List.map_cons, List.map_cons, sorted_congr h, cons_sorted,
      cons_sorted]
    exact (ih.map _).cons _
  | @swap v w l =>
    have both : (Simplex.sides l).map (sorted ∘ (w :: ·) ∘ (v :: ·)) =
        (Simplex.sides l).map (sorted ∘ (v :: ·) ∘ (w :: ·)) :=
      List.map_congr_left fun t _ => sorted_congr (.swap v w t)
    simp only [Simplex.sides, List.map_cons, List.map_map, both]
    exact .swap _ _ _
  | trans _ _ ih ih' => exact ih.trans ih'

lemma nodup_map_sorted_sides {cell : List ℕ} (h : cell.Nodup) :
    ((Simplex.sides cell).map sorted).Nodup := by
  induction cell with
  | nil => exact List.nodup_nil
  | cons v cell ih =>
    obtain ⟨hv, hcell⟩ := List.nodup_cons.1 h
    rw [Simplex.sides, List.map_cons, List.map_map, List.nodup_cons]
    constructor
    · intro hmem
      obtain ⟨s, -, hs⟩ := List.mem_map.1 hmem
      have : v ∈ sorted (v :: s) := (sorted_perm _).mem_iff.2 List.mem_cons_self
      rw [Function.comp_apply] at hs
      exact hv ((sorted_perm cell).mem_iff.1 (hs ▸ this))
    · refine List.pairwise_map.2 ((List.pairwise_map.1 (ih hcell)).imp fun {s t} hne heq => hne ?_)
      have heq : sorted (v :: s) = sorted (v :: t) := heq
      exact sorted_congr ((List.perm_cons v).1
        ((sorted_perm (v :: s)).symm.trans (heq ▸ sorted_perm (v :: t))))

/-! ### Elements that occur once -/

section Singles

variable {β : Type} [DecidableEq β]

lemma singlesAfter_sublist {a : β} {single : Bool} {l : List β} :
    (singlesAfter a single l).Sublist (a :: l) := by
  induction l generalizing a single with
  | nil => cases single <;> simp [singlesAfter]
  | cons b l ih =>
    rw [singlesAfter]
    split
    · subst b
      exact ih.trans (List.sublist_cons_self a _)
    · split
      · exact ih.cons_cons a
      · exact ih.trans (List.sublist_cons_self a _)

lemma singles_sublist {l : List β} : (singles l).Sublist l := by
  cases l with
  | nil => exact List.Sublist.refl _
  | cons a l => exact singlesAfter_sublist

variable {le : β → β → Prop} (antisymm : ∀ a b, le a b → le b a → a = b)
include antisymm

lemma mem_singlesAfter {a x : β} {single : Bool} {l : List β} (h : (a :: l).Pairwise le) :
    x ∈ singlesAfter a single l ↔ x = a ∧ single = true ∧ a ∉ l ∨ x ≠ a ∧ l.count x = 1 := by
  induction l generalizing a single with
  | nil => cases single <;> simp [singlesAfter]
  | cons b l ih =>
    obtain ⟨ha, hbl⟩ := List.pairwise_cons.1 h
    rw [singlesAfter]
    split
    case isTrue hab =>
      subst b
      rw [ih hbl]
      by_cases hx : x = a
      · simp [hx]
      · simp [hx, List.count_cons_of_ne (Ne.symm hx)]
    case isFalse hab =>
      -- in a sorted list the element left behind does not come again
      have gone : a ∉ b :: l := fun hmem => by
        rcases List.mem_cons.1 hmem with rfl | hmem
        · exact hab rfl
        · exact hab (antisymm a b (ha b List.mem_cons_self)
            ((List.pairwise_cons.1 hbl).1 a hmem))
      have later : x ∈ singlesAfter b true l ↔ (b :: l).count x = 1 := by
        rw [ih hbl]
        by_cases hx : x = b
        · subst x
          simp [List.count_eq_zero]
        · simp [hx, List.count_cons_of_ne (Ne.symm hx)]
      have other (hx : (b :: l).count x = 1) : x ≠ a := by
        rintro rfl
        rw [List.count_eq_zero_of_not_mem gone] at hx
        exact absurd hx Nat.zero_ne_one
      split
      case isTrue hsingle => rw [List.mem_cons, later]; tauto
      case isFalse hsingle => rw [later]; tauto

lemma mem_singles {x : β} {l : List β} (h : l.Pairwise le) :
    x ∈ singles l ↔ l.countP (· = x) = 1 := by
  change _ ↔ l.count x = 1
  cases l with
  | nil => simp [singles]
  | cons a l =>
    rw [singles, mem_singlesAfter antisymm h]
    by_cases hx : x = a
    · subst x
      simp [List.count_eq_zero]
    · simp [hx, List.count_cons_of_ne (Ne.symm hx)]

lemma nodup_singles {l : List β} (h : l.Pairwise le) : (singles l).Nodup :=
  List.nodup_iff_count_le_one.2 fun x => by
    by_cases hx : x ∈ singles l
    · exact (singles_sublist.count_le x).trans_eq ((mem_singles antisymm h).1 hx)
    · rw [List.count_eq_zero_of_not_mem hx]
      exact Nat.zero_le 1

lemma length_singles {l : List β} (h : l.Pairwise le) :
    (singles l).length = l.countP fun x => l.countP (· = x) = 1 := by
  have once : (l.filter fun x => l.countP (· = x) = 1).Nodup :=
    List.nodup_iff_count_le_one.2 fun x => by
      by_cases hx : x ∈ l.filter fun x => l.countP (· = x) = 1
      · exact (List.filter_sublist.count_le x).trans_eq (of_decide_eq_true (List.mem_filter.1 hx).2)
      · rw [List.count_eq_zero_of_not_mem hx]
        exact Nat.zero_le 1
  rw [List.countP_eq_length_filter]
  refine ((List.perm_ext_iff_of_nodup (nodup_singles antisymm h) once).2 fun x => ?_).length_eq
  rw [List.mem_filter, mem_singles antisymm h, decide_eq_true_eq, iff_and_self]
  intro hx
  obtain ⟨y, hy, hyx⟩ := List.countP_pos_iff.1 (hx.symm ▸ Nat.one_pos)
  exact of_decide_eq_true hyx ▸ hy

end Singles

/-! ### The order of dictionaries -/

lemma precedes_total (s t : List ℕ) : (precedes s t || precedes t s) = true := by
  induction s generalizing t with
  | nil => rfl
  | cons a s ih =>
    cases t with
    | nil => rfl
    | cons b t =>
      have := ih t
      simp only [precedes, Bool.or_eq_true, Bool.and_eq_true, decide_eq_true_eq] at this ⊢
      rcases lt_trichotomy a b with hab | rfl | hab
      · exact .inl (.inl hab)
      · exact this.imp (fun h => .inr ⟨rfl, h⟩) fun h => .inr ⟨rfl, h⟩
      · exact .inr (.inl hab)

lemma precedes_trans {s t u : List ℕ} (hst : precedes s t = true) (htu : precedes t u = true) :
    precedes s u = true := by
  induction s generalizing t u with
  | nil => rfl
  | cons a s ih =>
    cases t with
    | nil => exact absurd hst Bool.false_ne_true
    | cons b t =>
      cases u with
      | nil => exact absurd htu Bool.false_ne_true
      | cons c u =>
        simp only [precedes, Bool.or_eq_true, Bool.and_eq_true, decide_eq_true_eq] at hst htu ⊢
        rcases hst with hab | ⟨rfl, hst⟩
        · left; omega
        · rcases htu with hbc | ⟨rfl, htu⟩
          · exact .inl hbc
          · exact .inr ⟨rfl, ih hst htu⟩

lemma precedes_antisymm (s t : List ℕ) (hst : precedes s t = true) (hts : precedes t s = true) :
    s = t := by
  induction s generalizing t with
  | nil =>
    cases t with
    | nil => rfl
    | cons b t => exact absurd hts Bool.false_ne_true
  | cons a s ih =>
    cases t with
    | nil => exact absurd hst Bool.false_ne_true
    | cons b t =>
      simp only [precedes, Bool.or_eq_true, Bool.and_eq_true, decide_eq_true_eq] at hst hts
      obtain rfl : a = b := by omega
      rw [ih t (by simpa using hst) (by simpa using hts)]

lemma pairwise_sides (cells : List (List ℕ)) :
    (sides cells).Pairwise fun s t => precedes s t = true :=
  @List.pairwise_mergeSort _ precedes (fun _ _ _ => precedes_trans) precedes_total _

lemma sides_map_of_perm {cells : List (List ℕ)} {f : List ℕ → List ℕ}
    (h : ∀ cell ∈ cells, (f cell).Perm cell) : sides (cells.map f) = sides cells := by
  refine List.Perm.eq_of_pairwise (fun s t _ _ => precedes_antisymm s t) (pairwise_sides _)
    (pairwise_sides cells) ?_
  refine (List.mergeSort_perm _ _).trans (.trans ?_ (List.mergeSort_perm _ _).symm)
  rw [List.map_flatMap, List.map_flatMap, List.flatMap_map]
  exact List.Perm.flatMap_left _ fun cell hcell => map_sorted_sides_perm (h cell hcell)

/-! ### The cells at a side -/

/-- How many cells have the given corners. -/
def sharing (cells : List (List ℕ)) (side : Finset ℕ) : ℕ :=
  cells.countP fun cell => side ⊆ cell.toFinset

lemma sharing_map_of_perm {cells : List (List ℕ)} {f : List ℕ → List ℕ}
    (h : ∀ cell ∈ cells, (f cell).Perm cell) (side : Finset ℕ) :
    sharing (cells.map f) side = sharing cells side := by
  rw [sharing, List.countP_map]
  exact List.countP_congr fun cell hcell => by
    rw [Function.comp_apply, List.toFinset_eq_of_perm _ _ (h cell hcell)]

lemma mem_map_sorted_sides {s cell : List ℕ} (hcell : cell.Nodup) :
    s ∈ (Simplex.sides cell).map sorted ↔
      s.Pairwise (· < ·) ∧ s.length + 1 = cell.length ∧ s.toFinset ⊆ cell.toFinset := by
  have subset_iff : s.toFinset ⊆ cell.toFinset ↔ s ⊆ cell := by
    simp [Finset.subset_iff, List.subset_def]
  rw [List.mem_map, subset_iff]
  constructor
  · rintro ⟨t, ht, rfl⟩
    obtain ⟨hsub, length⟩ := Simplex.mem_sides_iff_sublist.1 ht
    have hnodup : (sorted t).Nodup := (sorted_perm t).nodup_iff.2 (hsub.nodup hcell)
    exact ⟨((pairwise_sorted t).and hnodup).imp fun h => lt_of_le_of_ne h.1 h.2,
      by rw [(sorted_perm t).length_eq, length],
      List.Subset.trans (sorted_perm t).subset hsub.subset⟩
  · rintro ⟨increasing, length, hsub⟩
    obtain ⟨t, hperm, ht⟩ := List.subperm_of_subset (increasing.imp ne_of_lt) hsub
    refine ⟨t, Simplex.mem_sides_iff_sublist.2 ⟨ht, by rw [hperm.length_eq, length]⟩, ?_⟩
    rw [sorted_congr hperm, sorted_of_pairwise (increasing.imp le_of_lt)]

section Sharing

variable {cells : List (List ℕ)} {dim : ℕ} (hcells : ∀ cell ∈ cells, cell.Nodup)
  (length : ∀ cell ∈ cells, cell.length = dim + 1)
include hcells length

lemma count_sides {s : List ℕ} (increasing : s.Pairwise (· < ·)) (hs : s.length = dim) :
    (sides cells).countP (· = s) = sharing cells s.toFinset := by
  rw [sides, (List.mergeSort_perm _ _).countP_eq, List.map_flatMap,
    countP_flatMap_of (q := fun cell => s.toFinset ⊆ cell.toFinset) (n := 1), sharing, Nat.mul_one]
  intro cell hcell
  -- no side comes twice in a cell, so each cell counts once
  have once : ((Simplex.sides cell).map sorted).countP (· = s) =
      if s ∈ (Simplex.sides cell).map sorted then 1 else 0 := by
    rw [← (nodup_map_sorted_sides (hcells cell hcell)).count]
    exact List.countP_congr fun t _ => by simp
  have mem := mem_map_sorted_sides (s := s) (hcells cell hcell)
  rw [hs, length cell hcell] at mem
  rw [once, if_congr mem rfl rfl]
  simp [increasing]

lemma increasing_of_mem_sides {s : List ℕ} (h : s ∈ sides cells) :
    s.Pairwise (· < ·) ∧ s.length = dim := by
  rw [sides, List.mem_mergeSort, List.map_flatMap] at h
  obtain ⟨cell, hcell, h⟩ := List.mem_flatMap.1 h
  obtain ⟨increasing, hlength, -⟩ := (mem_map_sorted_sides (hcells cell hcell)).1 h
  exact ⟨increasing, Nat.succ.inj (hlength.trans (length cell hcell))⟩

lemma mem_singles_sides {s : List ℕ} : s ∈ singles (sides cells) ↔
    s.Pairwise (· < ·) ∧ s.length = dim ∧ sharing cells s.toFinset = 1 := by
  rw [mem_singles precedes_antisymm (pairwise_sides cells)]
  constructor
  · intro h
    obtain ⟨t, mem, ht⟩ := List.countP_pos_iff.1 (h.symm ▸ Nat.one_pos)
    obtain rfl := of_decide_eq_true ht
    obtain ⟨increasing, hlength⟩ := increasing_of_mem_sides hcells length mem
    exact ⟨increasing, hlength, (count_sides hcells length increasing hlength).symm.trans h⟩
  · rintro ⟨increasing, hlength, h⟩
    exact (count_sides hcells length increasing hlength).trans h

lemma length_singles_sides : (singles (sides cells)).length =
    (cells.flatMap Simplex.sides).countP fun s => sharing cells s.toFinset = 1 := by
  rw [length_singles precedes_antisymm (pairwise_sides cells)]
  trans (sides cells).countP fun s => sharing cells s.toFinset = 1
  · refine List.countP_congr fun s hs => ?_
    obtain ⟨increasing, hlength⟩ := increasing_of_mem_sides hcells length hs
    rw [count_sides hcells length increasing hlength]
  · rw [sides, (List.mergeSort_perm _ _).countP_eq, List.countP_map]
    refine List.countP_congr fun s _ => ?_
    rw [Function.comp_apply, List.toFinset_eq_of_perm _ _ (sorted_perm s)]

end Sharing

/-! ### Corners -/

lemma mem_eraseRepsBy_loop {x a : ℕ} {l acc : List ℕ} :
    x ∈ List.eraseRepsBy.loop (· == ·) a l acc ↔ x ∈ acc ∨ x = a ∨ x ∈ l := by
  induction l generalizing a acc with
  | nil => simp [List.eraseRepsBy.loop]
  | cons b l ih =>
    rw [List.eraseRepsBy.loop]
    split
    case h_1 h => rw [ih, eq_of_beq h]; simp
    case h_2 h => rw [ih, List.mem_cons, List.mem_cons]; tauto

lemma pairwise_eraseRepsBy_loop {a : ℕ} {l acc : List ℕ} (hl : (a :: l).Pairwise (· ≤ ·))
    (hacc : (a :: acc).Pairwise (· > ·)) :
    (List.eraseRepsBy.loop (· == ·) a l acc).Pairwise (· < ·) := by
  induction l generalizing a acc with
  | nil => exact List.pairwise_reverse.2 hacc
  | cons b l ih =>
    rw [List.eraseRepsBy.loop]
    obtain ⟨ha, hbl⟩ := List.pairwise_cons.1 hl
    split
    case h_1 h => obtain rfl := eq_of_beq h; exact ih hbl hacc
    case h_2 h =>
      have hab : a < b := lt_of_le_of_ne (ha b List.mem_cons_self) (by simpa using h)
      refine ih hbl (List.pairwise_cons.2 ⟨fun c hc => ?_, hacc⟩)
      rcases List.mem_cons.1 hc with rfl | hc
      · exact hab
      · exact lt_trans ((List.pairwise_cons.1 hacc).1 c hc) hab

lemma mem_corners {facets : List Facet} {v : ℕ} :
    v ∈ corners facets ↔ ∃ f ∈ facets, v ∈ f.vertices := by
  rw [← List.mem_flatMap, ← (sorted_perm (facets.flatMap (·.vertices))).mem_iff, corners]
  cases sorted (facets.flatMap (·.vertices)) with
  | nil => rfl
  | cons a l => exact mem_eraseRepsBy_loop.trans (by simp)

lemma pairwise_corners (facets : List Facet) : (corners facets).Pairwise (· < ·) := by
  have h := pairwise_sorted (facets.flatMap (·.vertices))
  rw [corners]
  revert h
  cases sorted (facets.flatMap (·.vertices)) with
  | nil => exact fun _ => List.Pairwise.nil
  | cons a l => exact fun h => pairwise_eraseRepsBy_loop h (List.pairwise_singleton _ a)

end SimplicialMesh

end Eigenmesh
