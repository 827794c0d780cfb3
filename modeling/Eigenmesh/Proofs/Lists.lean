import Mathlib.Algebra.BigOperators.Fin
import Mathlib.Algebra.BigOperators.Group.Finset.Piecewise
import Mathlib.Data.List.Forall2
import Mathlib.Data.List.Induction
import Mathlib.Data.Nat.Cast.Basic
import Mathlib.Tactic.Common

/-!
Sums over lists, and computations made for every element of a list.
-/

namespace Eigenmesh

variable {α β γ : Type}

lemma sum_flatMap [AddMonoid α] (l : List β) (f : β → List γ) (g : γ → α) :
    ((l.flatMap f).map g).sum = (l.map fun x => ((f x).map g).sum).sum := by
  induction l with
  | nil => rfl
  | cons x l ih => simp [ih]

lemma sum_list_sum {ι : Type} [AddCommMonoid α] (s : Finset ι) (l : List β) (f : ι → β → α) :
    ∑ i ∈ s, (l.map (f i)).sum = (l.map fun x => ∑ i ∈ s, f i x).sum := by
  induction l with
  | nil => simp
  | cons x l ih => simp only [List.map_cons, List.sum_cons, Finset.sum_add_distrib, ih]

lemma sum_filterMap [AddMonoid α] (l : List β) (f : β → Option γ) (g : γ → α) :
    ((l.filterMap f).map g).sum = (l.map fun x => (f x).elim 0 g).sum := by
  induction l with
  | nil => rfl
  | cons x l ih => cases h : f x <;> simp [h, ih]

lemma map_zipIdx {l : List β} {f : β × ℕ → γ} {g : β → γ} (h : ∀ x ∈ l.zipIdx, f x = g x.1) :
    l.zipIdx.map f = l.map g := by
  rw [List.map_congr_left h]
  conv_rhs => rw [← List.zipIdx_map_fst 0 l, List.map_map]
  rfl

lemma sum_zipIdx_eq_sum [AddCommMonoid α] (l : List β) (f : β × ℕ → α) :
    (l.zipIdx.map f).sum = ∑ a : Fin l.length, f (l[a], a) := by
  rw [← Fin.sum_univ_fun_getElem]
  exact Fintype.sum_equiv (finCongr List.length_zipIdx) _ _ fun a => by simp

lemma filterMap_zipIdx {f : β × ℕ → Option γ} {p : β → Bool} {g : β → γ}
    (h : ∀ x, f x = if p x.1 then some (g x.1) else none) (l : List β) :
    l.zipIdx.filterMap f = (l.filter p).map g := by
  have elements : f = (fun x => if p x then some (g x) else none) ∘ Prod.fst := funext h
  rw [elements, ← List.filterMap_map, List.zipIdx_map_fst, ← List.filterMap_filter,
    ← List.filterMap_eq_map]
  rfl

lemma sum_zipIdx_ite [AddCommMonoid α] (l : List β) (i : ℕ) (f : β → α) :
    (l.zipIdx.map fun x => if x.2 = i then f x.1 else 0).sum = (l[i]?.map f).getD 0 := by
  induction l using List.reverseRecOn with
  | nil => rfl
  | append_singleton l x ih =>
    rw [List.zipIdx_append, List.map_append, List.sum_append, ih, Nat.zero_add]
    change _ + ((if l.length = i then f x else 0) + 0) = _
    rw [add_zero]
    rcases lt_trichotomy i l.length with lt | rfl | gt
    · rw [if_neg lt.ne', add_zero, List.getElem?_append_left lt]
    · simp
    · have beyond : (l ++ [x]).length ≤ i := by simpa using Nat.succ_le_of_lt gt
      rw [if_neg gt.ne, add_zero, List.getElem?_eq_none gt.le, List.getElem?_eq_none beyond]

lemma sum_of_nodup [AddCommMonoid α] [DecidableEq β] {l : List β} (nodup : l.Nodup) (x : β)
    (f : β → α) :
    (l.map fun y => if y = x then f y else 0).sum = if x ∈ l then f x else 0 := by
  rw [← List.sum_toFinset _ nodup, Finset.sum_ite_eq']
  simp only [List.mem_toFinset]

lemma sum_ite_one [AddCommMonoidWithOne α] (l : List β) (p : β → Prop)
    [DecidablePred p] :
    (l.map fun x => if p x then (1 : α) else 0).sum = l.countP fun x => p x := by
  induction l with
  | nil => simp
  | cons x l ih =>
    rw [List.map_cons, List.sum_cons, ih, List.countP_cons]
    by_cases h : p x <;> simp [h, add_comm]

lemma exists_mapM_eq_ok {E : Type} {l : List β} {f : β → Except E γ} {P : β → γ → Prop}
    (h : ∀ x ∈ l, ∃ y, f x = .ok y ∧ P x y) :
    ∃ ys, l.mapM f = .ok ys ∧ List.Forall₂ P l ys := by
  induction l with
  | nil => exact ⟨[], rfl, .nil⟩
  | cons x l ih =>
    obtain ⟨y, hy, first⟩ := h x List.mem_cons_self
    obtain ⟨ys, hys, rest⟩ := ih fun z hz => h z (List.mem_cons_of_mem x hz)
    refine ⟨y :: ys, ?_, .cons first rest⟩
    rw [List.mapM_cons, hy, hys]
    rfl

lemma forall₂_of_mapM_eq_ok {E : Type} {f : β → Except E γ} {l : List β} {ys : List γ}
    (h : l.mapM f = .ok ys) : List.Forall₂ (fun x y => f x = .ok y) l ys := by
  induction l generalizing ys with
  | nil =>
    obtain rfl : [] = ys := Except.ok.inj h
    exact .nil
  | cons x l ih =>
    rw [List.mapM_cons] at h
    cases hx : f x with
    | error e => rw [hx] at h; cases h
    | ok y =>
      rw [hx] at h
      simp only [bind, Except.bind] at h
      cases hl : l.mapM f with
      | error e => rw [hl] at h; cases h
      | ok zs =>
        rw [hl] at h
        obtain rfl := Except.ok.inj h
        exact .cons hx (ih hl)

lemma mapM_eq_error {E : Type} {f : β → Except E γ} {l : List β} {e : E} (ne : l ≠ [])
    (h : ∀ x ∈ l, f x = .error e) : l.mapM f = .error e := by
  obtain ⟨x, l, rfl⟩ := List.exists_cons_of_ne_nil ne
  rw [List.mapM_cons, h x List.mem_cons_self]
  rfl

lemma mapM_eq_pure_map {m : Type → Type} [Monad m] [LawfulMonad m] {l : List β} {g : β → m γ}
    {f : β → γ} (h : ∀ x ∈ l, g x = pure (f x)) : l.mapM g = pure (l.map f) := by
  induction l with
  | nil => rfl
  | cons x l ih =>
    rw [List.mapM_cons, h x List.mem_cons_self, pure_bind,
      ih fun y hy => h y (List.mem_cons_of_mem _ hy), pure_bind, List.map_cons]

lemma mapM_eq_some_map {l : List β} {g : β → Option γ} {f : β → γ}
    (h : ∀ x ∈ l, g x = some (f x)) : l.mapM g = some (l.map f) :=
  mapM_eq_pure_map h

lemma mapM_eq_ok_map {E : Type} {l : List β} {g : β → Except E γ} {f : β → γ}
    (h : ∀ x ∈ l, g x = .ok (f x)) : l.mapM g = .ok (l.map f) :=
  mapM_eq_pure_map h

lemma mapM_range_eq_some_map {n : ℕ} {g : ℕ → Option γ} {f : ℕ → γ}
    (h : ∀ i < n, g i = some (f i)) :
    (Array.range n).mapM g = some ((Array.range n).map f) := by
  have inside : ∀ i ∈ (Array.range n).toList, g i = some (f i) := fun i hi =>
    h i (by simpa using hi)
  rw [Array.mapM_eq_mapM_toList, mapM_eq_some_map inside, ← Array.toList_map]
  rfl

lemma exists_of_toOption {E : Type} {x : Except E β} {f : β → γ} {y : γ}
    (h : x.toOption.map f = some y) : ∃ b, x = .ok b ∧ f b = y := by
  obtain ⟨b, hb, rfl⟩ := Option.map_eq_some_iff.1 h
  cases x with
  | error e => cases hb
  | ok c => exact ⟨b, congrArg _ (Option.some.inj hb), rfl⟩

lemma eq_error_of_map {E : Type} {x : Except E β} {f : β → γ} {e : E}
    (h : x.map f = .error e) : x = .error e := by
  cases x with
  | error e' => exact congrArg _ (Except.error.inj h)
  | ok y => cases h

lemma cases_of_bind_eq_error {E : Type} {x : Except E β} {f : β → Except E γ} {e : E}
    (h : x >>= f = .error e) : x = .error e ∨ ∃ y, x = .ok y ∧ f y = .error e := by
  cases x with
  | error e' => exact .inl (congrArg _ (Except.error.inj h))
  | ok y => exact .inr ⟨y, rfl, h⟩

lemma exists_of_mapM_eq_error {E : Type} {f : β → Except E γ} {l : List β} {e : E}
    (h : l.mapM f = .error e) : ∃ x ∈ l, f x = .error e := by
  induction l with
  | nil => cases h
  | cons x l ih =>
    rw [List.mapM_cons] at h
    rcases cases_of_bind_eq_error h with hx | ⟨y, -, h⟩
    · exact ⟨x, List.mem_cons_self, hx⟩
    · rcases cases_of_bind_eq_error h with hl | ⟨ys, -, h⟩
      · obtain ⟨z, hz, failed⟩ := ih hl
        exact ⟨z, List.mem_cons_of_mem x hz, failed⟩
      · cases h

lemma exists_of_mem_zip {R : β × ℕ → γ → Prop} {l : List β} {ys : List γ}
    (h : List.Forall₂ R l.zipIdx ys) {x : β × γ} (hx : x ∈ l.zip ys) :
    ∃ i, (x.1, i) ∈ l.zipIdx ∧ R (x.1, i) x.2 := by
  obtain ⟨-, all⟩ := List.forall₂_iff_zip.1 h
  rw [← List.zipIdx_map_fst 0 l, List.zip_map_left] at hx
  obtain ⟨⟨⟨y, i⟩, z⟩, hy, rfl⟩ := List.mem_map.1 hx
  exact ⟨i, (List.of_mem_zip hy).1, all hy⟩

end Eigenmesh
