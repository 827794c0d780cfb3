import Mathlib.Algebra.BigOperators.Group.List.Basic
import Mathlib.Algebra.Ring.Nat
import Mathlib.Data.List.GetD
import Mathlib.Data.List.Nodup
import Mathlib.Tactic.Common
import Eigenmesh.Mesh.Kuhn
import Eigenmesh.Proofs.Mesh.Sides

/-!
Walks through a grid.

A walk is its first point and the axes it goes along. Leaving out one of its points gives a shorter
walk if that point is an end, and two walks with a gap of two steps if it is not.
-/

namespace Eigenmesh.Grid

/-- The end of a walk. -/
def advance (cart axes : List ℕ) : List ℕ := axes.foldl (fun p a => p.modify a (· + 1)) cart

variable {cart cart' axes axes' : List ℕ}

@[simp] lemma advance_nil : advance cart [] = cart := rfl

lemma advance_cons {a : ℕ} : advance cart (a :: axes) = advance (advance cart [a]) axes := rfl

lemma advance_append : advance cart (axes ++ axes') = advance (advance cart axes) axes' :=
  List.foldl_append

@[simp] lemma length_advance : (advance cart axes).length = cart.length := by
  induction axes generalizing cart with
  | nil => rfl
  | cons a axes ih => rw [advance_cons, ih]; exact List.length_modify ..

lemma getD_advance {i : ℕ} (hi : i < cart.length) :
    (advance cart axes).getD i 0 = cart.getD i 0 + axes.count i := by
  induction axes generalizing cart with
  | nil => rfl
  | cons a axes ih =>
    have step : (advance cart [a]).getD i 0 = cart.getD i 0 + if a = i then 1 else 0 := by
      simp only [advance, List.foldl_cons, List.foldl_nil, List.getD_eq_getElem?_getD,
        List.getElem?_modify, List.getElem?_eq_getElem hi]
      split <;> simp
    rw [advance_cons, ih (by simpa), List.count_cons, step]
    simp only [beq_iff_eq]
    omega

lemma eq_of_getD {p q : List ℕ} (length : p.length = q.length)
    (h : ∀ i < p.length, p.getD i 0 = q.getD i 0) : p = q :=
  List.ext_getElem length fun i hp hq => by
    rw [← List.getD_eq_getElem _ 0 hp, h i hp, List.getD_eq_getElem _ 0 hq]

lemma advance_perm (h : axes.Perm axes') : advance cart axes = advance cart axes' :=
  eq_of_getD (by simp) fun i hi => by
    rw [length_advance] at hi
    rw [getD_advance hi, getD_advance hi, h.count_eq]

lemma advance_left_injective (length : cart.length = cart'.length)
    (h : advance cart axes = advance cart' axes) : cart = cart' :=
  eq_of_getD length fun i hi => by
    have := congrArg (·.getD i 0) h
    simp only [getD_advance hi, getD_advance (length ▸ hi)] at this
    omega

lemma exists_advance_eq {a : ℕ} (ha : a < cart.length) (pos : cart.getD a 0 ≠ 0) :
    ∃ back : List ℕ, back.length = cart.length ∧ advance back [a] = cart := by
  refine ⟨cart.modify a (· - 1), List.length_modify .., ?_⟩
  change (cart.modify a (· - 1)).modify a (· + 1) = cart
  rw [List.modify_modify_eq]
  refine List.ext_getElem (List.length_modify ..) fun i _ hi => ?_
  rw [List.getElem_modify]
  split
  · subst i
    rw [List.getD_eq_getElem _ 0 ha] at pos
    exact Nat.sub_add_cancel (Nat.pos_of_ne_zero pos)
  · rfl

lemma sum_advance (h : ∀ a ∈ axes, a < cart.length) :
    (advance cart axes).sum = cart.sum + axes.length := by
  induction axes generalizing cart with
  | nil => rfl
  | cons a axes ih =>
    have step : (advance cart [a]).sum = cart.sum + 1 := by
      obtain ⟨low, c, high, hcart, -, hmodify⟩ :=
        List.exists_of_modify (· + 1) (h a List.mem_cons_self)
      change (cart.modify a (· + 1)).sum = _
      rw [hmodify, hcart]
      simp only [List.sum_append, List.sum_cons]
      omega
    rw [advance_cons, ih fun b hb => by simpa using h b (List.mem_cons_of_mem _ hb), step,
      List.length_cons]
    omega

/-! ### The points of a walk -/

lemma walk_cons {a : ℕ} : walk cart (a :: axes) = cart :: walk (advance cart [a]) axes := rfl

lemma walk_append_cons {a : ℕ} :
    walk cart (axes ++ a :: axes') = walk cart axes ++ walk (advance cart (axes ++ [a])) axes' := by
  induction axes generalizing cart with
  | nil => rfl
  | cons b axes ih => rw [List.cons_append, walk_cons, ih, walk_cons]; rfl

lemma mem_walk {p : List ℕ} : p ∈ walk cart axes ↔ ∃ l, l <+: axes ∧ p = advance cart l := by
  induction axes generalizing cart with
  | nil => simp [walk]
  | cons a axes ih =>
    rw [walk_cons, List.mem_cons, ih]
    constructor
    · rintro (rfl | ⟨l, hl, rfl⟩)
      · exact ⟨[], List.nil_prefix, rfl⟩
      · exact ⟨a :: l, List.cons_prefix_cons.2 ⟨rfl, hl⟩, rfl⟩
    · rintro ⟨_ | ⟨b, l⟩, hl, rfl⟩
      · exact .inl rfl
      · obtain ⟨rfl, rest⟩ := List.cons_prefix_cons.1 hl
        exact .inr ⟨l, rest, rfl⟩

lemma start_mem_walk : cart ∈ walk cart axes := mem_walk.2 ⟨[], List.nil_prefix, rfl⟩

lemma advance_mem_walk : advance cart axes ∈ walk cart axes :=
  mem_walk.2 ⟨axes, List.prefix_rfl, rfl⟩

lemma walk_injective (length : cart.length = cart'.length) (h : ∀ a ∈ axes, a < cart.length)
    (h' : ∀ a ∈ axes', a < cart.length) (eq : walk cart axes = walk cart' axes') :
    cart = cart' ∧ axes = axes' := by
  induction axes generalizing cart cart' axes' with
  | nil =>
    have size := congrArg List.length eq
    rw [length_walk, length_walk] at size
    obtain rfl := List.eq_nil_of_length_eq_zero (Nat.succ.inj size).symm
    exact ⟨List.head_eq_of_cons_eq eq, rfl⟩
  | cons a axes ih =>
    cases axes' with
    | nil =>
      have size := congrArg List.length eq
      simp [length_walk] at size
    | cons a' axes' =>
      obtain ⟨rfl, eq⟩ := List.cons.inj eq
      obtain ⟨hstep, rfl⟩ := ih (by simp)
        (fun b hb => by simpa using h b (List.mem_cons_of_mem _ hb))
        (fun b hb => by simpa using h' b (List.mem_cons_of_mem _ hb)) eq
      have ha := h a List.mem_cons_self
      have moved : cart.getD a 0 + [a].count a = cart.getD a 0 + [a'].count a := by
        rw [← getD_advance ha, ← getD_advance ha]
        exact congrArg (·.getD a 0) hstep
      rw [Nat.add_left_cancel_iff, List.count_singleton_self, List.count_singleton] at moved
      obtain rfl : a' = a := by
        by_contra hne
        simp [hne] at moved
      exact ⟨rfl, rfl⟩

/-! ### The level of a point, the sum of its coordinates -/

lemma mem_map_sum_walk (h : ∀ a ∈ axes, a < cart.length) {x : ℕ} :
    x ∈ (walk cart axes).map List.sum ↔ cart.sum ≤ x ∧ x ≤ cart.sum + axes.length := by
  induction axes generalizing cart with
  | nil => simp [walk]; omega
  | cons a axes ih =>
    have step : (advance cart [a]).sum = cart.sum + 1 :=
      sum_advance fun b hb => h b (by simp_all)
    rw [walk_cons, List.map_cons, List.mem_cons,
      ih fun b hb => by simpa using h b (List.mem_cons_of_mem _ hb), step, List.length_cons]
    omega

/-! ### Walks with a gap -/

/-- Two walks with two steps between them, the point after the first of these being left out. -/
def gapped (cart before : List ℕ) (a c : ℕ) (after : List ℕ) : List (List ℕ) :=
  walk cart before ++ walk (advance cart (before ++ [a, c])) after

variable {before after : List ℕ} {a c : ℕ}

lemma gapped_swap : gapped cart before a c after = gapped cart before c a after := by
  rw [gapped, gapped, advance_perm ((List.Perm.swap c a []).append_left before)]

lemma start_mem_gapped : cart ∈ gapped cart before a c after :=
  List.mem_append_left _ start_mem_walk

lemma advance_mem_gapped :
    advance cart (before ++ a :: c :: after) ∈ gapped cart before a c after := by
  have : before ++ a :: c :: after = (before ++ [a, c]) ++ after := by simp
  rw [this, advance_append]
  exact List.mem_append_right _ advance_mem_walk

lemma mem_map_sum_gapped (h : ∀ b ∈ before ++ a :: c :: after, b < cart.length) {x : ℕ} :
    x ∈ (gapped cart before a c after).map List.sum ↔ cart.sum ≤ x ∧
      x ≤ cart.sum + (before ++ a :: c :: after).length ∧ x ≠ cart.sum + before.length + 1 := by
  have middle : (advance cart (before ++ [a, c])).sum = cart.sum + (before.length + 2) := by
    rw [sum_advance fun b hb => h b (by simp at hb ⊢; tauto), List.length_append]
    rfl
  rw [gapped, List.map_append, List.mem_append,
    mem_map_sum_walk fun b hb => h b (List.mem_append_left _ hb),
    mem_map_sum_walk fun b hb => by rw [length_advance]; exact h b (by simp [hb]),
    middle, List.length_append, List.length_cons, List.length_cons]
  omega

lemma gapped_ne_walk (h : ∀ b ∈ before ++ a :: c :: after, b < cart.length)
    (h' : ∀ b ∈ axes, b < cart'.length)
    (length : axes.length + 1 = (before ++ a :: c :: after).length) :
    gapped cart before a c after ≠ walk cart' axes := by
  intro eq
  have levels (x : ℕ) := (mem_map_sum_gapped h (x := x)).symm.trans
    (eq ▸ mem_map_sum_walk h' (x := x))
  have low := levels cart.sum
  have high := levels (cart.sum + (before ++ a :: c :: after).length)
  simp only [List.length_append, List.length_cons] at low high length
  omega

lemma gapped_injective {before' after' : List ℕ} {a' c' : ℕ} (length : cart.length = cart'.length)
    (h : ∀ b ∈ before ++ a :: c :: after, b < cart.length)
    (h' : ∀ b ∈ before' ++ a' :: c' :: after', b < cart.length)
    (size : (before ++ a :: c :: after).length = (before' ++ a' :: c' :: after').length)
    (eq : gapped cart before a c after = gapped cart' before' a' c' after') :
    cart = cart' ∧ before = before' ∧ after = after' := by
  have levels (x : ℕ) := (mem_map_sum_gapped h (x := x)).symm.trans
    (eq ▸ mem_map_sum_gapped (length ▸ h') (x := x))
  have start : cart.sum = cart'.sum := by
    have low := levels cart.sum
    have low' := levels cart'.sum
    simp only [List.length_append, List.length_cons] at low low'
    omega
  have gap : before.length = before'.length := by
    have left := levels (cart.sum + before.length + 1)
    simp only [List.length_append, List.length_cons, start] at left size
    omega
  obtain ⟨first, second⟩ := List.append_inj eq (by rw [length_walk, length_walk, gap])
  obtain ⟨rfl, rfl⟩ := walk_injective length (fun b hb => h b (List.mem_append_left _ hb))
    (fun b hb => h' b (List.mem_append_left _ hb)) first
  have last := walk_injective (by simp)
    (fun b hb => by rw [length_advance]; exact h b (by simp [hb]))
    (fun b hb => by rw [length_advance]; exact h' b (by simp [hb])) second
  exact ⟨rfl, rfl, last.2⟩

/-! ### The sides of a walk -/

lemma walk_mem_sides_of_cons :
    walk (advance cart [a]) axes ∈ Simplex.sides (walk cart (a :: axes)) :=
  Simplex.mem_sides.2 ⟨[], cart, _, rfl, rfl⟩

lemma walk_mem_sides_of_concat : walk cart axes ∈ Simplex.sides (walk cart (axes ++ [a])) :=
  Simplex.mem_sides.2 ⟨_, _, [], walk_append_cons, (List.append_nil _).symm⟩

lemma gapped_mem_sides :
    gapped cart before a c after ∈ Simplex.sides (walk cart (before ++ a :: c :: after)) := by
  refine Simplex.mem_sides.2
    ⟨walk cart before, advance cart (before ++ [a]), _, walk_append_cons, ?_⟩
  have steps : before ++ [a, c] = before ++ [a] ++ [c] := List.append_cons ..
  rw [gapped, steps, advance_append]
  rfl

lemma sides_walk (cart : List ℕ) (a : ℕ) (axes : List ℕ) : ∃ inner,
    Simplex.sides (walk cart (a :: axes)) =
      walk (advance cart [a]) axes :: (inner ++ [walk cart (a :: axes).dropLast]) ∧
    ∀ s ∈ inner, ∃ before b c after,
      a :: axes = before ++ b :: c :: after ∧ s = gapped cart before b c after := by
  induction axes generalizing cart a with
  | nil => exact ⟨[], rfl, by simp⟩
  | cons c axes ih =>
    obtain ⟨inner, hsides, hinner⟩ := ih (advance cart [a]) c
    refine ⟨gapped cart [] a c axes :: inner.map (cart :: ·), ?_, ?_⟩
    · rw [walk_cons, Simplex.sides, hsides]
      simp [gapped, walk, advance]
    · rw [List.forall_mem_cons]
      refine ⟨⟨[], a, c, axes, rfl, rfl⟩, fun s hs => ?_⟩
      obtain ⟨s, mem, rfl⟩ := List.mem_map.1 hs
      obtain ⟨before, b, c, after, haxes, rfl⟩ := hinner s mem
      exact ⟨a :: before, b, c, after, by rw [haxes]; rfl, rfl⟩

end Eigenmesh.Grid
