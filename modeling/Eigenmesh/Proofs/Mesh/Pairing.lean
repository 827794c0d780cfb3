import Eigenmesh.Proofs.Mesh.Paths

/-!
Which cells of a grid meet in a side.

A side without its first or last point is a walk along all axes but one, and only two walks can have
it: one begins and the other ends with the step that is missing, and one of them may leave the cube.
A side with a gap of two steps is filled within the box, by taking these steps in either order.
-/

namespace Eigenmesh.Grid

variable {g : Grid} {t : List ℕ × List ℕ}

/-- How many paths have the given points as a side. -/
def adjacent (g : Grid) (s : List (List ℕ)) : ℕ :=
  g.paths.countP fun t => s ∈ Simplex.sides (walk t.1 t.2)

lemma IsPath.side_injective {t u : List ℕ × List ℕ} (ht : g.IsPath t) (hu : g.IsPath u)
    {s r : List (List ℕ)} (hs : s ∈ Simplex.sides (walk t.1 t.2))
    (hr : r ∈ Simplex.sides (walk u.1 u.2))
    (eq : (s.map g.vertexNumber).toFinset = (r.map g.vertexNumber).toFinset) : s = r := by
  have numbers : s.map g.vertexNumber = r.map g.vertexNumber :=
    (ht.pairwise_map_side hs).eq_of_mem_iff (hu.pairwise_map_side hr) fun v => by
      rw [← List.mem_toFinset, eq, List.mem_toFinset]
  have points {s : List (List ℕ)} (hs : ∀ p ∈ s, g.IsPoint p) :
      (s.map g.vertexNumber).map g.vertexCoords = s := by
    rw [List.map_map]
    exact (List.map_congr_left fun p hp => (hs p hp).coords_number).trans (List.map_id s)
  rw [← points (ht.isPoint_of_mem_sides hs), numbers, points (hu.isPoint_of_mem_sides hr)]

lemma IsPath.sharing_eq_adjacent (h : g.IsPath t) {s : List (List ℕ)}
    (hs : s ∈ Simplex.sides (walk t.1 t.2)) :
    SimplicialMesh.sharing g.kuhnCells (s.map g.vertexNumber).toFinset = g.adjacent s := by
  rw [kuhnCells_eq_map_paths, SimplicialMesh.sharing, List.countP_map, adjacent]
  refine List.countP_congr fun u hu => ?_
  have hu := mem_paths.1 hu
  rw [Function.comp_apply, decide_eq_true_eq, decide_eq_true_eq,
    hu.subset_cellAt_iff (h.card_side hs)]
  constructor
  · rintro ⟨r, hr, eq⟩
    exact hu.side_injective h hr hs eq ▸ hr
  · exact fun hsu => ⟨s, hsu, rfl⟩

/-! ### The partner of a cell -/

lemma head_eq_of_perm {a c : ℕ} {l : List ℕ} (h : (a :: l).Perm (c :: l)) : a = c :=
  List.singleton_perm_singleton.1 ((List.perm_append_right_iff l).1 h)

lemma pair_eq_or_swap {a c a' c' : ℕ} (h : [a', c'].Perm [a, c]) :
    a' = a ∧ c' = c ∨ a' = c ∧ c' = a := by
  have ha : a' ∈ [a, c] := h.mem_iff.1 List.mem_cons_self
  rw [List.mem_cons, List.mem_singleton] at ha
  rcases ha with rfl | rfl
  · exact .inl ⟨rfl, List.singleton_perm_singleton.1 ((List.perm_cons a').1 h)⟩
  · have h := h.trans (.swap a' a [])
    exact .inr ⟨rfl, List.singleton_perm_singleton.1 ((List.perm_cons a').1 h)⟩

namespace IsPath

variable (h : g.IsPath t)
include h

/-- A side is a walk along all axes but the first, along all but the last, or has a gap. -/
lemma cases_of_mem_sides {s : List (List ℕ)} (hs : s ∈ Simplex.sides (walk t.1 t.2)) :
    (∃ a l, t.2 = a :: l ∧ s = walk (advance t.1 [a]) l) ∨
      (∃ l a, t.2 = l ++ [a] ∧ s = walk t.1 l) ∨
      ∃ before a c after, t.2 = before ++ a :: c :: after ∧ s = gapped t.1 before a c after := by
  obtain ⟨b, axes⟩ := t
  cases axes with
  | nil => exact absurd h.length_axes (Nat.ne_of_lt g.dim_pos)
  | cons a axes =>
    obtain ⟨inner, hsides, hinner⟩ := sides_walk b a axes
    rw [hsides, List.mem_cons, List.mem_append, List.mem_singleton] at hs
    rcases hs with hs | hs | hs
    · exact .inl ⟨a, axes, rfl, hs⟩
    · exact .inr (.inr (hinner s hs))
    · exact .inr (.inl ⟨_, _, (List.dropLast_concat_getLast (List.cons_ne_nil a axes)).symm, hs⟩)

lemma walk_mem_sides_iff {q l : List ℕ} {a : ℕ} (hq : q.length = g.dim)
    (perm : (a :: l).Perm (List.range g.dim)) :
    walk q l ∈ Simplex.sides (walk t.1 t.2) ↔
      t = (q, l ++ [a]) ∨ advance t.1 [a] = q ∧ t.2 = a :: l := by
  have hlt : ∀ c ∈ t.2, c < g.dim := fun c => h.mem_axes.1
  have hl : ∀ c ∈ l, c < g.dim := fun c hc =>
    List.mem_range.1 (perm.mem_iff.1 (List.mem_cons_of_mem _ hc))
  constructor
  · intro hs
    have hperm := perm.trans h.perm.symm
    rcases h.cases_of_mem_sides hs with ⟨c, l', haxes, hs⟩ | ⟨l', c, haxes, hs⟩ |
      ⟨before, b, c, after, haxes, hs⟩
    -- both walks go along all axes but one, so they leave out the same
    · obtain ⟨rfl, rfl⟩ := walk_injective (by rw [length_advance, hq, h.length])
        (fun d hd => hq ▸ hl d hd) (fun d hd => hq ▸ hlt d (haxes ▸ List.mem_cons_of_mem _ hd)) hs
      rw [haxes] at hperm
      obtain rfl := head_eq_of_perm hperm
      exact .inr ⟨rfl, haxes⟩
    · obtain ⟨rfl, rfl⟩ := walk_injective (by rw [hq, h.length])
        (fun d hd => hq ▸ hl d hd) (fun d hd => hq ▸ hlt d (haxes ▸ List.mem_append_left _ hd)) hs
      rw [haxes] at hperm
      obtain rfl := head_eq_of_perm (hperm.trans (List.perm_append_singleton c l))
      exact .inl (Prod.ext rfl haxes)
    · refine absurd hs.symm (gapped_ne_walk (fun d hd => h.length ▸ hlt d (haxes ▸ hd))
        (fun d hd => hq ▸ hl d hd) ?_)
      rw [← haxes, ← hperm.length_eq, List.length_cons]
  · rintro (rfl | ⟨rfl, haxes⟩)
    · exact walk_mem_sides_of_concat
    · rw [haxes]
      exact walk_mem_sides_of_cons

lemma gapped_mem_sides_iff {b before after : List ℕ} {a c : ℕ} (hb : b.length = g.dim)
    (perm : (before ++ a :: c :: after).Perm (List.range g.dim)) :
    gapped b before a c after ∈ Simplex.sides (walk t.1 t.2) ↔
      t = (b, before ++ a :: c :: after) ∨ t = (b, before ++ c :: a :: after) := by
  have hlt : ∀ c ∈ t.2, c < g.dim := fun c => h.mem_axes.1
  have hperm := h.perm.trans perm.symm
  have hl : ∀ d ∈ before ++ a :: c :: after, d < b.length := fun d hd => by
    rw [hb, ← List.mem_range, ← perm.mem_iff]
    exact hd
  constructor
  · intro hs
    rcases h.cases_of_mem_sides hs with ⟨d, l, haxes, hs⟩ | ⟨l, d, haxes, hs⟩ |
      ⟨before', a', c', after', haxes, hs⟩
    · refine absurd hs (gapped_ne_walk hl (fun e he => ?_) ?_)
      · rw [length_advance, h.length]
        exact hlt e (haxes ▸ List.mem_cons_of_mem _ he)
      · rw [← hperm.length_eq, haxes, List.length_cons]
    · refine absurd hs (gapped_ne_walk hl (fun e he => ?_) ?_)
      · rw [h.length]
        exact hlt e (haxes ▸ List.mem_append_left _ he)
      · rw [← hperm.length_eq, haxes, List.length_append, List.length_singleton]
    -- the gap is at the same place, and the same two axes are left for it
    · obtain ⟨rfl, rfl, rfl⟩ := gapped_injective (by rw [hb, h.length]) hl
        (fun e he => hb ▸ hlt e (haxes ▸ he)) (by rw [← haxes, hperm.length_eq]) hs
      rw [haxes, List.perm_append_left_iff] at hperm
      have pair : [a', c'].Perm [a, c] := (List.perm_append_right_iff after).1 hperm
      rcases pair_eq_or_swap pair with ⟨rfl, rfl⟩ | ⟨rfl, rfl⟩
      · exact .inl (Prod.ext rfl haxes)
      · exact .inr (Prod.ext rfl haxes)
  · rintro (rfl | rfl)
    · exact gapped_mem_sides
    · rw [gapped_swap]
      exact gapped_mem_sides

end IsPath

/-! ### How many cells meet -/

variable {b l before after : List ℕ} {a c : ℕ}

lemma isPath_of_perm {axes axes' : List ℕ} (h : g.IsPath (b, axes)) (perm : axes'.Perm axes) :
    g.IsPath (b, axes') :=
  ⟨h.length, h.lt, perm.trans h.perm⟩

/-- A cell that begins along `a` meets the cell of the next box that ends along `a`, if there is a
next box. -/
lemma adjacent_of_cons (h : g.IsPath (b, a :: l)) :
    g.adjacent (walk (advance b [a]) l) = if b.getD a 0 + 1 = g.boxes then 1 else 2 := by
  have ha : a < g.dim := h.mem_axes.1 List.mem_cons_self
  have moved : advance b [a] ≠ b := fun eq => by
    have := congrArg (·.getD a 0) eq
    simp only [getD_advance (h.length.symm ▸ ha), List.count_singleton_self] at this
    omega
  have next : (advance b [a], l ++ [a]) ∈ g.paths ↔ b.getD a 0 + 1 ≠ g.boxes := by
    rw [mem_paths]
    constructor
    · intro hnext
      have := hnext.lt a ha
      rw [getD_advance (h.length.symm ▸ ha), List.count_singleton_self] at this
      exact Nat.ne_of_lt this
    · intro hne
      refine ⟨by rw [length_advance, h.length], fun i hi => ?_,
        (List.perm_append_singleton a l).trans h.perm⟩
      have below : b.getD i 0 < g.boxes := h.lt i hi
      change (advance b [a]).getD i 0 < g.boxes
      rw [getD_advance (h.length.symm ▸ hi), List.count_singleton]
      split
      case isTrue hia =>
        obtain rfl := beq_iff_eq.1 hia
        omega
      case isFalse => exact below
  have partner (u) (hu : u ∈ g.paths) : decide (walk (advance b [a]) l ∈
      Simplex.sides (walk u.1 u.2)) = true ↔ u = (advance b [a], l ++ [a]) ∨ u = (b, a :: l) := by
    have hu := mem_paths.1 hu
    rw [decide_eq_true_eq, hu.walk_mem_sides_iff (by rw [length_advance, h.length]) h.perm]
    refine or_congr_right ⟨fun ⟨start, axes⟩ => Prod.ext ?_ axes, fun eq => eq ▸ ⟨rfl, rfl⟩⟩
    exact advance_left_injective (hu.length.trans h.length.symm) start
  rw [adjacent, countP_of_two nodup_paths (fun eq => moved (Prod.mk.inj eq).1) partner,
    if_pos (mem_paths.2 h)]
  by_cases top : b.getD a 0 + 1 = g.boxes
  · rw [if_neg fun hmem => next.1 hmem top, if_pos top]
  · rw [if_pos (next.2 top), if_neg top]

lemma adjacent_of_concat (h : g.IsPath (b, l ++ [a])) :
    g.adjacent (walk b l) = if b.getD a 0 = 0 then 1 else 2 := by
  have perm := (List.perm_append_singleton a l).symm.trans h.perm
  have ha : a < g.dim := h.mem_axes.1 (by simp)
  split
  case isTrue zero =>
    -- no step along `a` leads to the lowest layer
    refine countP_of_one nodup_paths (mem_paths.2 h) fun u hu => ?_
    have hu := mem_paths.1 hu
    rw [decide_eq_true_eq, hu.walk_mem_sides_iff h.length perm, or_iff_left_iff_imp]
    rintro ⟨start, -⟩
    have step : (advance u.1 [a]).getD a 0 = u.1.getD a 0 + 1 := by
      rw [getD_advance (hu.length.symm ▸ ha), List.count_singleton_self]
    rw [start, zero] at step
    exact absurd step.symm (Nat.succ_ne_zero _)
  case isFalse pos =>
    obtain ⟨back, length, rfl⟩ := exists_advance_eq (h.length.symm ▸ ha : a < b.length) pos
    have length : back.length = g.dim := length.trans h.length
    have hback {i : ℕ} (hi : i < g.dim) :
        (advance back [a]).getD i 0 = back.getD i 0 + [a].count i :=
      getD_advance (length.symm ▸ hi)
    have hpath : g.IsPath (back, a :: l) :=
      ⟨length, fun i hi => by
        have := h.lt i hi
        rw [hback hi] at this
        exact Nat.lt_of_add_right_lt this, perm⟩
    have below := h.lt a ha
    rw [hback ha, List.count_singleton_self] at below
    rw [adjacent_of_cons hpath, if_neg (Nat.ne_of_lt below)]

lemma adjacent_gapped (h : g.IsPath (b, before ++ a :: c :: after)) :
    g.adjacent (gapped b before a c after) = 2 := by
  have swapped : (before ++ c :: a :: after).Perm (before ++ a :: c :: after) :=
    (List.Perm.swap a c after).append_left before
  have distinct : a ≠ c := by
    have := (List.nodup_append.1 h.nodup_axes).2.1
    exact fun eq => (List.nodup_cons.1 this).1 (eq ▸ List.mem_cons_self)
  have partner (u) (hu : u ∈ g.paths) : decide (gapped b before a c after ∈
      Simplex.sides (walk u.1 u.2)) = true ↔
        u = (b, before ++ a :: c :: after) ∨ u = (b, before ++ c :: a :: after) := by
    rw [decide_eq_true_eq, (mem_paths.1 hu).gapped_mem_sides_iff h.length h.perm]
  rw [adjacent, countP_of_two nodup_paths (fun eq => ?_) partner, if_pos (mem_paths.2 h),
    if_pos (mem_paths.2 (isPath_of_perm h swapped))]
  have := List.append_cancel_left (Prod.mk.inj eq).2
  exact distinct (List.cons.inj this).1

/-! ### Faces of the cube -/

/-- The points lie on a face of the cube. Its number is twice the axis, and one more at the end. -/
def OnFace (g : Grid) (s : List (List ℕ)) (face : ℕ) : Prop :=
  face < 2 * g.dim ∧ ∀ p ∈ s, p.getD (face / 2) 0 = face % 2 * g.boxes

lemma onFace_iff {s : List (List ℕ)} {face : ℕ} : g.OnFace s face ↔
    ∃ axis < g.dim, ∃ c < 2, face = 2 * axis + c ∧ ∀ p ∈ s, p.getD axis 0 = c * g.boxes := by
  constructor
  · rintro ⟨hface, h⟩
    exact ⟨face / 2, by omega, face % 2, Nat.mod_lt _ Nat.two_pos, (Nat.div_add_mod face 2).symm, h⟩
  · rintro ⟨axis, haxis, c, hc, rfl, h⟩
    have axis_eq : (2 * axis + c) / 2 = axis := by omega
    have side_eq : (2 * axis + c) % 2 = c := by omega
    exact ⟨by omega, by rwa [axis_eq, side_eq]⟩

lemma not_onFace {s : List (List ℕ)} (hb : b ∈ s) {axes : List ℕ} (hs : advance b axes ∈ s)
    (length : b.length = g.dim) (perm : axes.Perm (List.range g.dim)) (face : ℕ) :
    ¬g.OnFace s face := by
  rintro ⟨hface, h⟩
  have axis : face / 2 < g.dim := by omega
  have low := h b hb
  have high := h _ hs
  have once : axes.count (face / 2) = 1 := by
    rw [perm.count_eq]
    exact List.nodup_iff_count_eq_one.1 List.nodup_range _ (List.mem_range.2 axis)
  rw [getD_advance (length.symm ▸ axis), once, low] at high
  omega

lemma walk_onFace_iff {q : List ℕ} (length : q.length = g.dim)
    (perm : (a :: l).Perm (List.range g.dim)) {face : ℕ} :
    g.OnFace (walk q l) face ↔ face / 2 = a ∧ q.getD a 0 = face % 2 * g.boxes := by
  have nodup : (a :: l).Nodup := perm.nodup_iff.2 List.nodup_range
  have ha : a < g.dim := List.mem_range.1 (perm.mem_iff.1 List.mem_cons_self)
  constructor
  · rintro ⟨hface, h⟩
    have axis : face / 2 < g.dim := by omega
    have low := h q start_mem_walk
    suffices face / 2 = a from ⟨this, this ▸ low⟩
    rcases List.mem_cons.1 (perm.mem_iff.2 (List.mem_range.2 axis)) with hax | hax
    · exact hax
    · have high := h _ advance_mem_walk
      rw [getD_advance (length.symm ▸ axis), low,
        List.nodup_iff_count_eq_one.1 (List.nodup_cons.1 nodup).2 _ hax] at high
      omega
  · rintro ⟨rfl, start⟩
    refine ⟨by omega, fun p hp => ?_⟩
    obtain ⟨l', hl', rfl⟩ := mem_walk.1 hp
    have : l'.count (face / 2) = 0 :=
      List.count_eq_zero_of_not_mem fun hmem => (List.nodup_cons.1 nodup).1 (hl'.subset hmem)
    rw [getD_advance (length.symm ▸ ha), this, start, Nat.add_zero]

lemma walk_advance_onFace_iff (h : g.IsPath (b, a :: l)) {face : ℕ} :
    g.OnFace (walk (advance b [a]) l) face ↔ face = 2 * a + 1 ∧ b.getD a 0 + 1 = g.boxes := by
  have ha : a < g.dim := h.mem_axes.1 List.mem_cons_self
  rw [walk_onFace_iff (by rw [length_advance, h.length]) h.perm,
    getD_advance (h.length.symm ▸ ha), List.count_singleton_self]
  rcases Nat.mod_two_eq_zero_or_one face with side | side <;> rw [side] <;> omega

lemma walk_start_onFace_iff (h : g.IsPath (b, l ++ [a])) {face : ℕ} :
    g.OnFace (walk b l) face ↔ face = 2 * a ∧ b.getD a 0 = 0 := by
  have perm := (List.perm_append_singleton a l).symm.trans h.perm
  have below : b.getD a 0 < g.boxes := h.lt a (h.mem_axes.1 (by simp))
  rw [walk_onFace_iff (show b.length = g.dim from h.length) perm]
  rcases Nat.mod_two_eq_zero_or_one face with side | side <;> rw [side] <;> omega

/-- A side belongs to one cell if it lies on a face of the cube, which is then the only one, and to
two cells if it lies on none. -/
lemma IsPath.adjacent_cases (h : g.IsPath t) {s : List (List ℕ)}
    (hs : s ∈ Simplex.sides (walk t.1 t.2)) :
    (g.adjacent s = 1 ∧ ∃ face, ∀ f, g.OnFace s f ↔ f = face) ∨
      (g.adjacent s = 2 ∧ ∀ f, ¬g.OnFace s f) := by
  obtain ⟨b, axes⟩ := t
  rcases h.cases_of_mem_sides hs with ⟨a, l, haxes, rfl⟩ | ⟨l, a, haxes, rfl⟩ |
    ⟨before, a, c, after, haxes, rfl⟩
  · obtain rfl : axes = a :: l := haxes
    simp only [adjacent_of_cons h, walk_advance_onFace_iff h]
    by_cases top : b.getD a 0 + 1 = g.boxes
    · exact .inl ⟨if_pos top, 2 * a + 1, fun f => and_iff_left top⟩
    · exact .inr ⟨if_neg top, fun f hf => top hf.2⟩
  · obtain rfl : axes = l ++ [a] := haxes
    simp only [adjacent_of_concat h, walk_start_onFace_iff h]
    by_cases zero : b.getD a 0 = 0
    · exact .inl ⟨if_pos zero, 2 * a, fun f => and_iff_left zero⟩
    · exact .inr ⟨if_neg zero, fun f hf => zero hf.2⟩
  · obtain rfl : axes = before ++ a :: c :: after := haxes
    exact .inr ⟨adjacent_gapped h, not_onFace start_mem_gapped advance_mem_gapped h.length h.perm⟩

lemma IsPoint.exists_box {p : List ℕ} (hp : g.IsPoint p) : ∃ b upper lower,
    g.IsPath (b, upper ++ lower) ∧ advance b upper = p ∧
      ∀ i < g.dim, i ∈ upper ↔ p.getD i 0 = g.boxes := by
  have boxes := g.boxes_pos
  let b := p.map (min · (g.boxes - 1))
  let atEnd := fun i => decide (p.getD i 0 = g.boxes)
  have length : b.length = g.dim := (List.length_map _).trans hp.length
  have hb {i : ℕ} (hi : i < g.dim) : b.getD i 0 = min (p.getD i 0) (g.boxes - 1) := by
    rw [List.getD_eq_getElem _ 0 (length.symm ▸ hi), List.getElem_map,
      List.getD_eq_getElem _ 0 (hp.length.symm ▸ hi)]
  have mem {i : ℕ} (hi : i < g.dim) :
      i ∈ (List.range g.dim).filter atEnd ↔ p.getD i 0 = g.boxes := by
    rw [List.mem_filter, List.mem_range, decide_eq_true_eq, and_iff_right hi]
  refine ⟨b, (List.range g.dim).filter atEnd, (List.range g.dim).filter fun i => !atEnd i,
    ⟨length, fun i hi => ?_, List.filter_append_perm _ _⟩, ?_, fun i => mem⟩
  · change b.getD i 0 < g.boxes
    rw [hb hi]
    omega
  · refine eq_of_getD (by rw [length_advance, length, hp.length]) fun i hi => ?_
    rw [length_advance, length] at hi
    have le := hp.le i hi
    rw [getD_advance (length.symm ▸ hi), hb hi, (List.nodup_range.filter _).count,
      if_congr (mem hi) rfl rfl]
    split <;> omega

lemma exists_adjacent_eq_one {p : List ℕ} (hp : g.IsPoint p) {axis : ℕ} (haxis : axis < g.dim)
    (bound : p.getD axis 0 = 0 ∨ p.getD axis 0 = g.boxes) :
    ∃ t, g.IsPath t ∧ ∃ s ∈ Simplex.sides (walk t.1 t.2), p ∈ s ∧ g.adjacent s = 1 := by
  obtain ⟨b, upper, lower, path, reached, mem_upper⟩ := hp.exists_box
  have start : p.getD axis 0 = b.getD axis 0 + upper.count axis := by
    rw [← reached]
    exact getD_advance (path.length.symm ▸ haxis)
  rcases bound with bound | bound
  -- at the beginning the cell ends along the axis, after it has reached the point
  · have mem : axis ∈ lower := by
      refine (List.mem_append.1 (path.mem_axes.2 haxis)).resolve_left fun mem => ?_
      rw [mem_upper axis haxis, bound] at mem
      exact absurd g.boxes_pos (mem ▸ Nat.lt_irrefl 0)
    have order : (upper ++ lower.erase axis ++ [axis]).Perm (upper ++ lower) := by
      rw [List.append_assoc, List.perm_append_left_iff]
      exact (List.perm_append_singleton _ _).trans (List.perm_cons_erase mem).symm
    refine ⟨_, isPath_of_perm path order, _, walk_mem_sides_of_concat, ?_, ?_⟩
    · exact mem_walk.2 ⟨upper, List.prefix_append _ _, reached.symm⟩
    · rw [adjacent_of_concat (isPath_of_perm path order), if_pos (by omega)]
  -- at the end the cell begins along the axis, before it reaches the point
  · have mem : axis ∈ upper := (mem_upper axis haxis).2 bound
    have order : (axis :: (upper.erase axis ++ lower)).Perm (upper ++ lower) :=
      (List.perm_append_right_iff lower).2 (List.perm_cons_erase mem).symm
    have once : upper.count axis = 1 :=
      List.nodup_iff_count_eq_one.1 (List.nodup_append.1 path.nodup_axes).1 axis mem
    refine ⟨_, isPath_of_perm path order, _, walk_mem_sides_of_cons, ?_, ?_⟩
    · refine mem_walk.2 ⟨upper.erase axis, List.prefix_append _ _, ?_⟩
      rw [← advance_cons, ← advance_perm (List.perm_cons_erase mem), reached]
    · rw [adjacent_of_cons (isPath_of_perm path order), if_pos (by omega)]

/-! ### How many sides lie on the boundary -/

lemma countP_adjacent_sides (h : g.IsPath t) :
    (Simplex.sides (walk t.1 t.2)).countP (fun s => g.adjacent s = 1) =
      (if t.1.getD (t.2.headD 0) 0 = g.boxes - 1 then 1 else 0) +
        if t.1.getD (t.2.getLastD 0) 0 = 0 then 1 else 0 := by
  obtain ⟨b, axes⟩ := t
  cases axes with
  | nil => exact absurd h.length_axes (Nat.ne_of_lt g.dim_pos)
  | cons a axes =>
    obtain ⟨inner, hsides, hinner⟩ := sides_walk b a axes
    have last := List.dropLast_concat_getLast (List.cons_ne_nil a axes)
    have between : inner.countP (fun s => g.adjacent s = 1) = 0 := by
      refine List.countP_eq_zero.2 fun s hs => ?_
      obtain ⟨before, c, d, after, haxes, rfl⟩ := hinner s hs
      rw [decide_eq_true_eq, adjacent_gapped (haxes ▸ h)]
      exact Nat.succ_ne_self 1
    have final : (a :: axes).getLastD 0 = (a :: axes).getLast (List.cons_ne_nil a axes) := by
      rw [List.getLastD_eq_getLast?, List.getLast?_eq_some_getLast, Option.getD_some]
    have top : b.getD a 0 = g.boxes - 1 ↔ b.getD a 0 + 1 = g.boxes := by
      have := g.boxes_pos
      omega
    have single (P : Prop) [Decidable P] : (if P then 1 else 2) = 1 ↔ P := by split <;> simp [*]
    rw [hsides, List.countP_cons, List.countP_append, List.countP_singleton, between,
      adjacent_of_cons h, adjacent_of_concat (last.symm ▸ h)]
    simp only [List.headD_cons, final, top, single, decide_eq_true_eq, Nat.zero_add]
    exact Nat.add_comm _ _

lemma countP_paths_getD (axis : List ℕ → ℕ) {digit : ℕ} (hdigit : digit < g.boxes)
    (haxis : ∀ axes : List ℕ, axes.Perm (List.range g.dim) → axis axes ∈ axes) :
    g.paths.countP (fun t => t.1.getD (axis t.2) 0 = digit) =
      g.dim.factorial * g.boxes ^ (g.dim - 1) := by
  have orders := length_axisOrders (List.length_range (n := g.dim))
  rw [paths, countP_product fun axes haxes => ?_, orders]
  have perm : axes.Perm (List.range g.dim) := mem_axisOrders.1 (by rwa [List.length_range])
  exact Index.countP_getD_coords hdigit
    (List.mem_range.1 (perm.mem_iff.1 (haxis axes perm)))

lemma countP_adjacent_paths :
    (g.paths.flatMap fun t => Simplex.sides (walk t.1 t.2)).countP (fun s => g.adjacent s = 1) =
      2 * g.dim * (g.dim - 1).factorial * g.boxes ^ (g.dim - 1) := by
  have nonempty {axes : List ℕ} (perm : axes.Perm (List.range g.dim)) : axes ≠ [] := fun h => by
    have := perm.length_eq
    rw [h, List.length_range] at this
    exact absurd g.dim_pos (by simp [← this])
  have first := countP_paths_getD (g := g) (·.headD 0) (Nat.sub_one_lt (Nat.ne_of_gt g.boxes_pos))
    fun axes perm => by
      rw [List.headD_eq_head?_getD, List.head?_eq_some_head (nonempty perm)]
      exact List.head_mem _
  have last := countP_paths_getD (g := g) (·.getLastD 0) g.boxes_pos fun axes perm => by
    rw [List.getLastD_eq_getLast?, List.getLast?_eq_some_getLast (nonempty perm)]
    exact List.getLast_mem _
  rw [countP_flatMap_of_both (q := fun t => t.1.getD (t.2.headD 0) 0 = g.boxes - 1)
    (r := fun t => t.1.getD (t.2.getLastD 0) 0 = 0) fun t ht => ?_, first, last,
    ← Nat.mul_factorial_pred (Nat.ne_of_gt g.dim_pos)]
  · ring
  · simpa only [decide_eq_true_eq] using countP_adjacent_sides (mem_paths.1 ht)

end Eigenmesh.Grid
