import Mathlib.Data.Nat.Notation
import Mathlib.Tactic.Common
import Mathlib.Tactic.FieldSimp
import Eigenmesh.Proofs.Mesh.Boundary

/-!
Points of nested grids.

Points and numbers determine each other as long as all points can be counted, and numbers increase
with the points, the last coordinate being the leading one. So a vertex of a grid has a number in
every refinement of the grid: it is the vertex there whose coordinates are as many times larger as
there are boxes in place of one. It stays where it is, on the boundary or off it, and refining in
two turns leads to the same vertex as refining at once.
-/

namespace Eigenmesh

namespace Index

variable {len dim : ℕ} {cart cart' : List ℕ}

/-- The coordinates of a point: one for each axis, all of them below the length. -/
structure IsPoint (len dim : ℕ) (cart : List ℕ) : Prop where
  length : cart.length = dim
  lt : ∀ c ∈ cart, c < len

/-- At the last coordinate in which the points differ, the first one has the smaller value. -/
def Precedes (cart cart' : List ℕ) : Prop :=
  ∃ axis, cart.getD axis 0 < cart'.getD axis 0 ∧
    ∀ later > axis, cart.getD later 0 = cart'.getD later 0

/-- Points and numbers are in bijection and in the same order, and every step of the computation
of one from the other gives a size. -/
structure Numbered (len dim : ℕ) : Prop where
  number : ∀ cart, IsPoint len dim cart →
    ∃ i < len ^ dim, number? len cart = some i ∧ coords? len dim i = some cart
  point : ∀ i < len ^ dim,
    ∃ cart, IsPoint len dim cart ∧ coords? len dim i = some cart ∧ number? len cart = some i
  increasing : ∀ cart cart' i i', IsPoint len dim cart → IsPoint len dim cart' →
    number? len cart = some i → number? len cart' = some i' → (i < i' ↔ Precedes cart cart')

lemma IsPoint.tail {c : ℕ} (h : IsPoint len (dim + 1) (c :: cart)) : IsPoint len dim cart where
  length := Nat.succ.inj h.length
  lt d hd := h.lt d (List.mem_cons_of_mem _ hd)

lemma IsPoint.coords_number (h : IsPoint len dim cart) :
    coords len dim (number len cart) = cart := by
  rw [← h.length, Index.coords_number h.lt]

lemma IsPoint.number_lt (h : IsPoint len dim cart) : number len cart < len ^ dim := by
  rw [← h.length]
  exact Index.number_lt h.lt

lemma isPoint_coords (hlen : 0 < len) (i : ℕ) : IsPoint len dim (coords len dim i) where
  length := length_coords
  lt _ hc := lt_of_mem_coords hlen hc

lemma coords?_eq_some (hlen : 0 < len) (i : ℕ) :
    coords? len dim i = some (coords len dim i) := if_neg fun h => hlen.ne' h.1

/-- Every step on the way to the number of a point stays below the number of points. -/
lemma number?_eq_some (counted : len ^ dim ≤ Word.limit) (h : IsPoint len dim cart) :
    number? len cart = some (number len cart) := by
  induction cart generalizing dim with
  | nil => rfl
  | cons c cs ih =>
    obtain rfl : dim = cs.length + 1 := h.length.symm
    have hlen : 0 < len := Nat.zero_lt_of_lt (h.lt c List.mem_cons_self)
    have rest : len ^ cs.length ≤ Word.limit :=
      (Nat.pow_le_pow_right hlen (Nat.le_succ _)).trans counted
    have sum : number len cs * len + c < Word.limit := h.number_lt.trans_le counted
    have product : number len cs * len < Word.limit := by omega
    rw [number?, ih rest h.tail]
    simp [Word.mul?, Word.add?, Word.fits, product, sum, number]

/-! ### The order of points -/

lemma forall_getD_eq_iff (length : cart.length = cart'.length) :
    (∀ axis, cart.getD axis 0 = cart'.getD axis 0) ↔ cart = cart' := by
  refine ⟨fun h => List.ext_getElem length fun i hi hi' => ?_, fun h _ => h ▸ rfl⟩
  have := h i
  rwa [List.getD_eq_getElem _ _ hi, List.getD_eq_getElem _ _ hi'] at this

lemma precedes_cons {c c' : ℕ} (length : cart.length = cart'.length) :
    Precedes (c :: cart) (c' :: cart') ↔ Precedes cart cart' ∨ cart = cart' ∧ c < c' := by
  rw [← forall_getD_eq_iff length]
  constructor
  · rintro ⟨axis, less, same⟩
    cases axis with
    | zero => exact .inr ⟨fun axis => same (axis + 1) (Nat.succ_pos _), less⟩
    | succ axis =>
      exact .inl ⟨axis, less, fun later hl => same (later + 1) (Nat.succ_lt_succ hl)⟩
  · rintro (⟨axis, less, same⟩ | ⟨same, less⟩)
    · refine ⟨axis + 1, less, fun later hl => ?_⟩
      obtain ⟨later, rfl⟩ := Nat.exists_eq_add_of_lt (Nat.zero_lt_of_lt hl)
      simpa using same (0 + later) (by omega)
    · refine ⟨0, less, fun later hl => ?_⟩
      obtain ⟨later, rfl⟩ := Nat.exists_eq_add_of_lt hl
      simpa using same (0 + later)

lemma mul_add_lt_mul_add_iff {m n c c' : ℕ} (hc : c < len) (hc' : c' < len) :
    m * len + c < n * len + c' ↔ m < n ∨ m = n ∧ c < c' := by
  have apart {m n : ℕ} (h : m < n) : m * len + len ≤ n * len := by
    rw [← Nat.succ_mul]
    exact Nat.mul_le_mul_right _ h
  rcases Nat.lt_trichotomy m n with h | rfl | h
  · have := apart h
    omega
  · omega
  · have := apart h
    omega

lemma number_lt_number_iff (h : IsPoint len dim cart) (h' : IsPoint len dim cart') :
    number len cart < number len cart' ↔ Precedes cart cart' := by
  induction cart generalizing dim cart' with
  | nil =>
    obtain rfl : cart' = [] := List.length_eq_zero_iff.1 (h'.length.trans h.length.symm)
    exact ⟨fun h => absurd h (Nat.lt_irrefl _), fun ⟨_, less, _⟩ => absurd less (Nat.lt_irrefl _)⟩
  | cons c cs ih =>
    obtain rfl : dim = cs.length + 1 := h.length.symm
    obtain ⟨c', cs', rfl⟩ := List.exists_cons_of_length_eq_add_one h'.length
    have same : number len cs = number len cs' ↔ cs = cs' := by
      refine ⟨fun eq => ?_, fun eq => eq ▸ rfl⟩
      rw [← h.tail.coords_number, eq, h'.tail.coords_number]
    rw [precedes_cons h'.tail.length.symm, ← ih h.tail h'.tail, ← same]
    exact mul_add_lt_mul_add_iff (h.lt c List.mem_cons_self) (h'.lt c' List.mem_cons_self)

lemma numbered (hlen : 0 < len) (counted : len ^ dim ≤ Word.limit) : Numbered len dim where
  number cart h := by
    refine ⟨number len cart, h.number_lt, number?_eq_some counted h, ?_⟩
    rw [coords?_eq_some hlen, h.coords_number]
  point i hi := by
    have h : IsPoint len dim (coords len dim i) := isPoint_coords hlen i
    refine ⟨coords len dim i, h, coords?_eq_some hlen i, ?_⟩
    rw [number?_eq_some counted h, number_coords hi]
  increasing cart cart' i i' h h' hi hi' := by
    rw [number?_eq_some counted h] at hi
    rw [number?_eq_some counted h'] at hi'
    rw [← Option.some.inj hi, ← Option.some.inj hi', number_lt_number_iff h h']

end Index

namespace Grid

variable {g : Grid} {k v w : ℕ}

/-- The number that a vertex has in the refined grid. -/
def refinedVertex (g : Grid) (k v : ℕ) : ℕ :=
  (g.refined k).vertexNumber ((g.vertexCoords v).map (2 ^ k * ·))

/-- The refined grid has the vertices of the grid among its own, where they were and each of them
once. -/
structure Nested (α : Type) [Scalar.Exact α] (g : Grid) (k : ℕ) : Prop where
  made : g.refined? k = .ok (g.refined k)
  computed : ∀ v < g.vertexCount, Index.number? (g.refined k).verticesPerAxis
    ((g.vertexCoords v).map (2 ^ k * ·)) = some (g.refinedVertex k v)
  exists_vertex : ∀ v < g.vertexCount, g.refinedVertex k v < (g.refined k).vertexCount
  coords : ∀ v < g.vertexCount,
    (g.refined k).vertexCoords (g.refinedVertex k v) = (g.vertexCoords v).map (2 ^ k * ·)
  injective : ∀ v < g.vertexCount, ∀ w < g.vertexCount,
    g.refinedVertex k v = g.refinedVertex k w → v = w
  position : ∀ v < g.vertexCount,
    ((g.refined k).position (g.refinedVertex k v) : List α) = g.position v
  onBoundary : ∀ v < g.vertexCount,
    (g.refined k).onBoundary (g.refinedVertex k v) = g.onBoundary v

lemma isPoint_refined : (g.refined k).IsPoint ((g.vertexCoords v).map (2 ^ k * ·)) where
  length := by rw [List.length_map]; exact isPoint_vertexCoords.length
  le i hi := by
    have place : g.IsPoint (g.vertexCoords v) := isPoint_vertexCoords
    have le := place.le i hi
    have hi' : i < (g.vertexCoords v).length := place.length.symm ▸ hi
    rw [List.getD_eq_getElem _ _ hi'] at le
    rw [List.getD_eq_getElem _ _ (by rwa [List.length_map]), List.getElem_map, Nat.mul_comm]
    exact Nat.mul_le_mul_right _ le

lemma vertexCoords_refinedVertex :
    (g.refined k).vertexCoords (g.refinedVertex k v) = (g.vertexCoords v).map (2 ^ k * ·) :=
  isPoint_refined.coords_number

lemma mul_meshWidth_refined {α : Type} [Scalar.Exact α] (g : Grid) (k c : ℕ) :
    ((2 ^ k * c : ℕ) : α) * (g.refined k).meshWidth = c * g.meshWidth := by
  have boxes : (g.boxes : α) ≠ 0 := Nat.cast_ne_zero.2 g.boxes_pos.ne'
  have fine : ((g.refined k).boxes : α) = g.boxes * 2 ^ k := by
    change ((g.boxes * 2 ^ k : ℕ) : α) = _
    push_cast
    rfl
  rw [meshWidth, meshWidth, fine]
  push_cast
  field_simp

lemma position_refinedVertex {α : Type} [Scalar.Exact α] :
    ((g.refined k).position (g.refinedVertex k v) : List α) = g.position v := by
  rw [position, position, vertexCoords_refinedVertex, List.map_map]
  exact List.map_congr_left fun c _ => mul_meshWidth_refined g k c

lemma onBoundary_refinedVertex :
    (g.refined k).onBoundary (g.refinedVertex k v) = g.onBoundary v := by
  have pos : 0 < 2 ^ k := Nat.two_pow_pos k
  have ends (c : ℕ) : (2 ^ k * c = 0 ↔ c = 0) ∧ (2 ^ k * c = g.boxes * 2 ^ k ↔ c = g.boxes) := by
    rw [Nat.mul_comm g.boxes]
    exact ⟨by simp, Nat.mul_right_inj pos.ne'⟩
  rw [onBoundary, onBoundary, vertexCoords_refinedVertex, List.any_map]
  refine congrArg (List.any _) (funext fun c => ?_)
  change (decide (2 ^ k * c = 0) || decide (2 ^ k * c = g.boxes * 2 ^ k)) = _
  simp only [ends c]

/-! ### Refining in turn -/

lemma refined?_of_lt (few : g.boxes * 2 ^ k < Word.limit) : g.refined? k = .ok (g.refined k) := by
  have times : k < 64 := (Nat.pow_lt_pow_iff_right Nat.one_lt_two).1
    ((Nat.le_mul_of_pos_left _ g.boxes_pos).trans_lt few)
  exact if_pos ⟨times, few⟩

lemma refined?_of_le (many : Word.limit ≤ g.boxes * 2 ^ k) : g.refined? k = .error .overflow :=
  if_neg fun h => Nat.not_lt.2 many h.2

/-- A grid that can be counted has fewer boxes than vertices. -/
lemma refined?_eq_ok (counted : (g.refined k).vertexCount < Word.limit) :
    g.refined? k = .ok (g.refined k) := by
  have boxes : g.boxes * 2 ^ k + 1 ≤ (g.refined k).vertexCount :=
    Nat.le_self_pow (Nat.ne_of_gt g.dim_pos) _
  exact refined?_of_lt (by omega)

lemma boxes_mul_two_pow (g : Grid) (a b : ℕ) :
    g.boxes * 2 ^ a * 2 ^ b = g.boxes * 2 ^ (a + b) := by rw [Nat.mul_assoc, Nat.pow_add]

lemma refined_refined (g : Grid) (a b : ℕ) : (g.refined a).refined b = g.refined (a + b) := by
  unfold refined
  congr 1
  exact boxes_mul_two_pow g a b

/-- Boxes that are too many in the first turn are too many in the end. -/
lemma refined?_add (g : Grid) (a b : ℕ) :
    g.refined? (a + b) = (g.refined? a).bind (·.refined? b) := by
  have boxes := boxes_mul_two_pow g a b
  have first : g.boxes * 2 ^ a ≤ g.boxes * 2 ^ (a + b) :=
    Nat.mul_le_mul_left _ (Nat.pow_le_pow_right Nat.two_pos (Nat.le_add_right a b))
  rcases Nat.lt_or_ge (g.boxes * 2 ^ (a + b)) Word.limit with few | many
  · rw [refined?_of_lt few, refined?_of_lt (first.trans_lt few), ← refined_refined]
    exact (refined?_of_lt (boxes.trans_lt few)).symm
  · rw [refined?_of_le many]
    rcases Nat.lt_or_ge (g.boxes * 2 ^ a) Word.limit with few | many'
    · rw [refined?_of_lt few]
      exact (refined?_of_le (many.trans_eq boxes.symm)).symm
    · rw [refined?_of_le many']
      rfl

lemma refinedVertex_refinedVertex (a b : ℕ) :
    (g.refined a).refinedVertex b (g.refinedVertex a v) = g.refinedVertex (a + b) v := by
  rw [refinedVertex, vertexCoords_refinedVertex, refined_refined, List.map_map, refinedVertex]
  congr 2
  funext c
  rw [Function.comp_apply, ← Nat.mul_assoc, ← Nat.pow_add, Nat.add_comm]

lemma nested (α : Type) [Scalar.Exact α] (counted : (g.refined k).vertexCount < Word.limit) :
    g.Nested α k where
  made := refined?_eq_ok counted
  computed v _ := Index.number?_eq_some counted.le ⟨isPoint_refined.length, isPoint_refined.digits⟩
  exists_vertex v _ := isPoint_refined.number_lt
  coords v _ := vertexCoords_refinedVertex
  injective v hv w hw same := by
    have coords : (g.vertexCoords v).map (2 ^ k * ·) = (g.vertexCoords w).map (2 ^ k * ·) := by
      rw [← vertexCoords_refinedVertex, same, vertexCoords_refinedVertex]
    refine eq_of_vertexCoords hv hw (List.map_injective_iff.2 (fun c d eq => ?_) coords)
    exact Nat.eq_of_mul_eq_mul_left (Nat.two_pow_pos k) eq
  position v _ := position_refinedVertex
  onBoundary v _ := onBoundary_refinedVertex

/-- **Grids are nested.** Points and numbers are in bijection and in the same order, with no step
of the conversions too large, whenever the points can be counted. The vertices of a grid are
vertices of every refinement that can be counted, where they were. Refining in two turns is refining
at once, for the grid and for its vertices. -/
theorem numbered_and_nested (α : Type) [Scalar.Exact α] :
    (∀ len dim, 0 < len → len ^ dim ≤ Word.limit → Index.Numbered len dim) ∧
    (∀ (g : Grid) k, (g.refined k).vertexCount < Word.limit → g.Nested α k) ∧
    ∀ (g : Grid) a b, g.refined? (a + b) = (g.refined? a).bind (·.refined? b) ∧
      ∀ v < g.vertexCount,
        (g.refined a).refinedVertex b (g.refinedVertex a v) = g.refinedVertex (a + b) v :=
  ⟨fun _ _ => Index.numbered, fun _ _ => nested α,
    fun g a b => ⟨refined?_add g a b, fun _ _ => refinedVertex_refinedVertex a b⟩⟩

/-- All words are the points of a cube of sixty-four axes; the middle of a square in two by two
boxes is that of four by four. -/
theorem numbered_and_nested_words :
    ((0 < 2 ∧ 2 ^ 64 ≤ Word.limit) ∧ Index.number? 2 (List.replicate 64 1) = some (2 ^ 64 - 1) ∧
      Index.coords? 2 64 (2 ^ 64 - 1) = some (List.replicate 64 1)) ∧
    (fourBoxes.refined 1).vertexCount < Word.limit ∧ fourBoxes.refinedVertex 1 4 = 12 ∧
      ((fourBoxes.refined 1).position 12 : List ℚ) = fourBoxes.position 4 ∧
      fourBoxes.refined? 2 = (fourBoxes.refined? 1).bind (·.refined? 1) := by
  obtain ⟨numbered, nested, turns⟩ := numbered_and_nested ℚ
  have counted : 2 ^ 64 ≤ Word.limit := le_refl _
  have ones : Index.IsPoint 2 64 (List.replicate 64 1) :=
    ⟨List.length_replicate, fun c hc => by rw [List.eq_of_mem_replicate hc]; decide⟩
  obtain ⟨i, -, number, coords⟩ := (numbered 2 64 Nat.two_pos counted).number _ ones
  have last : i = 2 ^ 64 - 1 := by
    rw [Index.number?_eq_some counted ones] at number
    rw [← Option.some.inj number]
    decide +kernel
  subst last
  have few : (fourBoxes.refined 1).vertexCount < Word.limit := by decide +kernel
  have middle : fourBoxes.refinedVertex 1 4 = 12 := by decide +kernel
  have place := (nested fourBoxes 1 few).position 4 (by decide +kernel)
  rw [middle] at place
  exact ⟨⟨⟨Nat.two_pos, counted⟩, number, coords⟩, few, middle, place, (turns fourBoxes 1 1).1⟩

end Grid

end Eigenmesh
