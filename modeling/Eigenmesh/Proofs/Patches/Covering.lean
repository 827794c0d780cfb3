import Mathlib.Data.List.GetD
import Eigenmesh.Patches
import Eigenmesh.Proofs.Mesh.Nesting
import Eigenmesh.Proofs.Sparse.Positions

/-!
How often the patches cover a vertex.

Along one axis a fine coordinate is near a single coarse plane if it lies on one, and near two
otherwise. Since patches are made of all choices of one plane an axis, the numbers of choices
multiply.
-/

namespace Eigenmesh.Patches

variable {coarse : Grid} {k w n v vertex : ℕ} {isEssential : ℕ → Bool} {essential : List ℕ}

/-! ### Near planes -/

lemma near_cons {c m : ℕ} {cs ms : List ℕ} :
    near w (c :: cs) (m :: ms) = ((c < m + w && m < c + w) && near w cs ms) := rfl

/-- Near a coordinate are the plane before it and, unless it is on this, the next one. -/
lemma near_plane_iff (hw : 0 < w) {c m : ℕ} : c < m * w + w ∧ m * w < c + w ↔
    m = c / w ∨ m = c / w + 1 ∧ c % w ≠ 0 := by
  have parts : c = c / w * w + c % w := (Nat.div_add_mod' c w).symm
  have rest : c % w < w := Nat.mod_lt c hw
  have next : (c / w + 1) * w = c / w * w + w := Nat.succ_mul _ _
  constructor
  · rintro ⟨low, high⟩
    have lower : ¬m + 1 ≤ c / w := fun h => by
      have := Nat.mul_le_mul_right w h
      rw [Nat.succ_mul] at this
      omega
    have upper : ¬c / w + 2 ≤ m := fun h => by
      have := Nat.mul_le_mul_right w h
      rw [Nat.add_mul] at this
      omega
    obtain rfl | rfl : m = c / w ∨ m = c / w + 1 := by omega
    · exact .inl rfl
    · exact .inr ⟨rfl, by omega⟩
  · rintro (rfl | ⟨rfl, h⟩) <;> omega

/-- A coordinate on a coarse plane is near this one only, one between two planes near both. -/
lemma countP_planes (hw : 0 < w) {c : ℕ} (hc : c ≤ n * w) :
    (List.range (n + 1)).countP (fun m => c < m * w + w && m * w < c + w) =
      if w ∣ c then 1 else 2 := by
  have le : c / w ≤ n := Nat.div_le_of_le_mul (Nat.mul_comm n w ▸ hc)
  split
  case isTrue divides =>
    have zero : c % w = 0 := Nat.mod_eq_zero_of_dvd divides
    refine countP_of_one List.nodup_range (List.mem_range.2 (Nat.lt_succ_of_le le)) fun m _ => ?_
    rw [Bool.and_eq_true, decide_eq_true_eq, decide_eq_true_eq, near_plane_iff hw,
      or_iff_left fun h => h.2 zero]
  case isFalse apart =>
    have nonzero : c % w ≠ 0 := fun h => apart (Nat.dvd_of_mod_eq_zero h)
    have below : c / w < n := by
      refine lt_of_le_of_ne le fun eq => ?_
      have parts := Nat.div_add_mod' c w
      rw [eq] at parts
      omega
    rw [countP_of_two List.nodup_range (Nat.ne_of_lt (Nat.lt_succ_self (c / w))) fun m _ => ?_,
      if_pos (List.mem_range.2 (by omega)), if_pos (List.mem_range.2 (by omega))]
    rw [Bool.and_eq_true, decide_eq_true_eq, decide_eq_true_eq, near_plane_iff hw,
      and_iff_left nonzero]

lemma countP_near (hw : 0 < w) {cs : List ℕ} (hcs : ∀ c ∈ cs, c ≤ n * w) :
    ((List.range ((n + 1) ^ cs.length)).map (Index.coords (n + 1) cs.length)).countP
        (fun ms => near w cs (ms.map (· * w))) = 2 ^ cs.countP fun c => ¬w ∣ c := by
  induction cs with
  | nil => rfl
  | cons c cs ih =>
    obtain ⟨hc, hcs⟩ := List.forall_mem_cons.1 hcs
    rw [List.length_cons, Index.map_coords_range,
      countP_flatMap_of (q := fun ms => near w cs (ms.map (· * w))) (n := if w ∣ c then 1 else 2)
        fun ms _ => ?_, ih hcs, List.countP_cons]
    · by_cases h : w ∣ c
      · simp [h]
      · simp [h, pow_succ]
    · rw [← countP_planes hw hc, List.countP_map]
      cases h : near w cs (ms.map (· * w)) <;> simp [Function.comp_def, near_cons, h]

lemma near_eq_true_iff {p q : List ℕ} (length : p.length = q.length) : near w p q = true ↔
    ∀ i < p.length, |(p.getD i 0 : ℤ) - q.getD i 0| < w := by
  induction p generalizing q with
  | nil => simp [near]
  | cons c p ih =>
    cases q with
    | nil => exact absurd length (Nat.succ_ne_zero _)
    | cons m q =>
      have first : (c < m + w ∧ m < c + w) ↔ |(c : ℤ) - m| < w := by
        rw [abs_lt]
        omega
      rw [near_cons, Bool.and_eq_true, Bool.and_eq_true, decide_eq_true_eq, decide_eq_true_eq,
        first, ih (Nat.succ.inj length), List.length_cons, Nat.forall_lt_succ_left]
      rfl

/-! ### The unknowns of a patch -/

/-- The free unknowns near a coarse vertex. -/
def dofsAround (coarse : Grid) (k : ℕ) (isEssential : ℕ → Bool) (vertex : ℕ) : List ℕ :=
  (List.range (coarse.refined k).vertexCount).filter fun v =>
    !isEssential v && near (2 ^ k) ((coarse.refined k).vertexCoords v)
      ((coarse.vertexCoords vertex).map (· * 2 ^ k))

lemma patches_around : (around coarse k isEssential).patches =
    ((List.range coarse.vertexCount).map fun c =>
      (⟨c, dofsAround coarse k isEssential c⟩ : Patch)).filter fun p => !p.dofs.isEmpty := by
  have dofs (center : List ℕ) :
      (((((List.range (coarse.refined k).vertexCount).filter fun v => !isEssential v).map fun v =>
        (v, (coarse.refined k).vertexCoords v)).filter
          fun x => near (2 ^ k) x.2 center).map (·.1)) =
      (List.range (coarse.refined k).vertexCount).filter fun v =>
        !isEssential v && near (2 ^ k) ((coarse.refined k).vertexCoords v) center := by
    rw [List.filter_map, List.map_map, List.filter_filter]
    refine (List.map_id _).trans (List.filter_congr fun v _ => ?_)
    exact Bool.and_comm _ _
  unfold around
  simp only [dofsAround, ← dofs]
  rfl

lemma mem_patches_around {p : Patch} : p ∈ (around coarse k isEssential).patches ↔
    p.vertex < coarse.vertexCount ∧ p.dofs = dofsAround coarse k isEssential p.vertex ∧
      p.dofs ≠ [] := by
  rw [patches_around, List.mem_filter, List.mem_map, Bool.not_eq_true', List.isEmpty_eq_false_iff]
  constructor
  · rintro ⟨⟨c, hc, rfl⟩, nonempty⟩
    exact ⟨List.mem_range.1 hc, rfl, nonempty⟩
  · rintro ⟨hc, dofs, nonempty⟩
    exact ⟨⟨p.vertex, List.mem_range.2 hc, by rw [← dofs]⟩, nonempty⟩

/-- The fine vertex is less than a coarse box away from the coarse one along every axis. -/
def Close (coarse : Grid) (k v vertex : ℕ) : Prop :=
  ∀ i < coarse.dim, |(((coarse.refined k).vertexCoords v).getD i 0 : ℤ) -
    2 ^ k * (coarse.vertexCoords vertex).getD i 0| < 2 ^ k

lemma near_iff_close : near (2 ^ k) ((coarse.refined k).vertexCoords v)
    ((coarse.vertexCoords vertex).map (· * 2 ^ k)) = true ↔ Close coarse k v vertex := by
  have fine : ((coarse.refined k).vertexCoords v).length = coarse.dim := Index.length_coords
  have center : (coarse.vertexCoords vertex).length = coarse.dim := Index.length_coords
  rw [near_eq_true_iff (by rw [fine, List.length_map, center]), fine]
  refine forall₂_congr fun i hi => ?_
  have scaled : ((coarse.vertexCoords vertex).map (· * 2 ^ k)).getD i 0 =
      2 ^ k * (coarse.vertexCoords vertex).getD i 0 := by
    rw [List.getD_eq_getElem _ 0 (by rwa [List.length_map, center]), List.getElem_map,
      List.getD_eq_getElem _ 0 (center.symm ▸ hi), Nat.mul_comm]
  rw [scaled]
  push_cast
  rfl

lemma mem_dofsAround : v ∈ dofsAround coarse k isEssential vertex ↔
    v < (coarse.refined k).vertexCount ∧ isEssential v = false ∧ Close coarse k v vertex := by
  rw [dofsAround, List.mem_filter, List.mem_range, Bool.and_eq_true, Bool.not_eq_true',
    near_iff_close]

lemma pairwise_dofsAround : (dofsAround coarse k isEssential vertex).Pairwise (· < ·) :=
  List.pairwise_lt_range.filter _

lemma countP_patches_around (hv : v < (coarse.refined k).vertexCount)
    (free : isEssential v = false) :
    (around coarse k isEssential).patches.countP (fun p => v ∈ p.dofs) =
      2 ^ ((coarse.refined k).vertexCoords v).countP fun c => ¬2 ^ k ∣ c := by
  have length : ((coarse.refined k).vertexCoords v).length = coarse.dim := Index.length_coords
  have bounds : ∀ c ∈ (coarse.refined k).vertexCoords v, c ≤ coarse.boxes * 2 ^ k := fun _ hc =>
    Nat.le_of_lt_succ (Index.lt_of_mem_coords (Nat.succ_pos _) hc)
  have choices := countP_near (Nat.two_pow_pos k) bounds
  rw [length, List.countP_map] at choices
  rw [← choices, patches_around, List.countP_filter, List.countP_map]
  refine List.countP_congr fun c _ => ?_
  simp only [Function.comp_apply, Bool.and_eq_true, decide_eq_true_eq, Bool.not_eq_true',
    List.isEmpty_eq_false_iff, mem_dofsAround, ← near_iff_close]
  constructor
  · exact fun h => h.1.2.2
  · intro h
    exact ⟨⟨hv, free, h⟩,
      List.ne_nil_of_mem (mem_dofsAround.2 ⟨hv, free, near_iff_close.1 h⟩)⟩

/-! ### All patches -/

lemma pairwise_vertices_around :
    ((around coarse k isEssential).patches.map (·.vertex)).Pairwise (· < ·) := by
  have listed : ((List.range coarse.vertexCount).map fun c =>
      (⟨c, dofsAround coarse k isEssential c⟩ : Patch)).Pairwise
        fun p q => p.vertex < q.vertex := List.pairwise_map.2 List.pairwise_lt_range
  rw [patches_around, List.pairwise_map]
  exact listed.filter _

lemma mem_vertices_around : vertex ∈ (around coarse k isEssential).patches.map (·.vertex) ↔
    vertex < coarse.vertexCount ∧ dofsAround coarse k isEssential vertex ≠ [] := by
  rw [List.mem_map]
  constructor
  · rintro ⟨p, hp, rfl⟩
    obtain ⟨hvertex, dofs, nonempty⟩ := mem_patches_around.1 hp
    exact ⟨hvertex, dofs ▸ nonempty⟩
  · rintro ⟨hvertex, nonempty⟩
    exact ⟨⟨vertex, _⟩, mem_patches_around.2 ⟨hvertex, rfl, nonempty⟩, rfl⟩

/-- What the patches of the free unknowns are to be: every free unknown in as many of them as there
are coarse vertices less than a coarse box away, nothing else in any, and none empty. -/
structure Covers (P : Patches) (coarse : Grid) (k : ℕ) (essential : List ℕ) : Prop where
  dofCount : P.dofCount = (coarse.refined k).vertexCount
  excluded : ∀ v ∈ essential, ∀ p ∈ P.patches, v ∉ p.dofs
  covered : ∀ v < (coarse.refined k).vertexCount, v ∉ essential →
    P.patches.countP (fun p => v ∈ p.dofs) =
      2 ^ ((coarse.refined k).vertexCoords v).countP fun c => ¬2 ^ k ∣ c
  bounds : ∀ v < (coarse.refined k).vertexCount, v ∉ essential →
    1 ≤ P.patches.countP (fun p => v ∈ p.dofs) ∧
      P.patches.countP (fun p => v ∈ p.dofs) ≤ 2 ^ coarse.dim
  dofs : ∀ p ∈ P.patches, p.vertex < coarse.vertexCount ∧ p.dofs ≠ [] ∧
    p.dofs.Pairwise (· < ·) ∧ ∀ v, v ∈ p.dofs ↔
      v < (coarse.refined k).vertexCount ∧ v ∉ essential ∧ Close coarse k v p.vertex
  vertices : (P.patches.map (·.vertex)).Pairwise (· < ·)
  left_out : ∀ c < coarse.vertexCount, c ∉ P.patches.map (·.vertex) ↔
    ∀ v < (coarse.refined k).vertexCount, Close coarse k v c → v ∈ essential

lemma covers_around
    (h : ∀ v < (coarse.refined k).vertexCount, isEssential v = true ↔ v ∈ essential) :
    Covers (around coarse k isEssential) coarse k essential := by
  have free_iff {v : ℕ} (hv : v < (coarse.refined k).vertexCount) :
      isEssential v = false ↔ v ∉ essential := by
    rw [← h v hv, Bool.not_eq_true]
  refine ⟨rfl, fun v hv p hp mem => ?_, fun v hv hfree => ?_, fun v hv hfree => ?_, fun p hp => ?_,
    pairwise_vertices_around, fun c hc => ?_⟩
  · obtain ⟨-, dofs, -⟩ := mem_patches_around.1 hp
    rw [dofs, mem_dofsAround] at mem
    exact (free_iff mem.1).1 mem.2.1 hv
  · exact countP_patches_around hv ((free_iff hv).2 hfree)
  · have length : ((coarse.refined k).vertexCoords v).length = coarse.dim := Index.length_coords
    rw [countP_patches_around hv ((free_iff hv).2 hfree), ← length]
    exact ⟨Nat.one_le_two_pow, Nat.pow_le_pow_right Nat.two_pos List.countP_le_length⟩
  · obtain ⟨hvertex, dofs, nonempty⟩ := mem_patches_around.1 hp
    refine ⟨hvertex, nonempty, dofs ▸ pairwise_dofsAround, fun v => ?_⟩
    rw [dofs, mem_dofsAround]
    exact and_congr_right fun hv => and_congr_left fun _ => free_iff hv
  · rw [mem_vertices_around, not_and, not_not, forall_prop_of_true hc,
      List.eq_nil_iff_forall_not_mem]
    refine forall_congr' fun v => ?_
    rw [mem_dofsAround]
    constructor
    · exact fun none hv close => by_contra fun hfree => none ⟨hv, (free_iff hv).2 hfree, close⟩
    · exact fun all ⟨hv, hfree, close⟩ => (free_iff hv).1 hfree (all hv close)

lemma getD_flags {n : ℕ} (hv : v < n) : (essential.foldl (fun f v => f.setIfInBounds v true)
    (Array.replicate n false)).getD v false = true ↔ v ∈ essential := by
  have pairs : essential.foldl (fun f v => f.setIfInBounds v true) (Array.replicate n false) =
      (essential.map fun v => (v, ())).foldl (fun f (v, _) => f.setIfInBounds v true)
        (Array.replicate n false) := by
    rw [List.foldl_map]
  have single : SingleValued (essential.map fun v => (v, ())) := fun _ _ _ _ _ => rfl
  rw [pairs, Array.getD_eq_getD_getElem?]
  by_cases h : v ∈ essential
  · have listed : (v, ()) ∈ essential.map fun v => (v, ()) := List.mem_map_of_mem h
    rw [write_of_mem (fun _ => true) single listed (by simpa)]
    simp [h]
  · have absent : v ∉ (essential.map fun v => (v, ())).map (·.1) := by simpa using h
    rw [write_of_notMem (fun _ => true) absent]
    simp [h, hv]

lemma covers_of_eq_ok {P : Patches} (made : of? coarse k essential = .ok P) :
    P.Covers coarse k essential ∧ ∀ v ∈ essential, v < (coarse.refined k).vertexCount := by
  unfold of? Grid.refined? Grid.counted at made
  by_cases small : k < 64 ∧ coarse.boxes * Nat.pow 2 k < Word.limit
  case neg => rw [if_neg small] at made; cases made
  rw [if_pos small] at made
  dsimp only [bind, Except.bind] at made
  by_cases few : (coarse.refined k).vertexCount < Word.limit
  case neg => rw [if_neg few] at made; cases made
  rw [if_pos few] at made
  dsimp only at made
  split at made
  · cases made
  · split at made
    case isTrue inside =>
      cases made
      exact ⟨covers_around fun v hv => getD_flags hv,
        fun v hv => of_decide_eq_true (List.all_eq_true.1 inside v hv)⟩
    case isFalse => cases made

end Eigenmesh.Patches
