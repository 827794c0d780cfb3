import Mathlib.Data.List.Basic
import Mathlib.Data.List.Nodup
import Mathlib.Data.Nat.Notation
import Mathlib.Tactic.Common
import Eigenmesh.Sparse.Triplets

/-!
Arrays written at listed places.

Values for unknowns, renumberings and known entries of a right-hand side are all made by writing
into an array, one place after the other. A place that is listed twice keeps what was written last;
where nothing contradicts, the order does not matter and the array holds what the list says.
-/

namespace Eigenmesh

/-- No place is given two different values. -/
def SingleValued {β : Type} (given : List (ℕ × β)) : Prop :=
  ∀ i v w, (i, v) ∈ given → (i, w) ∈ given → v = w

namespace SingleValued

variable {β : Type} {given given' : List (ℕ × β)}

lemma of_nodup (h : (given.map (·.1)).Nodup) : SingleValued given := by
  intro i v w hv hw
  exact congrArg Prod.snd (List.inj_on_of_nodup_map h hv hw rfl)

lemma subset (h : SingleValued given) (sub : ∀ p ∈ given', p ∈ given) : SingleValued given' :=
  fun i v w hv hw => h i v w (sub _ hv) (sub _ hw)

lemma lookup_eq (h : SingleValued given) {i : ℕ} {v : β} (hv : (i, v) ∈ given) :
    given.lookup i = some v := by
  induction given with
  | nil => cases hv
  | cons p given ih =>
    obtain ⟨k, w⟩ := p
    rw [List.lookup_cons]
    by_cases hk : i = k
    · subst hk
      rw [beq_self_eq_true, h i w v List.mem_cons_self hv]
    · have other : (i == k) = false := by simpa using hk
      rw [other]
      refine ih (h.subset fun p hp => List.mem_cons_of_mem _ hp) ?_
      rcases List.mem_cons.1 hv with hv | hv
      · exact absurd (congrArg Prod.fst hv) hk
      · exact hv

end SingleValued

lemma lookup_eq_none {β : Type} {given : List (ℕ × β)} {i : ℕ} (h : i ∉ given.map (·.1)) :
    given.lookup i = none := by
  rw [List.lookup_eq_none_iff]
  intro p hp
  simpa using fun e : i = p.1 => h (e ▸ List.mem_map_of_mem hp)

section Writing

variable {β γ : Type} (w : β → γ)

lemma size_write (given : List (ℕ × β)) (m : Array γ) :
    (given.foldl (fun m (i, v) => m.setIfInBounds i (w v)) m).size = m.size := by
  induction given generalizing m with
  | nil => rfl
  | cons p given ih => rw [List.foldl_cons, ih, Array.size_setIfInBounds]

lemma write_of_notMem {given : List (ℕ × β)} {i : ℕ} (h : i ∉ given.map (·.1)) (m : Array γ) :
    (given.foldl (fun m (i, v) => m.setIfInBounds i (w v)) m)[i]? = m[i]? := by
  induction given generalizing m with
  | nil => rfl
  | cons p given ih =>
    rw [List.map_cons, List.mem_cons, not_or] at h
    rw [List.foldl_cons, ih h.2, Array.getElem?_setIfInBounds_ne (Ne.symm h.1)]

lemma write_of_mem {given : List (ℕ × β)} (single : SingleValued given) {i : ℕ} {v : β}
    (h : (i, v) ∈ given) {m : Array γ} (hi : i < m.size) :
    (given.foldl (fun m (i, v) => m.setIfInBounds i (w v)) m)[i]? = some (w v) := by
  induction given generalizing m with
  | nil => cases h
  | cons p given ih =>
    obtain ⟨k, u⟩ := p
    rw [List.foldl_cons]
    by_cases later : i ∈ given.map (·.1)
    · obtain ⟨⟨_, u'⟩, hu, rfl⟩ := List.mem_map.1 later
      obtain rfl := single _ _ _ (List.mem_cons_of_mem _ hu) h
      exact ih (single.subset fun p hp => List.mem_cons_of_mem _ hp) hu
        (by rwa [Array.size_setIfInBounds])
    · rcases List.mem_cons.1 h with h | h
      · obtain ⟨rfl, rfl⟩ := Prod.mk.inj h
        rw [write_of_notMem w later, Array.getElem?_setIfInBounds_self_of_lt hi]
      · exact absurd (List.mem_map_of_mem h) later

lemma write_cases {given : List (ℕ × β)} {i : ℕ} {x : γ} {m : Array γ}
    (h : (given.foldl (fun m (i, v) => m.setIfInBounds i (w v)) m)[i]? = some x) :
    m[i]? = some x ∨ ∃ v, (i, v) ∈ given ∧ w v = x := by
  induction given generalizing m with
  | nil => exact .inl h
  | cons p given ih =>
    obtain ⟨k, u⟩ := p
    rcases ih h with h | ⟨v, hv, rfl⟩
    · by_cases hk : k = i
      · subst hk
        obtain ⟨-, rfl⟩ : k < m.size ∧ w u = x := by
          simpa [Array.getElem?_setIfInBounds] using h
        exact .inr ⟨u, List.mem_cons_self, rfl⟩
      · rw [Array.getElem?_setIfInBounds_ne hk] at h
        exact .inl h
    · exact .inr ⟨v, List.mem_cons_of_mem _ hv, rfl⟩

end Writing

/-! ### Renumberings -/

namespace Renumbering

variable {n : ℕ} {kept : Array ℕ} {m : Renumbering}

lemma of?_eq_some (h : of? n kept = some m) :
    (∀ i ∈ kept, i < n) ∧ m = (kept.toList.zipIdx.foldl
      (fun m (i, place) => m.setIfInBounds i (some place)) (Array.replicate n none)) := by
  unfold of? at h
  split at h
  · rename_i room
    rw [Bool.and_eq_true, Array.all_eq_true_iff_forall_mem] at room
    refine ⟨fun i hi => of_decide_eq_true (room.2 i hi), ?_⟩
    rw [← Option.some.inj h, ← Array.foldl_toList, Array.toList_zipIdx]
  · cases h

lemma exists_of? (room : Word.isArray n 16) (inside : ∀ i ∈ kept, i < n) :
    ∃ m, of? n kept = some m := by
  unfold of?
  rw [if_pos]
  · exact ⟨_, rfl⟩
  · rw [Bool.and_eq_true, Array.all_eq_true_iff_forall_mem]
    exact ⟨room, fun i hi => decide_eq_true (inside i hi)⟩

lemma getD_of_notMem (h : of? n kept = some m) {i : ℕ} (hi : i ∉ kept) : m.getD i none = none := by
  obtain ⟨-, rfl⟩ := of?_eq_some h
  have absent : i ∉ kept.toList.zipIdx.map (·.1) := by
    rwa [List.zipIdx_map_fst, Array.mem_toList_iff]
  rw [Array.getD_eq_getD_getElem?, write_of_notMem _ absent, Array.getElem?_replicate]
  split <;> rfl

lemma lt_size (h : of? n kept = some m) {i a : ℕ} (ha : m.getD i none = some a) :
    a < kept.size := by
  obtain ⟨-, rfl⟩ := of?_eq_some h
  rw [Array.getD_eq_getD_getElem?, Option.getD_eq_iff] at ha
  rcases write_cases some (ha.resolve_right fun h => nomatch h.2) with h | ⟨p, hp, h⟩
  · rw [Array.getElem?_replicate] at h
    split at h <;> cases h
  · obtain rfl := Option.some.inj h
    exact List.snd_lt_of_mem_zipIdx hp

lemma getD_of_getElem? (h : of? n kept = some m) (nodup : kept.toList.Nodup) {i a : ℕ}
    (ha : kept[a]? = some i) : m.getD i none = some a := by
  obtain ⟨inside, rfl⟩ := of?_eq_some h
  have listed : (i, a) ∈ kept.toList.zipIdx := by
    rw [List.mk_mem_zipIdx_iff_getElem?]
    simpa using ha
  have once : SingleValued kept.toList.zipIdx :=
    .of_nodup (by rwa [List.zipIdx_map_fst])
  have hi : i < (Array.replicate n (none : Option ℕ)).size := by
    rw [Array.size_replicate]
    exact inside i (Array.mem_of_getElem? ha)
  rw [Array.getD_eq_getD_getElem?, write_of_mem some once listed hi, Option.getD_some]

lemma getD_eq_some_iff (h : of? n kept = some m) (nodup : kept.toList.Nodup) {i a : ℕ} :
    m.getD i none = some a ↔ kept[a]? = some i := by
  refine ⟨fun ha => ?_, getD_of_getElem? h nodup⟩
  by_cases hi : i ∈ kept
  · obtain ⟨c, hc⟩ := Array.mem_iff_getElem?.1 hi
    rw [getD_of_getElem? h nodup hc] at ha
    rwa [← Option.some.inj ha]
  · rw [getD_of_notMem h hi] at ha
    cases ha

end Renumbering

end Eigenmesh
