import Mathlib.Data.List.Infix
import Mathlib.Data.List.Nodup
import Mathlib.Tactic.Common
import Eigenmesh.Factor.Backend
import Eigenmesh.Scalar.Double
import Eigenmesh.Workspace

/-!
The session and the solvers that are alive.

What a call does to the session depends on the session and on the names in use only, so it is told
once, as a relation, and all invariants are read off from it. The session counts the names in use,
whatever calls fail in between. As long as one of them stays in use, the session is neither closed
nor opened again, and its options change only where a call sets one.
-/

namespace Eigenmesh.Workspace

variable {α : Type}

/-! ### Calls and names -/

/-- The name under which a call makes a solver. -/
def Call.makes : Call α → Option String
  | .newSolver name _ _ | .newHandle name => some name
  | _ => none

/-- The name whose solver a call drops. A new solver takes the place of the one that has its
name. -/
def Call.drops : Call α → Option String
  | .newSolver name _ _ | .newHandle name | .drop name => some name
  | _ => none

/-- The options after a call within a session. -/
def Call.optionsAfter : Call α → Options → Options
  | .setOption name value, o => o.set name value
  | _, o => o

def names (w : Workspace α) : List String := w.slots.map Prod.fst

variable {w w' : Workspace α} {name : String} {slot : Slot α}

lemma isSome_slot?_iff : (w.slot? name).isSome ↔ name ∈ w.names := by
  rw [slot?, names, List.lookup_isSome_iff, List.mem_map]
  exact exists_congr fun e => and_congr_right fun _ => beq_iff_eq.trans eq_comm

lemma map_fst_putSlot {slots : List (String × Slot α)} :
    (putSlot name slot slots).map Prod.fst =
      if name ∈ slots.map Prod.fst then slots.map Prod.fst else slots.map Prod.fst ++ [name] := by
  induction slots with
  | nil => rfl
  | cons e slots ih =>
    obtain ⟨k, s⟩ := e
    unfold putSlot
    by_cases h : k = name
    · simp [h]
    · rw [if_neg h, List.map_cons, ih, List.map_cons]
      simp only [List.mem_cons, Ne.symm h, false_or]
      split <;> rfl

variable [Scalar α]

lemma names_dropSlot : (w.dropSlot name).names = w.names.filter (· ≠ name) := by
  unfold dropSlot
  split
  case h_1 slot _ =>
    rw [names, names, List.filter_map]
    rfl
  case h_2 absent =>
    refine (List.filter_eq_self.2 fun k hk => ?_).symm
    simp only [ne_eq, decide_eq_true_eq]
    rintro rfl
    rw [← isSome_slot?_iff, absent] at hk
    exact nomatch hk

lemma session_dropSlot : (w.dropSlot name).session =
    if name ∈ w.names then w.session.release else w.session := by
  unfold dropSlot
  split
  case h_1 there => rw [if_pos (isSome_slot?_iff.1 (there ▸ rfl))]
  case h_2 absent =>
    rw [if_neg fun h => ?_]
    rw [← isSome_slot?_iff, absent] at h
    exact nomatch h

lemma names_addSlot : (w.addSlot name slot).names = w.names.filter (· ≠ name) ++ [name] := by
  have dropped : (w.dropSlot name).names = w.names.filter (· ≠ name) := names_dropSlot
  unfold names at dropped ⊢
  simp only [addSlot, map_fst_putSlot, dropped]
  rw [if_neg (by simp)]

lemma session_addSlot : (w.addSlot name slot).session =
    if name ∈ w.names then w.session.release else w.session := session_dropSlot

/-! ### What a call does -/

/-- What a call does to the session and the names in use, and whether it succeeds. -/
inductive Effect (s : Session) (names : List String) :
    Call α → Bool → Session → List String → Prop
  | refused {c : Call α} (closed : s.initialized = false) : Effect s names c false s names
  | started {sources : OptionSources} {options : Options} (closed : s.initialized = false)
    (read : sources.options = .ok options) :
    Effect s names (.start sources) true { s with options, initialized := true } names
  | finished (opened : s.initialized = true) (idle : s.live = 0) :
    Effect s names .finish true { s with options := .empty, initialized := false } names
  | set {name : String} {value : Option String} (opened : s.initialized = true) :
    Effect s names (.setOption name value) true { s with options := s.options.set name value } names
  | made {c : Call α} {name : String} (opened : s.initialized = true) (makes : c.makes = some name)
    (drops : c.drops = some name) (options : ∀ o, c.optionsAfter o = o) :
    Effect s names c true { s with live := s.live + 1 - if name ∈ names then 1 else 0 }
      (names.filter (· ≠ name) ++ [name])
  | dropped {name : String} (there : name ∈ names) :
    Effect s names (.drop name) true s.release (names.filter (· ≠ name))
  | kept {c : Call α} {ok : Bool} (makes : c.makes = none) (drops : ok = true → c.drops = none)
    (options : ∀ o, c.optionsAfter o = o) : Effect s names c ok s names

omit [Scalar α] in
lemma create?_eq : w.create? = if w.session.initialized then
    .ok { w with session := { w.session with live := w.session.live + 1 } }
    else .error (Session.Fault.createBeforeStart.error.via "Eps::create") := by
  unfold create? Session.register?
  by_cases opened : w.session.initialized = true
  · rw [if_pos opened, if_pos opened]
  · rw [if_neg opened, if_neg opened]

lemma effect_addSlot {c : Call α} (opened : w.session.initialized = true)
    (makes : c.makes = some name) (drops : c.drops = some name)
    (options : ∀ o, c.optionsAfter o = o)
    (h : w' = { w with session := { w.session with live := w.session.live + 1 } }) :
    Effect w.session w.names c true (w'.addSlot name slot).session
      (w'.addSlot name slot).names := by
  subst h
  rw [session_addSlot, names_addSlot]
  change Effect _ _ _ _ (if name ∈ w.names then _ else _) _
  have made : Effect w.session w.names c true _ _ := .made opened makes drops options
  split
  case isTrue there => rwa [if_pos there] at made
  case isFalse fresh => rwa [if_neg fresh] at made

omit [Scalar α] in
lemma names_putSlot (there : (w.slot? name).isSome) :
    (putSlot name slot w.slots).map Prod.fst = w.names := by
  rw [map_fst_putSlot]
  exact if_pos (isSome_slot?_iff.1 there)

variable [Kernels α]

/-- **Every call has one of the effects.** -/
lemma effect_step (w : Workspace α) (c : Call α) :
    Effect w.session w.names c (w.step c).2.isOk (w.step c).1.session (w.step c).1.names := by
  cases c with
  | start sources =>
    rw [step, Session.start?]
    cases opened : w.session.initialized with
    | true => exact .kept rfl (fun _ => rfl) fun _ => rfl
    | false =>
      cases read : sources.options with
      | ok options => exact .started opened read
      | error e => exact .refused opened
  | finish =>
    rw [step, Session.finish?]
    cases opened : w.session.initialized with
    | true =>
      by_cases idle : w.session.live = 0
      · rw [if_neg (by decide), if_neg (not_not.2 idle)]
        exact .finished opened idle
      · rw [if_neg (by decide), if_pos idle]
        exact .kept rfl (fun _ => rfl) fun _ => rfl
    | false => exact .refused opened
  | setOption name value =>
    rw [step, Session.setOption?]
    by_cases opened : w.session.initialized = true
    · rw [if_pos opened]
      exact .set opened
    · rw [if_neg opened]
      exact .refused (Bool.eq_false_iff.2 opened)
  | newSolver name family wrap =>
    rw [step, create?_eq]
    cases opened : w.session.initialized with
    | true => exact effect_addSlot opened rfl rfl (fun _ => rfl) rfl
    | false => exact .refused opened
  | newHandle name =>
    rw [step, create?_eq]
    cases opened : w.session.initialized with
    | true => exact effect_addSlot opened rfl rfl (fun _ => rfl) rfl
    | false => exact .refused opened
  | drop name =>
    rw [step]
    split
    case isTrue there =>
      have named := isSome_slot?_iff.1 there
      rw [session_dropSlot, names_dropSlot, if_pos named]
      exact .dropped named
    case isFalse => exact .kept rfl nofun fun _ => rfl
  | solver name call =>
    rw [step]
    split
    case h_1 s there =>
      change Effect _ _ _ _ _ ((putSlot name _ w.slots).map Prod.fst)
      rw [names_putSlot (there ▸ rfl)]
      exact .kept rfl (fun _ => rfl) fun _ => rfl
    case h_2 => exact .kept rfl nofun fun _ => rfl
  | handle name call =>
    rw [step]
    split
    case h_1 s there =>
      change Effect _ _ _ _ _ ((putSlot name _ w.slots).map Prod.fst)
      rw [names_putSlot (there ▸ rfl)]
      exact .kept rfl (fun _ => rfl) fun _ => rfl
    case h_2 => exact .kept rfl nofun fun _ => rfl

/-! ### Invariants -/

/-- The session counts the names in use, and is initialized as long as there are any. -/
structure Sound (s : Session) (names : List String) : Prop where
  nodup : names.Nodup
  live : s.live = names.length
  opened : 0 < s.live → s.initialized = true

/-- How many solvers a call makes. -/
def made (w : Workspace α) (c : Call α) : ℕ := ((w.step c).2.isOk && c.makes.isSome).toNat

/-- How many solvers a call drops. -/
def dropped (w : Workspace α) (c : Call α) : ℕ :=
  ((w.step c).2.isOk && c.drops.any (· ∈ w.names)).toNat

/-- The sum of a count over all calls. -/
def total (count : Workspace α → Call α → ℕ) : Workspace α → List (Call α) → ℕ
  | _, [] => 0
  | w, c :: calls => count w c + total count (w.step c).1 calls

section Effects

omit [Scalar α] [Kernels α]

variable {s s' : Session} {names names' : List String} {c : Call α} {ok : Bool}

lemma length_filter_ne (name : String) (nodup : names.Nodup) :
    (names.filter (· ≠ name)).length + (if name ∈ names then 1 else 0) = names.length := by
  rw [← nodup.count, List.count_eq_countP, ← List.countP_eq_length_filter, Nat.add_comm,
    List.length_eq_countP_add_countP (· == name)]
  simp only [beq_iff_eq, ne_eq]

lemma toNat_drops {name : String} :
    (true && (some name).any (· ∈ names)).toNat = if name ∈ names then 1 else 0 := by
  by_cases there : name ∈ names <;> simp [there]

namespace Effect

variable (e : Effect s names c ok s' names')
include e

lemma sound (h : Sound s names) : Sound s' names' := by
  cases e with
  | refused | kept => exact h
  | started => exact ⟨h.nodup, h.live, fun _ => rfl⟩
  | finished opened idle => exact ⟨h.nodup, h.live, fun alive => absurd idle (Nat.ne_of_gt alive)⟩
  | set opened => exact ⟨h.nodup, h.live, fun _ => opened⟩
  | @made _ name opened _ _ _ =>
    refine ⟨?_, ?_, fun _ => opened⟩
    · exact List.nodup_append.2 ⟨h.nodup.filter _, List.nodup_singleton name, by simp⟩
    · have length := length_filter_ne name h.nodup
      have live := h.live
      rw [List.length_append, List.length_singleton]
      dsimp only
      omega
  | @dropped name there =>
    have length := length_filter_ne name h.nodup
    have live := h.live
    rw [if_pos there] at length
    refine ⟨h.nodup.filter _, ?_, fun alive => h.opened (Nat.lt_of_lt_of_le alive (Nat.sub_le _ _))⟩
    change s.live - 1 = _
    omega

lemma balance (h : Sound s names) : (ok && c.makes.isSome).toNat + s.live =
    s'.live + (ok && c.drops.any (· ∈ names)).toNat := by
  cases e with
  | refused => simp
  | started | finished | set => simp [Call.makes, Call.drops]
  | @made _ name opened makes drops _ =>
    have less : (if name ∈ names then 1 else 0) ≤ s.live + 1 := by split <;> omega
    rw [makes, drops, toNat_drops]
    change 1 + s.live = s.live + 1 - _ + _
    omega
  | @dropped name there =>
    have pos : 0 < s.live := h.live ▸ List.length_pos_of_mem there
    change 0 + s.live = s.live - 1 + (true && (some name).any (· ∈ names)).toNat
    rw [toNat_drops, if_pos there]
    omega
  | @kept _ ok makes drops _ =>
    cases ok with
    | true => simp [makes, drops rfl]
    | false => simp

lemma options (h : Sound s names) (alive : 0 < s.live) :
    s'.initialized = true ∧ s'.options = c.optionsAfter s.options := by
  have opened := h.opened alive
  cases e with
  | refused closed | started closed => exact nomatch opened.symm.trans closed
  | finished _ idle => exact absurd idle (Nat.ne_of_gt alive)
  | set => exact ⟨opened, rfl⟩
  | made _ _ _ options | kept _ _ options => exact ⟨opened, (options _).symm⟩
  | dropped => exact ⟨opened, rfl⟩

lemma ok_iff_of_makes (makes : c.makes = some name) : ok = true ↔ s.initialized = true := by
  cases e with
  | refused closed => simp [closed]
  | made opened => simp [opened]
  | started | finished | set | dropped => exact nomatch makes
  | kept none => exact nomatch none.symm.trans makes

end Effect

lemma Effect.eq_of_error (e : Effect s names c false s' names') : s' = s := by
  cases e with
  | refused | kept => rfl

end Effects

/-! ### All calls -/

lemma Sound.run (h : Sound w.session w.names) (calls : List (Call α)) :
    Sound (w.run calls).session (w.run calls).names := by
  induction calls generalizing w with
  | nil => exact h
  | cons c calls ih => exact ih ((effect_step w c).sound h)

lemma Sound.total_made (h : Sound w.session w.names) (calls : List (Call α)) :
    total made w calls + w.session.live = (w.run calls).session.live + total dropped w calls := by
  induction calls generalizing w with
  | nil => exact Nat.zero_add _
  | cons c calls ih =>
    have first : made w c + w.session.live = (w.step c).1.session.live + dropped w c :=
      (effect_step w c).balance h
    have rest := ih ((effect_step w c).sound h)
    change made w c + total made (w.step c).1 calls + _ =
      ((w.step c).1.run calls).session.live + (dropped w c + total dropped (w.step c).1 calls)
    omega

lemma Sound.options_run (h : Sound w.session w.names) (calls : List (Call α))
    (stays : ∀ p, p <+: calls → name ∈ (w.run p).names) :
    (w.run calls).session.initialized = true ∧
      (w.run calls).session.options =
        calls.foldl (fun o c => c.optionsAfter o) w.session.options := by
  have alive : 0 < w.session.live :=
    h.live ▸ List.length_pos_of_mem (stays [] List.nil_prefix)
  induction calls generalizing w with
  | nil => exact ⟨h.opened alive, rfl⟩
  | cons c calls ih =>
    -- the name is in use again after the first call, so the session has not been closed by it
    have h' := (effect_step w c).sound h
    have stays' (p : List (Call α)) (hp : p <+: calls) : name ∈ ((w.step c).1.run p).names :=
      stays (c :: p) (List.cons_prefix_cons.2 ⟨rfl, hp⟩)
    have rest := ih h' stays' (h'.live ▸ List.length_pos_of_mem (stays' [] List.nil_prefix))
    rw [((effect_step w c).options h alive).2] at rest
    exact rest

/-! ### Success -/

lemma isOk_setOption_iff {value : Option String} :
    (w.step (.setOption name value)).2.isOk = true ↔ w.session.initialized = true := by
  rw [step, Session.setOption?]
  by_cases opened : w.session.initialized = true
  · exact iff_of_true (if_pos opened ▸ rfl) opened
  · exact iff_of_false (if_neg opened ▸ nofun) opened

lemma isOk_finish_iff :
    (w.step .finish).2.isOk = true ↔ w.session.initialized = true ∧ w.session.live = 0 := by
  rw [step, Session.finish?]
  cases opened : w.session.initialized with
  | false => exact iff_of_false nofun nofun
  | true =>
    rw [if_neg (by decide), and_iff_right rfl]
    by_cases idle : w.session.live = 0
    · exact iff_of_true (if_neg (not_not.2 idle) ▸ rfl) idle
    · exact iff_of_false (if_pos idle ▸ nofun) idle

lemma session_of_error {c : Call α} {e : Failure} (h : (w.step c).2 = .error e) :
    (w.step c).1.session = w.session := by
  have effect := effect_step w c
  rw [h] at effect
  exact effect.eq_of_error

/-- **The life of the package.** Whatever calls are made, the session counts the solvers that are
made and not dropped, and it is initialized as long as there are any. A solver can be made, and an
option set, exactly within a session, and a session ends exactly if no solver is left. A call that
fails leaves the session as it is. As long as one name stays in use, all that changes of the session
are the options that are set and the count. -/
theorem run_lifecycle (calls : List (Call α)) :
    let w : Workspace α := fresh.run calls
    (total made fresh calls = w.session.live + total dropped fresh calls ∧
      w.session.live = w.slots.length ∧
      ∀ name, (w.slot? name).isSome → 0 < w.session.live) ∧
    (0 < w.session.live → w.session.initialized = true) ∧
    (∀ c, c.makes.isSome → ((w.step c).2.isOk ↔ w.session.initialized = true)) ∧
    (∀ name value, (w.step (.setOption name value)).2.isOk ↔ w.session.initialized = true) ∧
    ((w.step .finish).2.isOk ↔ w.session.initialized = true ∧ w.session.live = 0) ∧
    (∀ c e, (w.step c).2 = .error e → (w.step c).1.session = w.session) ∧
    ∀ name later, (∀ p, p <+: later → ((w.run p).slot? name).isSome) →
      (w.run later).session.initialized = true ∧
      (w.run later).session.options =
        later.foldl (fun o c => c.optionsAfter o) w.session.options := by
  intro w
  have start : Sound (fresh : Workspace α).session (fresh : Workspace α).names :=
    ⟨List.nodup_nil, rfl, nofun⟩
  have sound : Sound w.session w.names := start.run calls
  have live : w.session.live = w.slots.length := sound.live.trans (List.length_map _)
  refine ⟨⟨start.total_made calls, live, fun name there => ?_⟩, sound.opened, fun c makes => ?_,
    fun name value => isOk_setOption_iff, isOk_finish_iff, fun c e => session_of_error,
    fun name later stays => ?_⟩
  · exact sound.live ▸ List.length_pos_of_mem (isSome_slot?_iff.1 there)
  · obtain ⟨name, makes⟩ := Option.isSome_iff_exists.1 makes
    exact (effect_step w c).ok_iff_of_makes makes
  · exact sound.options_run later fun p hp => isSome_slot?_iff.1 (stays p hp)

/-- A session with one solver. -/
def withSolver : List (Call Float) := [.start ⟨none, ["-nev", "3"], none⟩, .newSolver "a" "" false]

/-- The session is to end and to start again, and the solver is made anew. -/
def inSession : List (Call Float) :=
  [.finish, .setOption "tol" none, .start ⟨none, ["-nev", "5"], none⟩, .newHandle "a"]

/-- The end is refused while there is a solver, and so the new start changes nothing. -/
theorem run_lifecycle_inSession :
    (∀ p, p <+: inSession → (((fresh.run withSolver).run p).slot? "a").isSome) ∧
    ¬((fresh.run withSolver).step .finish).2.isOk ∧
    ((fresh.run withSolver).run inSession).session.initialized = true ∧
    ["nev", "tol"].map ((fresh.run withSolver).run inSession).session.options.get? =
      [some (some "3"), some none] := by
  have stays : ∀ p, p <+: inSession → (((fresh.run withSolver).run p).slot? "a").isSome := by
    have listed : ∀ p ∈ inSession.inits, (((fresh.run withSolver).run p).slot? "a").isSome := by
      decide +kernel
    exact fun p hp => listed p ((List.mem_inits p inSession).2 hp)
  obtain ⟨⟨-, -, alive⟩, -, -, -, finish, -, later⟩ := run_lifecycle withSolver
  obtain ⟨opened, options⟩ := later "a" inSession stays
  refine ⟨stays, fun done => ?_, opened, ?_⟩
  · exact Nat.ne_of_gt (alive "a" (stays [] List.nil_prefix)) (finish.1 done).2
  · rw [options]
    decide +kernel

end Eigenmesh.Workspace
