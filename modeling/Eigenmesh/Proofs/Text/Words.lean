import Mathlib.Data.List.Basic
import Mathlib.Tactic.Common
import Eigenmesh.Text.Blank

/-!
Words spread over a text.

Any blanks may stand before the words, between them and behind them, as long as two words do not
touch. A text that is cut at its blanks gives the words back, whatever the blanks are.
-/

namespace Eigenmesh.Text

variable {s rest word last gap lead body trail : List Char} {ws : List (List Char)} {c : Char}

/-- Nothing but blanks. -/
def AllBlank (s : List Char) : Prop := ∀ c ∈ s, isBlank c = true

/-- Something, and no blank in it. -/
structure IsWord (s : List Char) : Prop where
  nonempty : s ≠ []
  unbroken : ∀ c ∈ s, isBlank c = false

/-- A word before the text ends there. -/
def Parted (s : List Char) : Prop := ∀ c, s.head? = some c → isBlank c = true

/-- The text consists of the words, one after another, and of blanks around them. -/
inductive Spread : List (List Char) → List Char → Prop
  | blanks {gap : List Char} : AllBlank gap → Spread [] gap
  | word {gap word rest : List Char} {ws : List (List Char)} :
    AllBlank gap → IsWord word → Parted rest → Spread ws rest →
      Spread (word :: ws) (gap ++ (word ++ rest))

/-! ### Words of a text -/

lemma wordsAfter_blanks (blank : AllBlank gap) : wordsAfter [] (gap ++ s) = wordsAfter [] s := by
  induction gap with
  | nil => rfl
  | cons c gap ih =>
    obtain ⟨first, blank⟩ := List.forall_mem_cons.1 blank
    rw [List.cons_append, wordsAfter, if_pos first]
    exact ih blank

lemma wordsAfter_unbroken (before : List Char) (unbroken : ∀ c ∈ word, isBlank c = false) :
    wordsAfter before (word ++ s) = wordsAfter (word.reverse ++ before) s := by
  induction word generalizing before with
  | nil => rfl
  | cons c word ih =>
    obtain ⟨first, unbroken⟩ := List.forall_mem_cons.1 unbroken
    rw [List.cons_append, wordsAfter, first, if_neg Bool.false_ne_true, ih _ unbroken,
      List.reverse_cons, List.append_assoc, List.singleton_append]

lemma wordsAfter_parted {before : List Char} (nonempty : before ≠ []) (parted : Parted s) :
    wordsAfter before s = before.reverse :: wordsAfter [] s := by
  have some : ¬before.isEmpty = true := fun h => nonempty (List.isEmpty_iff.1 h)
  cases s with
  | nil => rw [wordsAfter, if_neg some]; rfl
  | cons c s =>
    have blank := parted c rfl
    rw [wordsAfter, if_pos blank, if_neg some]
    have first : AllBlank [c] := by simpa [AllBlank]
    exact congrArg _ (wordsAfter_blanks (s := s) first).symm

lemma words_of_spread (h : Spread ws s) : words s = ws := by
  induction h with
  | blanks blank =>
    have none := wordsAfter_blanks (s := []) blank
    rwa [List.append_nil] at none
  | @word gap word rest ws blank isWord parted _ ih =>
    have nonempty : word.reverse ++ [] ≠ [] := by simpa using isWord.nonempty
    calc words (gap ++ (word ++ rest)) = wordsAfter [] (word ++ rest) := wordsAfter_blanks blank
      _ = wordsAfter (word.reverse ++ []) rest := wordsAfter_unbroken [] isWord.unbroken
      _ = word :: words rest := by
        rw [wordsAfter_parted nonempty parted, List.append_nil, List.reverse_reverse, words]
      _ = word :: ws := by rw [ih]

lemma Spread.blank (h : Spread ws s) (first : isBlank c = true) : Spread ws (c :: s) := by
  cases h with
  | blanks blank => exact .blanks (List.forall_mem_cons.2 ⟨first, blank⟩)
  | @word gap _ _ _ blank isWord parted spread =>
    have blank : AllBlank (c :: gap) := List.forall_mem_cons.2 ⟨first, blank⟩
    exact .word blank isWord parted spread

lemma Spread.first (isWord : IsWord word) (parted : Parted s) (h : Spread ws s) :
    Spread (word :: ws) (word ++ s) :=
  @Spread.word [] word s ws nofun isWord parted h

lemma isWord_reverse (nonempty : s ≠ []) (unbroken : ∀ c ∈ s, isBlank c = false) :
    IsWord s.reverse where
  nonempty h := nonempty (List.reverse_eq_nil_iff.1 h)
  unbroken c hc := unbroken c (List.mem_reverse.1 hc)

lemma spread_wordsAfter (before : List Char) (unbroken : ∀ c ∈ before, isBlank c = false) :
    Spread (wordsAfter before s) (before.reverse ++ s) := by
  induction s generalizing before with
  | nil =>
    rw [wordsAfter]
    split
    case isTrue empty =>
      obtain rfl := List.isEmpty_iff.1 empty
      exact .blanks nofun
    case isFalse nonempty =>
      exact .first (isWord_reverse (mt List.isEmpty_iff.2 nonempty) unbroken) nofun
        (.blanks nofun)
  | cons c s ih =>
    rw [wordsAfter]
    split
    case isTrue blank =>
      have rest : Spread (wordsAfter [] s) (c :: s) := (ih [] nofun).blank blank
      split
      case isTrue empty =>
        obtain rfl := List.isEmpty_iff.1 empty
        exact rest
      case isFalse nonempty =>
        refine .first (isWord_reverse (mt List.isEmpty_iff.2 nonempty) unbroken) ?_ rest
        rintro _ ⟨⟩
        exact blank
    case isFalse letter =>
      have longer := ih (c :: before)
        (List.forall_mem_cons.2 ⟨Bool.eq_false_iff.2 letter, unbroken⟩)
      rwa [List.reverse_cons, List.append_assoc, List.singleton_append] at longer

/-- **The words of a text are those that it consists of.** -/
lemma words_eq_iff : words s = ws ↔ Spread ws s :=
  ⟨fun h => h ▸ spread_wordsAfter [] nofun, words_of_spread⟩

instance : Decidable (Spread ws s) := decidable_of_iff _ words_eq_iff

/-! ### One word, or two -/

lemma allBlank_of_spread (h : Spread [] s) : AllBlank s := by
  cases h with
  | blanks blank => exact blank

lemma exists_of_spread (h : Spread (word :: ws) s) : ∃ gap rest, s = gap ++ (word ++ rest) ∧
    AllBlank gap ∧ IsWord word ∧ Parted rest ∧ Spread ws rest := by
  cases h with
  | word blank isWord parted spread => exact ⟨_, _, rfl, blank, isWord, parted, spread⟩

lemma notMem_of_spread (h : Spread ws s) (letter : isBlank c = false) (absent : ∀ w ∈ ws, c ∉ w) :
    c ∉ s := by
  have apart {gap : List Char} (blank : AllBlank gap) : c ∉ gap := fun mem => by
    rw [blank c mem] at letter
    cases letter
  induction h with
  | blanks blank => exact apart blank
  | word blank _ _ _ ih =>
    obtain ⟨first, absent⟩ := List.forall_mem_cons.1 absent
    simp only [List.mem_append, not_or]
    exact ⟨apart blank, first, ih absent⟩

lemma dropWhile_isBlank (h : ∀ c, s.head? = some c → isBlank c = false) :
    s.dropWhile isBlank = s := by
  cases s with
  | nil => rfl
  | cons c s => rw [List.dropWhile_cons_of_neg (by rw [h c rfl]; exact Bool.false_ne_true)]

lemma dropWhile_blanks (blank : AllBlank gap) :
    (gap ++ s).dropWhile isBlank = s.dropWhile isBlank :=
  List.dropWhile_append_of_pos blank

lemma trim_blanks (blank : AllBlank s) : trim s = [] := by
  have none : s.dropWhile isBlank = [] := by
    have := dropWhile_blanks (s := []) blank
    rwa [List.append_nil] at this
  rw [trim, none]
  rfl

lemma trim_eq (before : AllBlank lead) (after : AllBlank trail) {first : List Char}
    (starts : IsWord first) (ends : IsWord last) (hfirst : first <+: body) (hlast : last <:+ body) :
    trim (lead ++ (body ++ trail)) = body := by
  obtain ⟨middle, rfl⟩ := hfirst
  obtain ⟨middle', same⟩ := hlast
  have forward : (first ++ middle ++ trail).dropWhile isBlank = first ++ middle ++ trail := by
    refine dropWhile_isBlank fun c head => starts.unbroken c ?_
    obtain ⟨d, first', rfl⟩ := List.exists_cons_of_ne_nil starts.nonempty
    obtain rfl : d = c := Option.some.inj head
    exact List.mem_cons_self
  have backward : (first ++ middle).reverse.dropWhile isBlank = (first ++ middle).reverse := by
    refine dropWhile_isBlank fun c head => ends.unbroken c ?_
    rw [List.head?_reverse, ← same, List.getLast?_append_of_ne_nil _ ends.nonempty] at head
    exact List.mem_of_getLast? head
  have blank : AllBlank trail.reverse := fun c hc => after c (List.mem_reverse.1 hc)
  rw [trim, dropWhile_blanks before, forward, List.reverse_append, dropWhile_blanks blank, backward,
    List.reverse_reverse]

lemma firstWord_eq (isWord : IsWord word) (parted : Parted rest) :
    firstWord (word ++ rest) = (word, rest.tail?) := by
  have letters : ∀ c ∈ word, (!isBlank c) = true := fun c hc => by
    rw [isWord.unbroken c hc]
    rfl
  have stops : rest.takeWhile (fun c => !isBlank c) = [] ∧
      rest.dropWhile (fun c => !isBlank c) = rest := by
    cases rest with
    | nil => exact ⟨rfl, rfl⟩
    | cons c rest => simp [parted c rfl]
  rw [firstWord, List.takeWhile_append_of_pos letters, List.dropWhile_append_of_pos letters,
    stops.1, stops.2, List.append_nil]
  cases rest <;> rfl

lemma firstWord_of_spread_one (h : Spread [word] s) : firstWord (trim s) = (word, none) := by
  obtain ⟨gap, rest, rfl, before, isWord, -, spread⟩ := exists_of_spread h
  rw [trim_eq before (allBlank_of_spread spread) isWord isWord List.prefix_rfl List.suffix_rfl]
  have alone : firstWord (word ++ []) = (word, none) := firstWord_eq isWord nofun
  rwa [List.append_nil] at alone

lemma firstWord_of_spread_two (h : Spread [word, last] s) :
    ∃ rest, firstWord (trim s) = (word, some rest) ∧ trim rest = last := by
  obtain ⟨lead, rest, rfl, before, isWord, parted, spread⟩ := exists_of_spread h
  obtain ⟨gap, trail, rfl, between, isLast, -, spread⟩ := exists_of_spread spread
  have after := allBlank_of_spread spread
  -- without a blank between them the words would touch
  cases gap with
  | nil =>
    obtain ⟨c, last, rfl⟩ := List.exists_cons_of_ne_nil isLast.nonempty
    have blank := parted c rfl
    rw [isLast.unbroken c List.mem_cons_self] at blank
    cases blank
  | cons c gap =>
    have parted' : Parted (c :: gap ++ last) := parted
    refine ⟨gap ++ last, ?_, ?_⟩
    · have body : lead ++ (word ++ (c :: gap ++ (last ++ trail))) =
          lead ++ (word ++ (c :: gap ++ last) ++ trail) := by
        simp only [List.append_assoc]
      have ends : last <:+ word ++ (c :: gap ++ last) :=
        (List.suffix_append _ _).trans (List.suffix_append _ _)
      rw [body, trim_eq before after isWord isLast (List.prefix_append _ _) ends,
        firstWord_eq isWord parted']
      rfl
    · have inner : AllBlank gap := fun d hd => between d (List.mem_cons_of_mem c hd)
      have trimmed : trim (gap ++ (last ++ [])) = last :=
        trim_eq inner nofun isLast isLast List.prefix_rfl List.suffix_rfl
      rwa [List.append_nil] at trimmed

lemma spread_intercalate (hws : ∀ w ∈ ws, IsWord w) : Spread ws ([' '].intercalate ws) := by
  induction ws with
  | nil => exact .blanks nofun
  | cons w ws ih =>
    obtain ⟨isWord, hws⟩ := List.forall_mem_cons.1 hws
    cases ws with
    | nil =>
      have alone : Spread [w] (w ++ []) := .first isWord nofun (.blanks nofun)
      rw [List.intercalate_singleton]
      rwa [List.append_nil] at alone
    | cons w' ws =>
      rw [List.intercalate_cons_cons, List.append_assoc, List.singleton_append]
      refine .first isWord ?_ ((ih hws).blank (by decide))
      rintro _ ⟨⟩
      decide

/-! ### Lines -/

lemma lines_of_notMem (h : '\n' ∉ s) : lines s = [s] := by
  induction s with
  | nil => rfl
  | cons c s ih =>
    rw [List.mem_cons, not_or] at h
    rw [lines, if_neg (Ne.symm h.1), ih h.2]

lemma lines_append (h : '\n' ∉ s) : lines (s ++ '\n' :: rest) = s :: lines rest := by
  induction s with
  | nil => rfl
  | cons c s ih =>
    rw [List.mem_cons, not_or] at h
    rw [List.cons_append, lines, if_neg (Ne.symm h.1), ih h.2]

/-- Lines that are written one below the other are read back; no line at all is one empty line. -/
lemma lines_intercalate (nonempty : ws ≠ []) (single : ∀ w ∈ ws, '\n' ∉ w) :
    lines (['\n'].intercalate ws) = ws := by
  induction ws with
  | nil => exact absurd rfl nonempty
  | cons w ws ih =>
    obtain ⟨first, single⟩ := List.forall_mem_cons.1 single
    cases ws with
    | nil => rw [List.intercalate_singleton, lines_of_notMem first]
    | cons w' ws => rw [List.intercalate_cons_cons, List.append_assoc, List.singleton_append,
        lines_append first, ih (List.cons_ne_nil _ _) single]

lemma lines_flatMap (single : ∀ w ∈ ws, '\n' ∉ w) :
    lines (ws.flatMap (· ++ ['\n'])) = ws ++ [[]] := by
  induction ws with
  | nil => rfl
  | cons w ws ih =>
    obtain ⟨first, single⟩ := List.forall_mem_cons.1 single
    rw [List.flatMap_cons, List.append_assoc, List.singleton_append, lines_append first, ih single,
      List.cons_append]

end Eigenmesh.Text
