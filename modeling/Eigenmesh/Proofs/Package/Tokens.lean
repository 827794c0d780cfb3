import Mathlib.Data.List.TakeWhile
import Mathlib.Data.Nat.Notation
import Mathlib.Tactic.Common
import Eigenmesh.Proofs.Package.Precedence

/-!
What a list of tokens changes about the options.

A token names an option if it is a name behind dashes, longer than one dash and not a number. What
counts for a name is the last token that names it and the token right after that one. Nothing is
carried over the end of a list, so a list may be cut in front of any token that names an option.
-/

namespace Eigenmesh.Options

variable {o : Options} {name token : String} {value : Option String} {tokens xs ys : List String}

/-! ### Names behind dashes -/

/-- The token is the name behind one dash or more, and is no value by its looks. -/
structure Spells (token name : String) : Prop where
  dashes : ∃ n > 0, token.toList = List.replicate n '-' ++ name.toList
  stripped : name.toList.head? ≠ some '-'
  long : 1 < token.utf8ByteSize
  notNumber : Decimal.float? token = none

/-- The token names an option. -/
def Naming (token : String) : Prop := ∃ name, Spells token name

lemma dropWhile_dashes {cs : List Char} (n : ℕ) (h : cs.head? ≠ some '-') :
    (List.replicate n '-' ++ cs).dropWhile (· = '-') = cs := by
  induction n with
  | zero =>
    cases cs with
    | nil => rfl
    | cons c cs => exact List.dropWhile_cons_of_neg (by simpa using h)
  | succ n ih =>
    rw [List.replicate_succ, List.cons_append, List.dropWhile_cons_of_pos (by decide)]
    exact ih

lemma spells_iff : Spells token name ↔ isName token = true ∧ bare token = name := by
  constructor
  · rintro ⟨⟨n, pos, written⟩, stripped, long, notNumber⟩
    obtain ⟨n, rfl⟩ := Nat.exists_eq_add_of_lt pos
    constructor
    · have head : token.toList.head? = some '-' := by
        rw [written]
        rfl
      simp [isName, long, head, notNumber]
    · rw [bare, written, dropWhile_dashes _ stripped, String.ofList_toList]
  · rintro ⟨naming, rfl⟩
    simp only [isName, Bool.and_eq_true, decide_eq_true_eq, Option.isNone_iff_eq_none] at naming
    obtain ⟨⟨long, head⟩, notNumber⟩ := naming
    have all : token.toList.takeWhile (· = '-') =
        List.replicate (token.toList.takeWhile (· = '-')).length '-' :=
      List.eq_replicate_of_mem fun c hc =>
        of_decide_eq_true (List.mem_takeWhile_imp (p := fun c => decide (c = '-')) hc)
    refine ⟨⟨(token.toList.takeWhile (· = '-')).length, ?_, ?_⟩, ?_, long, notNumber⟩
    · obtain ⟨c, cs, eq⟩ := List.exists_cons_of_ne_nil (l := token.toList) (by
        rintro nil
        rw [nil] at head
        cases head)
      rw [eq] at head ⊢
      obtain rfl := Option.some.inj head
      rw [List.takeWhile_cons_of_pos (by decide)]
      exact Nat.succ_pos _
    · rw [← all, bare, String.toList_ofList, List.takeWhile_append_dropWhile]
    · rw [bare, String.toList_ofList]
      intro dash
      have := List.head?_dropWhile_not (· = '-') token.toList
      rw [dash] at this
      exact absurd this (by decide)

lemma naming_iff : Naming token ↔ isName token = true :=
  ⟨fun ⟨_, spells⟩ => (spells_iff.1 spells).1, fun h => ⟨_, spells_iff.2 ⟨h, rfl⟩⟩⟩

instance : Decidable (Spells token name) := decidable_of_iff _ spells_iff.symm

instance : Decidable (Naming token) := decidable_of_iff _ naming_iff.symm

/-! ### The last token that spells a name -/

/-- The token at the place spells the name, and no later token does. -/
structure IsLast (tokens : List String) (name : String) (i : ℕ) : Prop where
  here : ∃ token, tokens[i]? = some token ∧ Spells token name
  later : ∀ j token, i < j → tokens[j]? = some token → ¬Spells token name

/-- The token at the place is followed by the value; it is followed by none if it is the last token
or if the next one names an option itself. -/
def Followed (tokens : List String) (i : ℕ) : Option String → Prop
  | none => ∀ next, tokens[i + 1]? = some next → Naming next
  | some value => tokens[i + 1]? = some value ∧ ¬Naming value

lemma IsLast.cons {i : ℕ} (h : IsLast tokens name i) : IsLast (token :: tokens) name (i + 1) where
  here := h.here
  later := fun
    | j + 1, t, hij, ht => h.later j t (Nat.lt_of_succ_lt_succ hij) ht

lemma isLast_head (spells : Spells token name) (none : ∀ t ∈ tokens, ¬Spells t name) :
    IsLast (token :: tokens) name 0 where
  here := ⟨token, rfl, spells⟩
  later := fun
    | _ + 1, t, _, ht => none t (List.mem_of_getElem? ht)

lemma followed_head : Followed (token :: tokens) 0 (firstValue tokens) := by
  cases tokens with
  | nil => exact nofun
  | cons next tokens =>
    rw [firstValue]
    split
    case isTrue naming =>
      rintro _ ⟨⟩
      exact naming_iff.2 naming
    case isFalse plain => exact ⟨rfl, fun naming => plain (naming_iff.1 naming)⟩

lemma lastMention_of_spells (spells : Spells token name) :
    lastMention (mentions (token :: tokens)) name =
      (lastMention (mentions tokens) name).or (some (firstValue tokens)) := by
  obtain ⟨naming, rfl⟩ := spells_iff.1 spells
  rw [mentions, if_pos naming, lastMention_cons, lookup_cons, if_pos rfl]

lemma lastMention_of_not_spells (spells : ¬Spells token name) :
    lastMention (mentions (token :: tokens)) name = lastMention (mentions tokens) name := by
  rw [mentions]
  split
  case isTrue naming =>
    have other : name ≠ bare token := fun same => spells (spells_iff.2 ⟨naming, same.symm⟩)
    rw [lastMention_cons, lookup_cons, if_neg other]
    exact Option.or_none
  case isFalse => rfl

lemma lastMention_mentions (tokens : List String) (name : String) :
    (∃ i value, IsLast tokens name i ∧ Followed tokens i value ∧
      lastMention (mentions tokens) name = some value) ∨
    (∀ token ∈ tokens, ¬Spells token name) ∧ lastMention (mentions tokens) name = none := by
  induction tokens with
  | nil => exact .inr ⟨nofun, rfl⟩
  | cons token tokens ih =>
    by_cases spells : Spells token name
    · rw [lastMention_of_spells spells]
      obtain ⟨i, value, last, followed, mentioned⟩ | ⟨none, mentioned⟩ := ih
      · exact .inl ⟨i + 1, value, last.cons, followed, by rw [mentioned]; rfl⟩
      · exact .inl ⟨0, _, isLast_head spells none, followed_head, by rw [mentioned]; rfl⟩
    · rw [lastMention_of_not_spells spells]
      obtain ⟨i, value, last, followed, mentioned⟩ | ⟨none, mentioned⟩ := ih
      · exact .inl ⟨i + 1, value, last.cons, followed, mentioned⟩
      · exact .inr ⟨List.forall_mem_cons.2 ⟨spells, none⟩, mentioned⟩

/-! ### Lists put together -/

lemma mentions_append_of_naming (h : ∀ first, ys.head? = some first → Naming first) :
    mentions (xs ++ ys) = mentions xs ++ mentions ys := by
  -- an option at the end of the first list takes nothing from the second
  have bounded : firstValue ys = none := by
    cases ys with
    | nil => rfl
    | cons first ys => exact if_pos (naming_iff.1 (h first rfl))
  induction xs with
  | nil => rfl
  | cons x xs ih =>
    have next : firstValue (xs ++ ys) = firstValue xs := by
      cases xs with
      | nil => exact bounded
      | cons => rfl
    rw [List.cons_append, mentions, mentions, next, ih]
    split <;> rfl

lemma mentions_cons_congr (next : firstValue xs = firstValue ys)
    (rest : mentions xs = mentions ys) : mentions (token :: xs) = mentions (token :: ys) := by
  rw [mentions, mentions, next, rest]

lemma mentions_append_cons (plain : ¬Naming token)
    (stray : ∀ before, xs.getLast? = some before → ¬Naming before) :
    mentions (xs ++ token :: ys) = mentions (xs ++ ys) := by
  have skipped : mentions (token :: ys) = mentions ys :=
    if_neg fun naming => plain (naming_iff.2 naming)
  induction xs with
  | nil => exact skipped
  | cons x xs ih =>
    cases xs with
    | nil =>
      have before : ¬isName x = true := fun naming => stray x rfl (naming_iff.2 naming)
      rw [List.cons_append, List.cons_append, mentions, mentions, if_neg before, if_neg before]
      exact skipped
    | cons x' xs => exact mentions_cons_congr rfl (ih stray)

lemma putAll_append {ms ms' : List (String × Option String)} :
    o.putAll (ms ++ ms') = (o.putAll ms).putAll ms' := List.foldl_append

/-- **What tokens change.** A name that a token spells gets the value after the last such token, any
other name keeps what it had. A token that names no option and follows none that does has no effect,
and tokens are read the same in two parts if the second one is empty or begins with a token that
names an option. -/
theorem insertArgs_exactly (o : Options) :
    (∀ tokens name,
      (∃ i value, IsLast tokens name i ∧ Followed tokens i value ∧
        (o.insertArgs tokens).get? name = some value) ∨
      (∀ token ∈ tokens, ¬Spells token name) ∧
        (o.insertArgs tokens).get? name = o.get? name) ∧
    (∀ xs token ys, ¬Naming token →
      (∀ before, xs.getLast? = some before → ¬Naming before) →
      o.insertArgs (xs ++ token :: ys) = o.insertArgs (xs ++ ys)) ∧
    ∀ xs ys, (∀ first, ys.head? = some first → Naming first) →
      o.insertArgs (xs ++ ys) = (o.insertArgs xs).insertArgs ys := by
  refine ⟨fun tokens name => ?_, fun xs token ys plain stray => ?_, fun xs ys bounded => ?_⟩
  · rw [insertArgs_eq, get?_putAll]
    obtain ⟨i, value, last, followed, mentioned⟩ | ⟨none, mentioned⟩ :=
      lastMention_mentions tokens name
    · exact .inl ⟨i, value, last, followed, by rw [mentioned]; rfl⟩
    · exact .inr ⟨none, by rw [mentioned]; rfl⟩
  · rw [insertArgs_eq, insertArgs_eq, mentions_append_cons plain stray]
  · rw [insertArgs_eq, insertArgs_eq, insertArgs_eq, mentions_append_of_naming bounded,
      putAll_append]

/-- A second number after an option is dropped, and the option with dashes to spare begins a list of
its own. -/
theorem insertArgs_exactly_numbers :
    (¬Naming "-inf" ∧ ¬Naming "-0.5" ∧ Naming "--nev") ∧
      empty.insertArgs ["-tol", "-0.5", "-inf", "--nev", "3"] =
        (empty.insertArgs ["-tol", "-0.5"]).insertArgs ["--nev", "3"] := by
  have number : ¬Naming "-inf" := by decide +kernel
  have value : ¬Naming "-0.5" := by decide +kernel
  have name : Naming "--nev" := by decide +kernel
  obtain ⟨-, dropped, cut⟩ := insertArgs_exactly empty
  refine ⟨⟨number, value, name⟩, ?_⟩
  calc empty.insertArgs (["-tol", "-0.5"] ++ "-inf" :: ["--nev", "3"])
      = empty.insertArgs (["-tol", "-0.5"] ++ ["--nev", "3"]) :=
        dropped _ _ _ number (by rintro _ ⟨⟩; exact value)
    _ = (empty.insertArgs ["-tol", "-0.5"]).insertArgs ["--nev", "3"] :=
        cut _ _ (by rintro _ ⟨⟩; exact name)

/-- The last of two spellings counts, a name of dashes only is the empty one, and a name with
nothing behind it takes its value away. -/
example : (["nev", "tol", "", "run"].map
      ((empty.put "tol" (some "1")).insertArgs
        ["run", "-nev", "3", "---", "-nan", "--nev", "-tol"]).get?) =
    [some none, some none, some (some "-nan"), none] := by
  decide +kernel

end Eigenmesh.Options
