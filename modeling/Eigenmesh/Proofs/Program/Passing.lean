import Mathlib.Data.List.TakeWhile
import Mathlib.Tactic.Common
import Eigenmesh.Program.Poisson
import Eigenmesh.Proofs.Package.Tokens

/-!
What a program passes on.

Of the reader of arguments only one thing matters, that the tokens after the first separator are its
rest; the reader by a list of rules is such a one, whatever the rules are. Names with one dash and
several letters are replaced before arguments are read, so they are replaced among the tokens that
are passed on, too: such a token enters the runtime options under the long name, every other one as
it is.
-/

namespace Eigenmesh.Program

namespace Arguments

variable {g : Grammar} {a b : Arguments} {rule : OptionRule} {value : String}

/-- The tokens after the first separator. -/
def afterSeparator (args : List String) : List String := (args.dropWhile (· ≠ "--")).tail

/-- The reader passes on the tokens after the first separator. -/
def KeepsRest (reader : List String → Except Refusal Arguments) : Prop :=
  ∀ args a, reader args = .ok a → a.rest = afterSeparator args

lemma token_eq_separator_iff {s : String} : token s = .separator ↔ s = "--" := by
  constructor
  · intro h
    unfold token at h
    split at h
    · rename_i written
      exact String.toList_inj.1 written
    · cases h
    · cases h
    · cases h
  · rintro rfl
    rfl

lemma rest_put (h : a.put rule value = .ok b) : b.rest = a.rest := by
  unfold put at h
  split at h
  · cases h
  · cases h
    rfl

lemma rest_map_put {pending pending' : Option OptionRule}
    (h : (a.put rule value).map (·, pending) = .ok (b, pending')) : b.rest = a.rest := by
  cases taken : a.put rule value with
  | error e => rw [taken] at h; cases h
  | ok c =>
    rw [taken] at h
    cases h
    exact rest_put taken

lemma rest_option {rule : Option OptionRule} {value : Option String} {pending : Option OptionRule}
    (h : a.option rule value = .ok (b, pending)) : b.rest = a.rest := by
  unfold option at h
  split at h
  · cases h
  · split at h
    · exact rest_map_put h
    · cases h
  · split at h
    · cases h
      rfl
    · exact rest_map_put h

section Steps

variable {s : String} {args : List String}

lemma exists_read_of_option {rule : Option OptionRule} {value : Option String}
    (h : (match a.option rule value with
      | .ok (a, pending) => a.read g pending args
      | .error e => .error e) = .ok b) :
    ∃ a' pending, a'.rest = a.rest ∧ read g a' pending args = .ok b := by
  split at h
  · rename_i taken
    exact ⟨_, _, rest_option taken, h⟩
  · cases h

lemma exists_read_of_ne {pending : Option OptionRule} (hs : s ≠ "--")
    (h : a.read g pending (s :: args) = .ok b) :
    ∃ a' pending', a'.rest = a.rest ∧ read g a' pending' args = .ok b := by
  cases pending with
  | none =>
    rw [read] at h
    split at h
    · rename_i separator
      exact absurd (token_eq_separator_iff.1 separator) hs
    · cases h
    · split_ifs at h
      exact exists_read_of_option h
    · split_ifs at h
      exact exists_read_of_option h
  | some rule =>
    rw [read] at h
    split_ifs at h
    split at h
    · rename_i taken
      exact ⟨_, _, rest_put taken, h⟩
    · cases h

/-- An option that waits for its value does not get the separator. -/
lemma rest_of_read_separator {pending : Option OptionRule}
    (h : a.read g pending ("--" :: args) = .ok b) : b.rest = args := by
  have separator : token "--" = .separator := token_eq_separator_iff.2 rfl
  cases pending with
  | none => rw [read, separator] at h; cases h; rfl
  | some rule => rw [read, separator] at h; cases h

lemma rest_read {pending : Option OptionRule} (empty : a.rest = [])
    (h : a.read g pending args = .ok b) : b.rest = afterSeparator args := by
  induction args generalizing a pending with
  | nil =>
    cases pending with
    | none => cases h; exact empty
    | some => cases h
  | cons s args ih =>
    by_cases hs : s = "--"
    · subst hs
      exact rest_of_read_separator h
    · obtain ⟨a', pending', same, h⟩ := exists_read_of_ne hs h
      rw [ih (same.trans empty) h]
      simp [afterSeparator, hs]

end Steps

/-- **Reading by rules keeps the rest**, whatever the rules are. -/
theorem keepsRest_parse (g : Grammar) : KeepsRest (parse g) := fun _ _ h => rest_read rfl h

end Arguments

namespace Poisson

open Arguments

variable {args tokens : List String} {token name : String} {value : Option String} {c : Config}

/-- The token is written with one dash and several letters, and stands for an option. -/
def IsAlias (token : String) : Prop := token ∈ aliases.map Prod.fst

instance : Decidable (IsAlias token) := inferInstanceAs (Decidable (_ ∈ _))

/-- The runtime option that a token names: an alias names the option that it stands for, and what it
spells is no option. -/
def EntersAs (token name : String) : Prop :=
  (token, "--" ++ name) ∈ aliases ∨ ¬IsAlias token ∧ Options.Spells token name

instance : Decidable (EntersAs token name) := inferInstanceAs (Decidable (_ ∨ _ ∧ _))

/-- The token at the place enters as the name, and no later token does. -/
structure EntersLast (tokens : List String) (name : String) (i : ℕ) : Prop where
  here : ∃ token, tokens[i]? = some token ∧ EntersAs token name
  later : ∀ j token, i < j → tokens[j]? = some token → ¬EntersAs token name

/-! ### Replacing aliases -/

/-- What replaces an alias is the name of an option, as the alias itself would be. -/
structure StandsFor (short long : String) : Prop where
  expands : expandAlias short = long
  other : long ≠ short
  separator : long ≠ "--" ∧ short ≠ "--"
  naming : Options.Naming long ∧ Options.Naming short
  written : "--" ++ Options.bare long = long

lemma standsFor_of_mem : ∀ e ∈ aliases, StandsFor e.1 e.2 := by
  have table : ∀ e ∈ aliases, expandAlias e.1 = e.2 ∧ e.2 ≠ e.1 ∧ (e.2 ≠ "--" ∧ e.1 ≠ "--") ∧
      (Options.Naming e.2 ∧ Options.Naming e.1) ∧ "--" ++ Options.bare e.2 = e.2 := by
    decide +kernel
  intro e he
  obtain ⟨expands, other, separator, naming, written⟩ := table e he
  exact ⟨expands, other, separator, naming, written⟩

lemma IsAlias.exists_mem (h : IsAlias token) :
    ∃ long, (token, long) ∈ aliases ∧ StandsFor token long := by
  obtain ⟨⟨short, long⟩, he, rfl⟩ := List.mem_map.1 h
  exact ⟨long, he, standsFor_of_mem _ he⟩

lemma expandAlias_of_not_isAlias (h : ¬IsAlias token) : expandAlias token = token := by
  have unlisted : aliases.lookup token = none := List.lookup_eq_none_iff.2 fun e he => by
    refine bne_iff_ne.2 ?_
    rintro rfl
    exact h (List.mem_map_of_mem he)
  rw [expandAlias, unlisted, Option.getD_none]

lemma expandAlias_eq_self_iff : expandAlias token = token ↔ ¬IsAlias token := by
  refine ⟨fun same h => ?_, expandAlias_of_not_isAlias⟩
  obtain ⟨long, -, stands⟩ := h.exists_mem
  exact stands.other (stands.expands.symm.trans same)

lemma expandAlias_eq_separator_iff : expandAlias token = "--" ↔ token = "--" := by
  by_cases h : IsAlias token
  · obtain ⟨long, -, stands⟩ := h.exists_mem
    rw [stands.expands]
    exact iff_of_false stands.separator.1 stands.separator.2
  · rw [expandAlias_of_not_isAlias h]

lemma afterSeparator_map_expandAlias :
    afterSeparator (args.map expandAlias) = (afterSeparator args).map expandAlias := by
  rw [afterSeparator, afterSeparator, List.dropWhile_map, List.map_tail]
  congr 3
  funext token
  simp [expandAlias_eq_separator_iff]

lemma naming_expandAlias : Options.Naming (expandAlias token) ↔ Options.Naming token := by
  by_cases h : IsAlias token
  · obtain ⟨long, -, stands⟩ := h.exists_mem
    rw [stands.expands]
    exact iff_of_true stands.naming.1 stands.naming.2
  · rw [expandAlias_of_not_isAlias h]

lemma expandAlias_of_not_naming (h : ¬Options.Naming token) : expandAlias token = token := by
  refine expandAlias_of_not_isAlias fun listed => h ?_
  obtain ⟨long, -, stands⟩ := listed.exists_mem
  exact stands.naming.2

lemma spells_expandAlias : Options.Spells (expandAlias token) name ↔ EntersAs token name := by
  rw [EntersAs]
  by_cases h : IsAlias token
  · obtain ⟨long, he, stands⟩ := h.exists_mem
    rw [stands.expands, or_iff_left fun plain => plain.1 h, Options.spells_iff]
    constructor
    · rintro ⟨-, rfl⟩
      rwa [stands.written]
    · intro listed
      have stands' := standsFor_of_mem _ listed
      obtain rfl : long = "--" ++ name := stands.expands.symm.trans stands'.expands
      exact ⟨Options.naming_iff.1 stands.naming.1, (String.append_right_inj _).1 stands'.written⟩
  · have unlisted : (token, "--" ++ name) ∉ aliases := fun listed => h (List.mem_map_of_mem listed)
    rw [expandAlias_of_not_isAlias h, or_iff_right unlisted, and_iff_right h]

/-! ### What enters the runtime options -/

lemma isLast_map_expandAlias {i : ℕ} :
    Options.IsLast (tokens.map expandAlias) name i ↔ EntersLast tokens name i := by
  have place (j : ℕ) : (tokens.map expandAlias)[j]? = tokens[j]?.map expandAlias :=
    List.getElem?_map
  constructor
  · rintro ⟨⟨_, here, spells⟩, later⟩
    obtain ⟨token, there, rfl⟩ := Option.map_eq_some_iff.1 (place i ▸ here)
    refine ⟨⟨token, there, spells_expandAlias.1 spells⟩, fun j token hij ht enters => ?_⟩
    exact later j (expandAlias token) hij (by rw [place, ht, Option.map_some])
      (spells_expandAlias.2 enters)
  · rintro ⟨⟨token, here, enters⟩, later⟩
    refine ⟨⟨_, by rw [place, here, Option.map_some], spells_expandAlias.2 enters⟩, ?_⟩
    rintro j _ hij ht spells
    obtain ⟨token, there, rfl⟩ := Option.map_eq_some_iff.1 (place j ▸ ht)
    exact later j token hij there (spells_expandAlias.1 spells)

lemma followed_map_expandAlias {i : ℕ} :
    Options.Followed (tokens.map expandAlias) i value ↔ Options.Followed tokens i value := by
  cases value with
  | none => simp [Options.Followed, naming_expandAlias]
  | some value =>
    simp only [Options.Followed, List.getElem?_map, Option.map_eq_some_iff]
    refine and_congr_left fun plain => ?_
    constructor
    · rintro ⟨token, there, rfl⟩
      rw [naming_expandAlias] at plain
      rwa [expandAlias_of_not_naming plain]
    · exact fun there => ⟨value, there, expandAlias_of_not_naming plain⟩

lemma get?_insertArgs_map_expandAlias (tokens : List String) (name : String) :
    (∃ i value, EntersLast tokens name i ∧ Options.Followed tokens i value ∧
      (Options.empty.insertArgs (tokens.map expandAlias)).get? name = some value) ∨
    (∀ token ∈ tokens, ¬EntersAs token name) ∧
      (Options.empty.insertArgs (tokens.map expandAlias)).get? name = none := by
  rw [Options.insertArgs_eq, Options.get?_putAll]
  obtain ⟨i, value, last, followed, mentioned⟩ | ⟨none, mentioned⟩ :=
    Options.lastMention_mentions (tokens.map expandAlias) name
  · exact .inl ⟨i, value, isLast_map_expandAlias.1 last, followed_map_expandAlias.1 followed,
      by rw [mentioned]; rfl⟩
  · refine .inr ⟨fun token ht enters => ?_, by rw [mentioned]; rfl⟩
    exact none _ (List.mem_map_of_mem ht) (spells_expandAlias.2 enters)

variable {reader : List String → Except Refusal Arguments}

lemma exists_arguments_of_parseWith (h : parseWith reader args = .ok c) :
    ∃ a, reader (args.map expandAlias) = .ok a ∧ c = .ofArguments a := by
  unfold parseWith at h
  cases ha : reader (args.map expandAlias) with
  | error e => rw [ha] at h; cases h
  | ok a => rw [ha] at h; cases h; exact ⟨a, rfl, rfl⟩

lemma options_of_parseWith (keeps : KeepsRest reader) (h : parseWith reader args = .ok c) :
    c.options = (afterSeparator args).map expandAlias := by
  obtain ⟨a, ha, rfl⟩ := exists_arguments_of_parseWith h
  rw [← afterSeparator_map_expandAlias, ← keeps _ a ha]
  rfl

lemma map_expandAlias_eq_self_iff :
    tokens.map expandAlias = tokens ↔ ∀ token ∈ tokens, ¬IsAlias token := by
  constructor
  · intro same token ht
    rw [← expandAlias_eq_self_iff]
    exact List.map_inj_left.1 (same.trans (List.map_id tokens).symm) token ht
  · exact fun none => (List.map_congr_left fun token ht =>
      expandAlias_eq_self_iff.2 (none token ht)).trans (List.map_id tokens)

/-- **What is passed on of the arguments.** If the reader keeps the rest, the tokens after the first
separator are passed on in their order, the aliases among them replaced; so they are passed on as
they are exactly if there is no alias. The package starts with the options that these tokens give,
and then takes in those of the environment: each token enters as the name it spells, or an alias as
that of the option it stands for, with the token behind it as value. -/
theorem parse_passes (keeps : KeepsRest reader) (h : parseWith reader args = .ok c)
    (environment : Option String) :
    c.options = (afterSeparator args).map expandAlias ∧
    (c.options = afterSeparator args ↔ ∀ token ∈ afterSeparator args, ¬IsAlias token) ∧
    let given := Options.empty.insertArgs c.options
    (∃ session, c.start? environment = .ok session ∧ session.initialized = true ∧
      session.options = environment.elim given given.insertString) ∧
    ∀ name,
      (∃ i value, EntersLast (afterSeparator args) name i ∧
        Options.Followed (afterSeparator args) i value ∧ given.get? name = some value) ∨
      (∀ token ∈ afterSeparator args, ¬EntersAs token name) ∧ given.get? name = none := by
  have passed := options_of_parseWith keeps h
  refine ⟨passed, by rw [passed, map_expandAlias_eq_self_iff], ⟨?_, fun name => ?_⟩⟩
  · cases environment <;> exact ⟨_, rfl, rfl, rfl⟩
  · rw [passed]
    exact get?_insertArgs_map_expandAlias _ name

lemma exists_parse (args : List String) (accepted : (parse args).toOption.isSome = true) :
    ∃ c, parse args = .ok c := by
  cases h : parse args with
  | ok c => exact ⟨c, rfl⟩
  | error e => rw [h] at accepted; cases accepted

/-- Arguments read by the rules of the program. A separator may be part of an option. Behind the
first one that is not, an alias is replaced, and another separator is passed on. -/
theorem parse_passes_twice :
    KeepsRest (Arguments.parse grammar) ∧
    ∃ c, parse ["-sr", "2", "--mesh=--", "--", "-eps_nev", "-sr", "3", "--"] = .ok c ∧
      c.options = ["-eps_nev", "--serial-refinements", "3", "--"] ∧
      ∃ session, c.start? (some "-eps_nev 4") = .ok session ∧
        session.options = (Options.empty.insertArgs c.options).insertString "-eps_nev 4" ∧
        (Options.empty.insertArgs c.options).get? "sr" = none := by
  obtain ⟨c, hc⟩ := exists_parse ["-sr", "2", "--mesh=--", "--", "-eps_nev", "-sr", "3", "--"]
    (by decide +kernel)
  obtain ⟨passed, -, ⟨session, started, -, given⟩, names⟩ :=
    parse_passes (keepsRest_parse grammar) hc (some "-eps_nev 4")
  have behind : afterSeparator ["-sr", "2", "--mesh=--", "--", "-eps_nev", "-sr", "3", "--"] =
      ["-eps_nev", "-sr", "3", "--"] := by decide +kernel
  rw [behind] at passed names
  have unnamed : ∀ token ∈ ["-eps_nev", "-sr", "3", "--"], ¬EntersAs token "sr" := by
    decide +kernel
  refine ⟨keepsRest_parse grammar, c, hc, passed.trans (by decide +kernel), session, started, given,
    ?_⟩
  obtain ⟨i, value, ⟨⟨token, here, enters⟩, -⟩, -⟩ | ⟨-, none⟩ := names "sr"
  · exact absurd enters (unnamed token (List.mem_of_getElem? here))
  · exact none

/-- An alias behind the separator is not passed on as it is: after `-- -sr 2` the runtime options
have no `sr`, which these tokens would give. -/
theorem not_parse_passes_unchanged :
    ∃ c, parse ["-no-vis", "-iref", "0", "--", "-sr", "2"] = .ok c ∧
      afterSeparator ["-no-vis", "-iref", "0", "--", "-sr", "2"] = ["-sr", "2"] ∧
      c.options = ["--serial-refinements", "2"] ∧ ∃ session, c.start? none = .ok session ∧
        session.options.get? "sr" = none ∧
        (Options.empty.insertArgs ["-sr", "2"]).get? "sr" = some (some "2") := by
  obtain ⟨c, hc⟩ := exists_parse ["-no-vis", "-iref", "0", "--", "-sr", "2"] (by decide +kernel)
  have behind : afterSeparator ["-no-vis", "-iref", "0", "--", "-sr", "2"] = ["-sr", "2"] := by
    decide +kernel
  have passed : c.options = ["--serial-refinements", "2"] := by
    rw [options_of_parseWith (keepsRest_parse grammar) hc, behind]
    decide +kernel
  refine ⟨c, hc, behind, passed, _, rfl, ?_, by decide +kernel⟩
  change (Options.empty.insertArgs c.options).get? "sr" = none
  rw [passed]
  decide +kernel

end Poisson

end Eigenmesh.Program
