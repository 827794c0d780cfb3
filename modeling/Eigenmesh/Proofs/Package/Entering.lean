import Mathlib.Data.List.Forall2
import Mathlib.Data.List.ReduceOption
import Mathlib.Data.Nat.Notation
import Mathlib.Tactic.Common
import Eigenmesh.Proofs.Package.Tokens
import Eigenmesh.Proofs.Text.Words

/-!
Ways of entering options.

Tokens, a text of words, a file with an option a line and single calls are read by different rules.
They agree on options whose names and values nothing cuts apart: no blank, no number sign, no value
that names an option, and no name that is a number behind its dash. Each way of writing such options
mentions them in order, and mentions are all that is kept.
-/

namespace Eigenmesh.Options

variable {o : Options} {name value : String} {entry : String × Option String}
  {entries : List (String × Option String)} {line text : List Char}

/-! ### Options that can be written down -/

/-- No blank and no number sign. -/
def Clean (s : String) : Prop := ∀ c ∈ s.toList, Text.isBlank c = false ∧ c ≠ '#'

/-- A name for an option: a dash in front of it makes a token that names it. -/
structure IsProperName (name : String) : Prop where
  nonempty : name ≠ ""
  clean : Clean name
  undashed : name.toList.head? ≠ some '-'
  notNumber : Decimal.float? ("-" ++ name) = none

/-- A value for an option. -/
structure IsProperValue (value : String) : Prop where
  nonempty : value ≠ ""
  clean : Clean value
  plain : ¬Naming value

/-- A name for an option and a value for it, if it is to have one. -/
structure IsProper (entry : String × Option String) : Prop where
  name : IsProperName entry.1
  value : ∀ value ∈ entry.2, IsProperValue value

/-- The name behind a dash, and the value. -/
def tokens (entry : String × Option String) : List String := ("-" ++ entry.1) :: entry.2.toList

/-- The tokens as words. -/
def words (entries : List (String × Option String)) : List (List Char) :=
  (entries.flatMap tokens).map String.toList

/-- The line has the tokens of the option or of none, blanks and a comment behind them. -/
structure Shows (entry : Option (String × Option String)) (line : List Char) : Prop where
  parts : ∃ text comment, line = text ++ comment ∧ Text.Spread (words entry.toList) text ∧
    ∀ c, comment.head? = some c → c = '#'
  single : '\n' ∉ line

/-- The file has a line for each entry in turn, and lines without an entry among them. -/
def Lists (entries : List (String × Option String)) (content : String) : Prop :=
  ∃ shown lines, List.Forall₂ Shows shown lines ∧ shown.reduceOption = entries ∧
    content.toList = ['\n'].intercalate lines

-- by the characters of the name, and not by all that there are
instance : Decidable (Clean name) := List.decidableBAll _ _

instance : Decidable (IsProperName name) :=
  decidable_of_iff (name ≠ "" ∧ Clean name ∧ name.toList.head? ≠ some '-' ∧
      Decimal.float? ("-" ++ name) = none)
    ⟨fun ⟨h₁, h₂, h₃, h₄⟩ => ⟨h₁, h₂, h₃, h₄⟩, fun ⟨h₁, h₂, h₃, h₄⟩ => ⟨h₁, h₂, h₃, h₄⟩⟩

instance : Decidable (IsProperValue value) :=
  decidable_of_iff (value ≠ "" ∧ Clean value ∧ ¬Naming value)
    ⟨fun ⟨h₁, h₂, h₃⟩ => ⟨h₁, h₂, h₃⟩, fun ⟨h₁, h₂, h₃⟩ => ⟨h₁, h₂, h₃⟩⟩

instance : Decidable (IsProper entry) :=
  decidable_of_iff (IsProperName entry.1 ∧ ∀ value ∈ entry.2, IsProperValue value)
    ⟨fun ⟨h₁, h₂⟩ => ⟨h₁, h₂⟩, fun ⟨h₁, h₂⟩ => ⟨h₁, h₂⟩⟩

/-! ### Tokens -/

lemma bare_of_undashed (undashed : name.toList.head? ≠ some '-') : bare name = name := by
  rw [bare, ← List.nil_append name.toList]
  exact (congrArg _ (dropWhile_dashes 0 undashed)).trans (String.ofList_toList)

lemma IsProperName.spells (proper : IsProperName name) : Spells ("-" ++ name) name where
  dashes := ⟨1, Nat.one_pos, String.toList_append⟩
  stripped := proper.undashed
  long := by
    have : name.utf8ByteSize ≠ 0 := fun h => proper.nonempty (String.utf8ByteSize_eq_zero_iff.1 h)
    rw [String.utf8ByteSize_append]
    have : "-".utf8ByteSize = 1 := rfl
    omega
  notNumber := proper.notNumber

lemma IsProper.isName (proper : IsProper entry) : isName ("-" ++ entry.1) = true :=
  (spells_iff.1 proper.name.spells).1

lemma IsProper.bare (proper : IsProper entry) : bare ("-" ++ entry.1) = entry.1 :=
  (spells_iff.1 proper.name.spells).2

lemma firstValue_tokens (proper : ∀ e ∈ entries, IsProper e) :
    firstValue (entries.flatMap tokens) = none := by
  cases entries with
  | nil => rfl
  | cons e entries => exact if_pos (proper e List.mem_cons_self).isName

lemma mentions_tokens (proper : ∀ e ∈ entries, IsProper e) :
    mentions (entries.flatMap tokens) = entries := by
  induction entries with
  | nil => rfl
  | cons e entries ih =>
    obtain ⟨here, others⟩ := List.forall_mem_cons.1 proper
    obtain ⟨name, value⟩ := e
    rw [List.flatMap_cons, tokens, List.cons_append, mentions, if_pos here.isName, here.bare]
    cases value with
    | none => exact congrArg₂ _ (congrArg _ (firstValue_tokens others)) (ih others)
    | some value =>
      have plain : ¬isName value = true := fun h => (here.value value rfl).plain (naming_iff.2 h)
      have skipped : mentions (value :: entries.flatMap tokens) = entries :=
        (if_neg plain).trans (ih others)
      exact congrArg₂ _ (congrArg _ (if_neg plain)) skipped

/-! ### Lines of a file -/

lemma notMem_words (proper : ∀ e ∈ entries, IsProper e) : ∀ w ∈ words entries, '#' ∉ w := by
  intro w hw
  obtain ⟨token, htoken, rfl⟩ := List.mem_map.1 hw
  obtain ⟨e, he, htoken⟩ := List.mem_flatMap.1 htoken
  obtain rfl | htoken := List.mem_cons.1 htoken
  · rw [String.toList_append, List.mem_append, not_or]
    exact ⟨by decide, fun mem => ((proper e he).name.clean _ mem).2 rfl⟩
  · have value := (proper e he).value token (Option.mem_toList.1 htoken)
    exact fun mem => (value.clean _ mem).2 rfl

lemma Shows.exists_text {shown : Option (String × Option String)} (h : Shows shown line)
    (proper : ∀ e ∈ shown.toList, IsProper e) :
    ∃ text, line.takeWhile (· ≠ '#') = text ∧ Text.Spread (words shown.toList) text := by
  obtain ⟨text, comment, rfl, spread, marked⟩ := h.parts
  have free : '#' ∉ text := Text.notMem_of_spread spread (by decide) (notMem_words proper)
  refine ⟨text, ?_, spread⟩
  have kept : ∀ c ∈ text, decide (c ≠ '#') = true := fun c hc =>
    decide_eq_true fun same => free (same ▸ hc)
  rw [List.takeWhile_append_of_pos kept]
  cases comment with
  | nil => exact List.append_nil text
  | cons c comment =>
    rw [marked c rfl, List.takeWhile_cons_of_neg (by decide), List.append_nil]

lemma lineEntry?_of_shows_none (h : Shows none line) : lineEntry? line = none := by
  obtain ⟨text, cut, spread⟩ := h.exists_text nofun
  unfold lineEntry?
  rw [cut, Text.trim_blanks (Text.allBlank_of_spread spread)]
  rfl

lemma lineEntry?_of_shows (h : Shows (some entry) line) (proper : IsProper entry) :
    lineEntry? line = some ("-" ++ entry.1, entry.2) := by
  obtain ⟨text, cut, spread⟩ := h.exists_text fun e he => by
    rwa [List.mem_singleton.1 he]
  obtain ⟨name, value⟩ := entry
  have named : ("-" ++ name).toList ≠ [] := by
    rw [String.toList_append]
    exact List.cons_ne_nil _ _
  have some_text {rest : Option (List Char)}
      (first : Text.firstWord (Text.trim text) = (("-" ++ name).toList, rest)) :
      (Text.trim text).isEmpty = false := by
    rw [List.isEmpty_eq_false_iff]
    intro empty
    rw [empty] at first
    exact named (congrArg Prod.fst first).symm
  unfold lineEntry?
  rw [cut]
  cases value with
  | none =>
    have first := Text.firstWord_of_spread_one spread
    simp only [some_text first, first, String.ofList_toList]
    rfl
  | some value =>
    obtain ⟨rest, first, trimmed⟩ := Text.firstWord_of_spread_two spread
    simp [some_text first, first, trimmed, (proper.value value rfl).nonempty]

lemma filterMap_lineEntry? {shown : List (Option (String × Option String))}
    {lines : List (List Char)} (h : List.Forall₂ Shows shown lines)
    (proper : ∀ e ∈ shown.reduceOption, IsProper e) :
    lines.filterMap lineEntry? = shown.reduceOption.map fun e => ("-" ++ e.1, e.2) := by
  induction h with
  | nil => rfl
  | @cons e line shown lines here _ ih =>
    cases e with
    | none =>
      rw [List.reduceOption_cons_of_none] at proper ⊢
      rw [List.filterMap_cons_none (lineEntry?_of_shows_none here), ih proper]
    | some e =>
      rw [List.reduceOption_cons_of_some] at proper ⊢
      obtain ⟨first, proper⟩ := List.forall_mem_cons.1 proper
      rw [List.filterMap_cons_some (lineEntry?_of_shows here first), ih proper, List.map_cons]

lemma fileMentions_of_lists {content : String} (lists : Lists entries content)
    (proper : ∀ e ∈ entries, IsProper e) : fileMentions content = entries := by
  obtain ⟨shown, lines, all, rfl, written⟩ := lists
  have single : ∀ line ∈ lines, '\n' ∉ line := by
    intro line hline
    obtain ⟨i, hi, rfl⟩ := List.getElem_of_mem hline
    exact (all.get (all.length_eq ▸ hi) hi).single
  have read : (Text.lines content.toList).filterMap lineEntry? = lines.filterMap lineEntry? := by
    obtain rfl | nonempty := eq_or_ne lines []
    · rw [written]
      rfl
    · rw [written, Text.lines_intercalate nonempty single]
  rw [fileMentions, read, filterMap_lineEntry? all proper, List.map_map]
  refine (List.map_congr_left fun e he => ?_).trans (List.map_id _)
  exact Prod.ext (proper e he).bare rfl

/-! ### All ways -/

lemma lastMention_eq_none (h : name ∉ entries.map (·.1)) : lastMention entries name = none := by
  rw [lastMention, List.lookup_eq_none_iff]
  intro e he
  rw [bne_iff_ne]
  exact fun same => h (List.mem_map.2 ⟨e, List.mem_reverse.1 he, same.symm⟩)

lemma lastMention_append (before : List (String × Option String)) :
    lastMention (before ++ entries) name =
      (lastMention entries name).or (lastMention before name) := by
  rw [lastMention, List.reverse_append, List.lookup_append, lastMention, lastMention]

lemma lastMention_of_notMem {value : Option String} (before : List (String × Option String))
    (h : name ∉ entries.map (·.1)) :
    lastMention (before ++ (name, value) :: entries) name = some value := by
  rw [lastMention_append, lastMention_cons, lastMention_eq_none h, lookup_cons, if_pos rfl]
  rfl

/-- The last entry of each name is in force, under every family that the name belongs to; other
names keep what they had. -/
structure Holds (o : Options) (entries : List (String × Option String)) (o' : Options) : Prop where
  last : ∀ before name value after, entries = before ++ (name, value) :: after →
    name ∉ after.map (·.1) → o'.get? name = some value ∧ ∀ family rest, family ++ rest = name →
      o'.has family rest = true ∧ o'.string? family rest = value
  others : ∀ name, name ∉ entries.map (·.1) → o'.get? name = o.get? name

lemma holds_putAll : Holds o entries (o.putAll entries) where
  last before name value after eq later := by
    have found : (o.putAll entries).get? name = some value := by
      rw [get?_putAll, eq, lastMention_of_notMem before later]
      rfl
    refine ⟨found, ?_⟩
    rintro family rest rfl
    rw [has, string?, found]
    exact ⟨rfl, rfl⟩
  others name absent := by
    rw [get?_putAll, lastMention_eq_none absent]
    rfl

lemma foldl_set (proper : ∀ e ∈ entries, IsProper e) :
    entries.foldl (fun o e => o.set e.1 e.2) o = o.putAll entries := by
  induction entries generalizing o with
  | nil => rfl
  | cons e entries ih =>
    obtain ⟨first, proper⟩ := List.forall_mem_cons.1 proper
    rw [List.foldl_cons, ih proper, set, bare_of_undashed first.name.undashed]
    rfl

/-- **The ways of entering options agree.** Tokens, a text with the tokens as its words, a file with
a line for each option and one call for each option lead to the same options, whatever there was
before and whatever blanks, comments and lines without an option are added. -/
theorem entered_alike (o : Options) (entries : List (String × Option String))
    (proper : ∀ e ∈ entries, IsProper e) :
    ∃ o', o.insertArgs (entries.flatMap tokens) = o' ∧
      (∀ s : String, Text.Spread (words entries) s.toList → o.insertString s = o') ∧
      (∀ content, Lists entries content → o.insertFile content = o') ∧
      entries.foldl (fun o e => o.set e.1 e.2) o = o' ∧ Holds o entries o' := by
  have args : o.insertArgs (entries.flatMap tokens) = o.putAll entries := by
    rw [insertArgs_eq, mentions_tokens proper]
  refine ⟨o.putAll entries, args, fun s spread => ?_, fun content lists => ?_, foldl_set proper,
    holds_putAll⟩
  · have read : (Text.words s.toList).map String.ofList = entries.flatMap tokens := by
      rw [Text.words_of_spread spread, words, List.map_map]
      exact (List.map_congr_left fun token _ => String.ofList_toList).trans (List.map_id _)
    rw [insertString, read, args]
  · rw [insertFile_eq, fileMentions_of_lists lists proper]

/-- A flag in front of another option, a value that is a number, and a name given twice. -/
def modes : List (String × Option String) :=
  [("view", none), ("tol", some "-0.5"), ("nev", some "3"), ("nev", some "-")]

def modesText : String := "-view\t-tol\u3000-0.5 -nev 3\n-nev - "

def modesFile : String :=
  "# modes\n\r\n -view #-tol 1\n-tol \t-0.5#half\n-nev 3\n-nev\u00a0-"

/-- Blanks of several kinds keep the words apart, and comments and empty lines the options. -/
theorem entered_alike_modes :
    (∀ e ∈ modes, IsProper e) ∧ Text.Spread (words modes) modesText.toList ∧
      Lists modes modesFile ∧
      ∃ o', empty.insertArgs ["-view", "-tol", "-0.5", "-nev", "3", "-nev", "-"] = o' ∧
        empty.insertString modesText = o' ∧ empty.insertFile modesFile = o' ∧
        o'.get? "nev" = some (some "-") := by
  have proper : ∀ e ∈ modes, IsProper e := by decide +kernel
  have spread : Text.Spread (words modes) modesText.toList := by decide +kernel
  have line {e : Option (String × Option String)} (text comment : String)
      (spread : Text.Spread (words e.toList) text.toList)
      (marked : comment.toList.head?.all (· = '#') = true)
      (single : '\n' ∉ text.toList ++ comment.toList) :
      Shows e (text.toList ++ comment.toList) :=
    ⟨⟨_, _, rfl, spread, fun c head => by simpa [head] using marked⟩, single⟩
  have lists : Lists modes modesFile := by
    refine ⟨[none, none, some _, some _, some _, some _], _,
      .cons (line "" "# modes" ?_ ?_ ?_) <| .cons (line "\r" "" ?_ ?_ ?_) <|
      .cons (line " -view " "#-tol 1" ?_ ?_ ?_) <| .cons (line "-tol \t-0.5" "#half" ?_ ?_ ?_) <|
      .cons (line "-nev 3" "" ?_ ?_ ?_) <| .cons (line "-nev\u00a0-" "" ?_ ?_ ?_) .nil, rfl, ?_⟩
    all_goals decide +kernel
  obtain ⟨o', args, string, file, -, holds⟩ := entered_alike empty modes proper
  have last := holds.last [("view", none), ("tol", some "-0.5"), ("nev", some "3")] "nev"
    (some "-") [] rfl nofun
  exact ⟨proper, spread, lists, o', args, string _ spread, file _ lists, last.1⟩

end Eigenmesh.Options
