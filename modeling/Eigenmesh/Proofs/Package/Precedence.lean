import Mathlib.Data.Nat.Notation
import Mathlib.Tactic.Common
import Eigenmesh.Factor.Backend
import Eigenmesh.Scalar.Double
import Eigenmesh.Workspace

/-!
Which option is in force.

Every source is read as a list of mentions, names with or without a value, and the last mention of a
name counts. Sources are read one after another, so a name gets what the last source that mentions
it says, and nothing of a source is left over for the next one.
-/

namespace Eigenmesh

namespace Options

variable {o : Options} {name : String} {value : Option String} {tokens : List String}

/-- What the last mention of a name says. -/
def lastMention (ms : List (String × Option String)) (name : String) : Option (Option String) :=
  ms.reverse.lookup name

/-- The value that tokens begin with, if they do not begin with the name of an option. -/
def firstValue : List String → Option String
  | [] => none
  | token :: _ => if isName token then none else some token

/-- What tokens say: each token that names an option is a mention, and its value is the token after
it unless there is none or that names an option too. -/
def mentions : List String → List (String × Option String)
  | [] => []
  | token :: rest =>
    if isName token then (bare token, firstValue rest) :: mentions rest else mentions rest

/-- The options after all mentions, in turn. -/
def putAll (o : Options) (ms : List (String × Option String)) : Options :=
  ms.foldl (fun o m => o.put m.1 m.2) o

/-! ### The last mention -/

lemma lookup_cons {β : Type} {e : String × β} {entries : List (String × β)} :
    (e :: entries).lookup name = if name = e.1 then some e.2 else entries.lookup name := by
  rw [List.lookup_cons]
  split
  case h_1 h => rw [if_pos (beq_iff_eq.1 h)]
  case h_2 h => rw [if_neg (beq_eq_false_iff_ne.1 h)]

lemma lookup_putEntry {entries : List (String × Option String)} {k : String} :
    (putEntry name value entries).lookup k = if k = name then some value else entries.lookup k := by
  induction entries with
  | nil => exact lookup_cons
  | cons e entries ih =>
    obtain ⟨k', v⟩ := e
    unfold putEntry
    split
    case isTrue same =>
      subst same
      rw [lookup_cons, lookup_cons]
      split <;> rfl
    case isFalse other =>
      rw [lookup_cons, lookup_cons, ih]
      by_cases h : k = k'
      · rw [if_pos h, if_neg (h ▸ other), if_pos h]
      · rw [if_neg h, if_neg h]

lemma get?_put {k : String} :
    (o.put name value).get? k = if k = name then some value else o.get? k := lookup_putEntry

lemma lastMention_cons {m : String × Option String} {ms : List (String × Option String)} :
    lastMention (m :: ms) name = (lastMention ms name).or ([m].lookup name) := by
  rw [lastMention, List.reverse_cons, List.lookup_append, lastMention]

/-- **The last mention is in force**, and names that are not mentioned keep what they had. -/
lemma get?_putAll (ms : List (String × Option String)) :
    (o.putAll ms).get? name = (lastMention ms name).or (o.get? name) := by
  induction ms generalizing o with
  | nil => rfl
  | cons m ms ih =>
    have first : (o.put m.1 m.2).get? name = ([m].lookup name).or (o.get? name) := by
      rw [get?_put, lookup_cons]
      split <;> rfl
    calc (o.putAll (m :: ms)).get? name = ((o.put m.1 m.2).putAll ms).get? name := rfl
      _ = (lastMention (m :: ms) name).or (o.get? name) := by
        rw [ih, first, lastMention_cons, Option.or_assoc]

/-! ### Sources -/

/-- A pending option is a mention that waits for the next token. -/
lemma readTokens_eq (pending : Option String) : readTokens pending tokens o =
    match pending with
    | none => o.putAll (mentions tokens)
    | some name => o.putAll ((name, firstValue tokens) :: mentions tokens) := by
  induction tokens generalizing pending o with
  | nil => cases pending <;> rfl
  | cons token rest ih =>
    cases pending with
    | none =>
      rw [readTokens, mentions]
      split
      · exact ih _
      · exact ih none
    | some name =>
      rw [readTokens, mentions, firstValue]
      split
      · exact ih _
      · exact ih none

lemma insertArgs_eq : o.insertArgs tokens = o.putAll (mentions tokens) := readTokens_eq none

/-- What the lines of a file say. -/
def fileMentions (content : String) : List (String × Option String) :=
  ((Text.lines content.toList).filterMap lineEntry?).map fun e => (bare e.1, e.2)

lemma insertFile_eq {content : String} :
    o.insertFile content = o.putAll (fileMentions content) := by
  rw [putAll, fileMentions, List.foldl_map]
  rfl

lemma exists_mentions_concat (tokens : List String) {token : String} (h : isName token = true) :
    ∃ ms, mentions (tokens ++ [token]) = ms ++ [(bare token, none)] := by
  induction tokens with
  | nil => exact ⟨[], if_pos h⟩
  | cons first tokens ih =>
    obtain ⟨ms, eq⟩ := ih
    rw [List.cons_append, mentions, eq]
    split
    · exact ⟨_ :: ms, rfl⟩
    · exact ⟨ms, rfl⟩

lemma lastMention_concat (ms : List (String × Option String)) :
    lastMention (ms ++ [(name, value)]) name = some value := by
  rw [lastMention, List.reverse_append]
  exact lookup_cons.trans (if_pos rfl)

end Options

namespace OptionSources

variable {s : OptionSources}

/-- The tokens of the environment variable. -/
def words (s : OptionSources) : List String :=
  match s.environment with
  | none => []
  | some text => (Text.words text.toList).map String.ofList

/-- What the file says. -/
def fileMentions (s : OptionSources) : List (String × Option String) :=
  match s.file with
  | some (.content text) => Options.fileMentions text
  | _ => []

lemma options_eq_ok (readable : s.file ≠ some .unreadable) : s.options =
    .ok (((Options.empty.putAll s.fileMentions).putAll (Options.mentions s.args)).putAll
      (Options.mentions s.words)) := by
  obtain ⟨file, args, environment⟩ := s
  simp only [← Options.insertArgs_eq]
  rcases file with _ | _ | text
  · cases environment <;> rfl
  · exact absurd rfl readable
  · simp only [fileMentions, ← Options.insertFile_eq]
    cases environment <;> rfl

lemma get?_options (s : OptionSources) (readable : s.file ≠ some .unreadable) :
    ∃ o, s.options = .ok o ∧ ∀ name, o.get? name =
      (Options.lastMention (Options.mentions s.words) name).or
        ((Options.lastMention (Options.mentions s.args) name).or
          (Options.lastMention s.fileMentions name)) := by
  refine ⟨_, options_eq_ok readable, fun name => ?_⟩
  rw [Options.get?_putAll, Options.get?_putAll, Options.get?_putAll]
  exact congrArg _ (congrArg _ (Option.or_none))

lemma get?_file (s : OptionSources) (readable : s.file ≠ some .unreadable) :
    ∃ o, OptionSources.options ⟨s.file, [], none⟩ = .ok o ∧
      ∀ name, o.get? name = Options.lastMention s.fileMentions name :=
  get?_options ⟨s.file, [], none⟩ readable

lemma get?_args (args : List String) : ∃ o, OptionSources.options ⟨none, args, none⟩ = .ok o ∧
    ∀ name, o.get? name = Options.lastMention (Options.mentions args) name := by
  obtain ⟨o, read, h⟩ := get?_options ⟨none, args, none⟩ nofun
  exact ⟨o, read, fun name => (h name).trans Option.or_none⟩

lemma get?_environment (s : OptionSources) :
    ∃ o, OptionSources.options ⟨none, [], s.environment⟩ = .ok o ∧
      ∀ name, o.get? name = Options.lastMention (Options.mentions s.words) name := by
  obtain ⟨o, read, h⟩ := get?_options ⟨none, [], s.environment⟩ nofun
  exact ⟨o, read, fun name => (h name).trans Option.or_none⟩

lemma options_of_unreadable (unreadable : s.file = some .unreadable) :
    s.options = .error Options.Fault.fileUnreadable.error := by
  obtain ⟨_, args, environment⟩ := s
  cases unreadable
  rfl

end OptionSources

namespace Workspace

variable {α : Type} [Scalar α] [Kernels α]

/-- **A later source overrides an earlier one.** Whatever came before, the options after a start are
those of the environment variable, then those of the arguments, then those of the file, each as it
gives them alone. Within a source the last mention of a name counts, and an option at its end has no
value. A package that is initialized already, or whose file cannot be read, stays as it is. -/
theorem start_precedence (w : Workspace α) (s : OptionSources) :
    (w.session.initialized = false → s.file ≠ some .unreadable →
      ∃ file args environment options : Options,
        OptionSources.options ⟨s.file, [], none⟩ = .ok file ∧
        OptionSources.options ⟨none, s.args, none⟩ = .ok args ∧
        OptionSources.options ⟨none, [], s.environment⟩ = .ok environment ∧
        w.step (.start s) =
          ({ w with session := { w.session with options, initialized := true } }, .ok .done) ∧
        (∀ name, options.get? name =
          (environment.get? name).or ((args.get? name).or (file.get? name))) ∧
        (∀ name, file.get? name = Options.lastMention s.fileMentions name ∧
          args.get? name = Options.lastMention (Options.mentions s.args) name ∧
          environment.get? name = Options.lastMention (Options.mentions s.words) name) ∧
        (∀ ms name, s.fileMentions = ms ++ [(name, none)] → file.get? name = some none) ∧
        ∀ tokens token, Options.isName token →
          (s.args = tokens ++ [token] → args.get? (Options.bare token) = some none) ∧
          (s.words = tokens ++ [token] → environment.get? (Options.bare token) = some none)) ∧
    (w.session.initialized = true ∨ s.file = some .unreadable → (w.step (.start s)).1 = w) := by
  refine ⟨fun closed readable => ?_, ?_⟩
  · obtain ⟨file, readFile, ofFile⟩ := s.get?_file readable
    obtain ⟨args, readArgs, ofArgs⟩ := OptionSources.get?_args s.args
    obtain ⟨environment, readEnvironment, ofEnvironment⟩ := s.get?_environment
    obtain ⟨options, read, ofAll⟩ := s.get?_options readable
    refine ⟨file, args, environment, options, readFile, readArgs, readEnvironment, ?_,
      fun name => ?_, fun name => ⟨ofFile name, ofArgs name, ofEnvironment name⟩,
      fun ms name last => ?_, fun tokens token h => ?_⟩
    · rw [step, Session.start?, closed, read]
      rfl
    · rw [ofAll, ofFile, ofArgs, ofEnvironment]
    · rw [ofFile, last, Options.lastMention_concat]
    · obtain ⟨ms, mentioned⟩ := Options.exists_mentions_concat tokens h
      constructor
      · intro last
        rw [ofArgs, last, mentioned, Options.lastMention_concat]
      · intro last
        rw [ofEnvironment, last, mentioned, Options.lastMention_concat]
  · rintro (opened | unreadable)
    · rw [step, Session.start?, opened]
      rfl
    · rw [step, Session.start?, OptionSources.options_of_unreadable unreadable]
      cases w.session.initialized <;> rfl

/-- A session with options of its own has come and gone. -/
def closedAgain : Workspace Float :=
  fresh.run [.start ⟨none, ["-nev", "9"], none⟩, .setOption "st_shift" (some "2"), .finish]

/-- Both the file and the arguments end with an option without a value. -/
def threeSources : OptionSources :=
  ⟨some (.content "nev 3 # modes\n-tol"), ["7", "-tol", "-0.5", "-view"], some "7 --nev 4"⟩

theorem start_precedence_threeSources :
    closedAgain.session.initialized = false ∧ threeSources.file ≠ some .unreadable ∧
    ∃ options : Options, closedAgain.step (.start threeSources) =
      ({ closedAgain with session := { closedAgain.session with options, initialized := true } },
        .ok .done) ∧
      ["nev", "tol", "view", "st_shift"].map options.get? =
        [some (some "4"), some (some "-0.5"), some none, none] ∧
      ((closedAgain.step (.start threeSources)).1.step (.start threeSources)).1 =
        (closedAgain.step (.start threeSources)).1 := by
  have closed : closedAgain.session.initialized = false := by decide +kernel
  have readable : threeSources.file ≠ some .unreadable := nofun
  obtain ⟨file, args, environment, options, -, -, -, started, all, alone, -⟩ :=
    (start_precedence closedAgain threeSources).1 closed readable
  have last (name : String) : options.get? name =
      (Options.lastMention (Options.mentions threeSources.words) name).or
        ((Options.lastMention (Options.mentions threeSources.args) name).or
          (Options.lastMention threeSources.fileMentions name)) := by
    obtain ⟨ofFile, ofArgs, ofEnvironment⟩ := alone name
    rw [all, ofFile, ofArgs, ofEnvironment]
  refine ⟨closed, readable, options, started, ?_, ?_⟩
  · simp only [List.map_cons, List.map_nil, last]
    decide +kernel
  · rw [started]
    exact (start_precedence _ threeSources).2 (.inl rfl)

end Workspace

end Eigenmesh
