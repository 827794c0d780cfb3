import Eigenmesh.Decimal.Reading
import Eigenmesh.Package.Error
import Eigenmesh.Text.Blank

/-!
Runtime options: names with or without a value, the last one given for a name being in force.

A token names an option if it starts with a dash, is longer than that and does not read as a
number. The token after it is its value, unless that names an option too.
-/

namespace Eigenmesh

structure Options where
  entries : List (String × Option String)
  nodup : (entries.map Prod.fst).Nodup

namespace Options

inductive Fault
  | fileUnreadable
  | missingValue (key : String)
  | invalidValue (value key : String)
  | invalidBoolean (value key : String)

def Fault.error : Fault → PackageError
  | .fileUnreadable => .of .fileOpen "Unable to open options file"
  | .missingValue key => .of .argWrong s!"Missing value for option -{key}"
  | .invalidValue value key => .of .argWrong s!"Invalid value '{value}' for option -{key}"
  | .invalidBoolean value key => .of .argWrong s!"Invalid boolean '{value}' for option -{key}"

def empty : Options := ⟨[], List.nodup_nil⟩

def size (o : Options) : Nat := o.entries.length

def isEmpty (o : Options) : Bool := o.entries.isEmpty

/-- What is given for a name: nothing, no value, or a value. -/
def get? (o : Options) (name : String) : Option (Option String) := o.entries.lookup name

/-- Replaces the value of a name, or appends the name. -/
def putEntry (name : String) (value : Option String) :
    List (String × Option String) → List (String × Option String)
  | [] => [(name, value)]
  | (k, v) :: rest =>
    if k = name then (name, value) :: rest else (k, v) :: putEntry name value rest

theorem mem_names_putEntry {name : String} {value : Option String}
    {entries : List (String × Option String)} {k : String} :
    k ∈ (putEntry name value entries).map Prod.fst ↔ k = name ∨ k ∈ entries.map Prod.fst := by
  induction entries with
  | nil => simp [putEntry]
  | cons e rest ih =>
    obtain ⟨k', v⟩ := e
    unfold putEntry
    split
    · rename_i h
      simp only [List.map_cons, List.mem_cons, h]
      exact ⟨fun h => h.elim .inl fun h => .inr (.inr h),
        fun h => h.elim .inl fun h => h⟩
    · simp only [List.map_cons, List.mem_cons, ih]
      exact ⟨fun h => h.elim (fun h => .inr (.inl h)) fun h => h.elim .inl fun h => .inr (.inr h),
        fun h => h.elim (fun h => .inr (.inl h)) fun h => h.elim .inl fun h => .inr (.inr h)⟩

theorem nodup_putEntry {name : String} {value : Option String}
    {entries : List (String × Option String)} (h : (entries.map Prod.fst).Nodup) :
    ((putEntry name value entries).map Prod.fst).Nodup := by
  induction entries with
  | nil => simp [putEntry]
  | cons e rest ih =>
    obtain ⟨k', v⟩ := e
    obtain ⟨h1, h2⟩ := List.nodup_cons.1 h
    unfold putEntry
    split
    · rename_i hk
      exact List.nodup_cons.2 ⟨hk ▸ h1, h2⟩
    · rename_i hk
      refine List.nodup_cons.2 ⟨fun hmem => ?_, ih h2⟩
      rcases mem_names_putEntry.1 hmem with hmem | hmem
      · exact hk hmem
      · exact h1 hmem

def put (o : Options) (name : String) (value : Option String) : Options :=
  ⟨putEntry name value o.entries, nodup_putEntry o.nodup⟩

/-- The name without its leading dashes. -/
def bare (name : String) : String := String.ofList (name.toList.dropWhile (· = '-'))

def set (o : Options) (name : String) (value : Option String) : Options := o.put (bare name) value

def isName (token : String) : Bool :=
  1 < token.utf8ByteSize && token.toList.head? = some '-' && (Decimal.float? token).isNone

/-- Reads tokens; `pending` is an option that has not got its value yet. -/
def readTokens : Option String → List String → Options → Options
  | none, [], o => o
  | some name, [], o => o.put name none
  | none, token :: rest, o =>
    if isName token then readTokens (some (bare token)) rest o else readTokens none rest o
  | some name, token :: rest, o =>
    if isName token then readTokens (some (bare token)) rest (o.put name none)
    else readTokens none rest (o.put name (some token))

def insertArgs (o : Options) (tokens : List String) : Options := readTokens none tokens o

/-- Tokens separated by blanks. -/
def insertString (o : Options) (s : String) : Options :=
  o.insertArgs ((Text.words s.toList).map String.ofList)

/-- The name and value on one line of an options file, where a number sign starts a comment. -/
def lineEntry? (line : List Char) : Option (String × Option String) :=
  let text := Text.trim (line.takeWhile (· ≠ '#'))
  if text.isEmpty then none
  else
    let (name, rest) := Text.firstWord text
    let value := rest.map Text.trim
    some (String.ofList name, (value.filter (!·.isEmpty)).map String.ofList)

def insertFile (o : Options) (content : String) : Options :=
  ((Text.lines content.toList).filterMap lineEntry?).foldl (fun o (name, value) => o.set name value) o

def has (o : Options) (family name : String) : Bool := (o.get? (family ++ name)).isSome

def string? (o : Options) (family name : String) : Option String :=
  (o.get? (family ++ name)).join

/-- The value of an option, read by `read`; an option that is given must have a value that can
be read. -/
def value? {β : Type} (read : String → Option β) (o : Options) (family name : String) :
    Except PackageError (Option β) :=
  let key := family ++ name
  match o.get? key with
  | none => .ok none
  | some none => .error (Fault.missingValue key).error
  | some (some value) =>
    match read value with
    | some v => .ok (some v)
    | none => .error (Fault.invalidValue value key).error

/-- The truth values, in letters of any case. -/
def boolean? (value : String) : Option Bool :=
  match value.map Char.toLower with
  | "1" | "true" | "yes" | "on" => some true
  | "0" | "false" | "no" | "off" => some false
  | _ => none

/-- An option without a value is a flag that is set. -/
def flag? (o : Options) (family name : String) : Except PackageError (Option Bool) :=
  let key := family ++ name
  match o.get? key with
  | none => .ok none
  | some none => .ok (some true)
  | some (some value) =>
    match boolean? value with
    | some b => .ok (some b)
    | none => .error (Fault.invalidBoolean value key).error

end Options

end Eigenmesh
