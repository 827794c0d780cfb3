import Eigenmesh.Decimal.Reading

/-!
Command-line arguments by a list of rules. An option is written `--name value`, `--name=value`,
`-n value`, `-nvalue` or `-n=value`, and may be given once. What follows the first `--` is
passed on as it is.
-/

namespace Eigenmesh.Program

structure OptionRule where
  name : String
  letter : Option Char
  takesValue : Bool
  /-- The option that this one takes back. -/
  revokes : Option String
  /-- Whether a value is admissible. -/
  admits : String → Bool

structure Grammar where
  rules : List OptionRule
  /-- Whether a number with a dash can be the value of the option before it. -/
  negativeNumbers : Bool

/-- Why arguments are not accepted. -/
inductive Refusal
  /-- Help is asked for. -/
  | help
  | usage
  deriving DecidableEq

/-- The options with their values, an empty one for a flag, and what is passed on. -/
structure Arguments where
  given : List (String × String)
  rest : List String

namespace Arguments

def value? (a : Arguments) (name : String) : Option String := a.given.lookup name

def has (a : Arguments) (name : String) : Bool := (a.value? name).isSome

/-- Digits with at most one point, not at the front, and at most one exponent after them. -/
def isNumberFrom : (first pointSeen exponentSeen : Bool) → List Char → Bool
  | _, _, _, [] => true
  | first, pointSeen, exponentSeen, c :: rest =>
    if Decimal.isDigit c then isNumberFrom false pointSeen exponentSeen rest
    else if c = '.' then
      !pointSeen && !exponentSeen && !first && isNumberFrom false true exponentSeen rest
    else if c = 'e' || c = 'E' then
      !exponentSeen && !first && !rest.isEmpty && isNumberFrom false pointSeen true rest
    else false

def isNumber (s : List Char) : Bool := isNumberFrom true false false s

/-- Takes in an option. It must not be there already, and its value must be admissible. -/
def put (a : Arguments) (rule : OptionRule) (value : String) : Except Refusal Arguments :=
  if a.has rule.name || !rule.admits value then .error .usage
  else
    let kept := a.given.filter fun e => some e.1 ≠ rule.revokes
    .ok { a with given := kept ++ [(rule.name, value)] }

/-- What a token is, apart from an option's value. -/
inductive Token
  | separator
  | long (name : String) (value : Option String)
  | short (letters : List Char)
  | plain

/-- The part before the first equals sign and the part after it. -/
def splitEquals (s : List Char) : List Char × Option (List Char) :=
  match s.dropWhile (· ≠ '=') with
  | [] => (s, none)
  | _ :: value => (s.takeWhile (· ≠ '='), some value)

def token (s : String) : Token :=
  match s.toList with
  | '-' :: '-' :: [] => .separator
  | '-' :: '-' :: rest =>
    let (name, value) := splitEquals rest
    .long (String.ofList name) (value.map String.ofList)
  | '-' :: c :: rest => .short (c :: rest)
  | _ => .plain

/-- The value attached to a short option. -/
def attached : List Char → Option String
  | [] => none
  | '=' :: value => some (String.ofList value)
  | value => some (String.ofList value)

/-- An option that stands with its value or alone; alone, it may wait for the next token. -/
def option (a : Arguments) (rule : Option OptionRule) (value : Option String) :
    Except Refusal (Arguments × Option OptionRule) :=
  match rule, value with
  | none, _ => .error .usage
  | some rule, some value =>
    if rule.takesValue then (a.put rule value).map (·, none) else .error .usage
  | some rule, none =>
    if rule.takesValue then .ok (a, some rule) else (a.put rule "").map (·, none)

/-- Reads tokens; `pending` is an option that waits for its value. -/
def read (g : Grammar) (a : Arguments) :
    (pending : Option OptionRule) → List String → Except Refusal Arguments
  | none, [] => .ok a
  | some _, [] => .error .usage
  | none, s :: rest =>
    match token s with
    | .separator => .ok { a with rest }
    | .plain => .error .usage
    | .long name value =>
      if name = "help" && value.isNone then .error .help
      else
        match a.option (g.rules.find? (·.name = name)) value with
        | .ok (a, pending) => a.read g pending rest
        | .error e => .error e
    | .short letters =>
      if letters.head? = some 'h' then .error .help
      else
        match a.option (g.rules.find? (·.letter = letters.head?)) (attached letters.tail) with
        | .ok (a, pending) => a.read g pending rest
        | .error e => .error e
  | some rule, s :: rest =>
    let isValue := match token s with
      | .plain => true
      | .short letters => g.negativeNumbers && isNumber letters
      | _ => false
    if isValue then
      match a.put rule s with
      | .ok a => a.read g none rest
      | .error e => .error e
    else .error .usage

/-- Reads all arguments. -/
def parse (g : Grammar) (args : List String) : Except Refusal Arguments :=
  read g ⟨[], []⟩ none args

end Arguments

end Eigenmesh.Program
