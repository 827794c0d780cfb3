import Eigenmesh.Package.Options

/-!
The package between its initialization and its finalization. It holds the runtime options, and
counts the solver handles that are alive: none can be made before the initialization, and the
finalization waits for all of them.
-/

namespace Eigenmesh

/-- The environment variable with further options. -/
def optionsVariable : String := "EPS_OPTIONS"

/-- A file with options, as far as it could be read. -/
inductive OptionsFile
  | unreadable
  | content (text : String)

/-- Where the options come from; a later source overrides an earlier one. -/
structure OptionSources where
  file : Option OptionsFile
  args : List String
  environment : Option String

/-- The options that the sources give together. -/
def OptionSources.options (s : OptionSources) : Except PackageError Options := do
  let o ← match s.file with
    | none => pure Options.empty
    | some .unreadable => throw Options.Fault.fileUnreadable.error
    | some (.content text) => pure (Options.empty.insertFile text)
  let o := o.insertArgs s.args
  return match s.environment with
    | none => o
    | some text => o.insertString text

structure Session where
  initialized : Bool
  /-- How many solver handles are alive. -/
  live : Nat
  options : Options

namespace Session

inductive Fault
  | finishBeforeStart
  | handlesAlive (live : Nat)
  | setOptionBeforeStart
  | createBeforeStart

def Fault.error : Fault → PackageError
  | .finishBeforeStart => .of .order "finalize() called before initialize()"
  | .handlesAlive live =>
    .of .argWrongState s!"finalize() called with {live} solver handles alive"
  | .setOptionBeforeStart => .of .order "set_option() called before initialize()"
  | .createBeforeStart =>
    .of .order "the package must be initialized before creating solver handles"

/-- Before the first initialization. -/
def fresh : Session := ⟨false, 0, .empty⟩

/-- Changes nothing if the package is initialized already. -/
def start? (s : Session) (sources : OptionSources) : Except PackageError Session :=
  if s.initialized then .ok s
  else
    match sources.options with
    | .ok options => .ok { s with options, initialized := true }
    | .error e => .error (e.via "initialize")

def finish? (s : Session) : Except PackageError Session :=
  if !s.initialized then .error Fault.finishBeforeStart.error
  else if s.live ≠ 0 then .error (Fault.handlesAlive s.live).error
  else .ok { s with options := .empty, initialized := false }

def setOption? (s : Session) (name : String) (value : Option String) :
    Except PackageError Session :=
  if s.initialized then .ok { s with options := s.options.set name value }
  else .error Fault.setOptionBeforeStart.error

/-- One more handle is alive. -/
def register? (s : Session) : Except PackageError Session :=
  if s.initialized then .ok { s with live := s.live + 1 }
  else .error Fault.createBeforeStart.error

/-- One handle less is alive. -/
def release (s : Session) : Session := { s with live := s.live - 1 }

end Session

end Eigenmesh
