import Eigenmesh.Sparse.Csr
import Eigenmesh.Word

/-!
What a program run leaves behind: the lines that it prints, the files that it writes, and how it
ends.
-/

namespace Eigenmesh.Program

inductive FileContent
  | matrix (A : Csr Float)
  | vector (v : Array Float)

structure OutputFile where
  name : String
  content : FileContent

inductive Ending
  | exited (code : Nat)
  /-- Aborted by an error. -/
  | aborted (message : String)
  /-- Aborted for lack of memory. -/
  | outOfMemory

structure Outcome where
  /-- The lines that repeat the options. -/
  echo : List String
  report : List String
  files : List OutputFile
  ending : Ending

/-- What has been printed and written so far. -/
structure Progress where
  report : List String
  files : List OutputFile

/-- Part of a run, which may end early. -/
abbrev Run := ExceptT Ending (StateM Progress)

namespace Run

def print (line : String) : Run Unit := modify fun p => { p with report := p.report ++ [line] }

def save (name : String) (content : FileContent) : Run Unit :=
  modify fun p => { p with files := p.files ++ [⟨name, content⟩] }

/-- Goes on with the value; an error aborts the run with its message. -/
def orAbort {E β : Type} (message : E → String) (r : Except E β) : Run β :=
  match r with
  | .ok x => pure x
  | .error e => throw (.aborted (message e))

/-- Goes on with the value; without one the run breaks down. -/
def orPanic {β : Type} (r : Option β) : Run β :=
  match r with
  | some x => pure x
  | none => throw (.exited 101)

/-- More bytes than any machine has for one array. -/
def memoryLimit : Nat := Nat.pow 2 36

/-- Goes on if there is memory for `n` items of `size` bytes. The run breaks down if no array
holds as many. -/
def room (n size : Nat) : Run Unit :=
  if !Word.isArray n size then throw (.exited 101)
  else if memoryLimit < n * size then throw .outOfMemory
  else pure ()

/-- The outcome of a whole run after some lines. -/
def outcome (echo : List String) (run : Run Unit) : Outcome :=
  let (r, p) := run.run ⟨[], []⟩
  { echo, report := p.report, files := p.files
    ending := match r with
      | .ok () => .exited 0
      | .error e => e }

end Run

end Eigenmesh.Program
