import Eigenmesh.Assembly
import Eigenmesh.Decimal.Fixed
import Eigenmesh.Element
import Eigenmesh.Mesh.Kuhn
import Eigenmesh.Program.Arguments
import Eigenmesh.Program.Outcome
import Eigenmesh.Factor.Backend
import Eigenmesh.Scalar.Double
import Eigenmesh.Sparse.Solver
import Eigenmesh.Workspace

/-!
The Poisson problem on the unit square or cube, with a known solution as boundary values: some
steps of the Schwarz smoother, the direct solution for comparison, and the dominant eigenvalues
of the error propagation of the smoother.
-/

namespace Eigenmesh.Program.Poisson

/-- Options written with one dash and several letters. -/
def aliases : List (String × String) :=
  [("-sr", "--serial-refinements"), ("-pr", "--parallel-refinements"),
    ("-iref", "--init-refinements"), ("-sm", "--smoother-maxit"), ("-th", "--theta"),
    ("-sol", "--solution"), ("-sc", "--static-condensation"),
    ("-no-sc", "--no-static-condensation"), ("-vis", "--visualization"),
    ("-no-vis", "--no-visualization")]

def expandAlias (arg : String) : String := (aliases.lookup arg).getD arg

/-- A whole number with an optional sign. -/
def integer? (s : String) : Option Int :=
  let (negative, ds) := Decimal.splitSign s.toList
  if ds.isEmpty || !ds.all Decimal.isDigit then none
  else some (if negative then -(Decimal.digitsValue ds : Int) else Decimal.digitsValue ds)

def inRange (low high : Int) (s : String) : Bool :=
  (integer? s).any fun n => low ≤ n && n ≤ high

def isSize (s : String) : Bool := (Decimal.size? s).isSome

def isNumber (s : String) : Bool := (Decimal.float? s).isSome

def option (name : String) (letter : Option Char) (admits : String → Bool) : OptionRule :=
  ⟨name, letter, true, none, admits⟩

def flag (name other : String) : OptionRule := ⟨name, none, false, some other, fun _ => true⟩

def grammar : Grammar where
  rules :=
    [option "mesh" (some 'm') fun _ => true,
      option "order" (some 'o') (inRange (-2147483648) 2147483647),
      option "dimension" (some 'd') isSize,
      option "serial-refinements" none isSize,
      option "parallel-refinements" none isSize,
      option "init-refinements" none isSize,
      option "wavelengths" (some 'k') isNumber,
      option "smoother-maxit" none isSize,
      option "theta" none isNumber,
      option "solution" none (inRange 0 1),
      flag "static-condensation" "no-static-condensation",
      flag "no-static-condensation" "static-condensation",
      flag "visualization" "no-visualization",
      flag "no-visualization" "visualization"]
  negativeNumbers := true

structure Config where
  mesh : String
  order : Int
  dimension : Nat
  serialRefinements : Nat
  parallelRefinements : Nat
  initRefinements : Nat
  wavelengths : Float
  smootherSteps : Nat
  theta : Float
  solution : Int
  staticCondensation : Bool
  visualization : Bool
  /-- The runtime options of the package. -/
  options : List String

def Config.ofArguments (a : Arguments) : Config :=
  let size (name : String) (default : Nat) : Nat :=
    ((a.value? name).bind Decimal.size?).getD default
  let number (name : String) (default : Float) : Float :=
    ((a.value? name).bind Decimal.float?).getD default
  let int (name : String) (default : Int) : Int := ((a.value? name).bind integer?).getD default
  { mesh := (a.value? "mesh").getD "../data/one-hex.mesh"
    order := int "order" 1
    dimension := size "dimension" 2
    serialRefinements := size "serial-refinements" 1
    parallelRefinements := size "parallel-refinements" 1
    initRefinements := size "init-refinements" 1
    wavelengths := number "wavelengths" 0.5
    smootherSteps := size "smoother-maxit" 1
    theta := number "theta" 0.5
    solution := int "solution" 0
    staticCondensation := a.has "static-condensation"
    visualization := !a.has "no-visualization"
    options := a.rest }

/-- Reads all arguments with a reader, after the aliases among them are replaced. -/
def parseWith (reader : List String → Except Refusal Arguments) (args : List String) :
    Except Refusal Config :=
  (reader (args.map expandAlias)).map .ofArguments

def parse (args : List String) : Except Refusal Config := parseWith (Arguments.parse grammar) args

/-- What the program cannot do. -/
inductive Config.Fault
  | badOrder (order : Int)
  | badDimension (dimension : Nat)

def Config.Fault.message : Config.Fault → String
  | .badOrder order => s!"order {order} is not supported, only first order elements are available"
  | .badDimension dimension => s!"dimension {dimension} is not supported, use 2 or 3"

def Config.fault? (c : Config) : Option Config.Fault :=
  if c.order ≠ 1 then some (.badOrder c.order)
  else if c.dimension < 2 ∨ 3 < c.dimension then some (.badDimension c.dimension)
  else none

def Config.echo (c : Config) : List String :=
  ["Options used:", s!"   --mesh {c.mesh}", s!"   --order {c.order}",
    s!"   --dimension {c.dimension}", s!"   --serial-refinements {c.serialRefinements}",
    s!"   --parallel-refinements {c.parallelRefinements}",
    s!"   --init-refinements {c.initRefinements}",
    s!"   --wavelengths {Decimal.shortestText c.wavelengths}",
    s!"   --smoother-maxit {c.smootherSteps}", s!"   --theta {Decimal.shortestText c.theta}",
    s!"   --solution {c.solution}",
    if c.staticCondensation then "   --static-condensation" else "   --no-static-condensation",
    if c.visualization then "   --visualization" else "   --no-visualization"] ++
  if c.options.isEmpty then [] else ["   -- " ++ " ".intercalate c.options]

/-- The exact solutions. -/
inductive Exact
  /-- The product of all `x (1 - x)`. -/
  | polynomial
  /-- The product of all `sin (ω x)`. -/
  | sinusoidal (ω : Float)

def product (xs : List Float) : Float := xs.foldl (· * ·) 1.0

def Exact.value (e : Exact) (x : Array Float) : Float :=
  match e with
  | .polynomial => product (x.toList.map fun c => c * (1.0 - c))
  | .sinusoidal ω => product (x.toList.map fun c => (ω * c).sin)

/-- The right-hand side that belongs to the solution: minus the sum of its second
derivatives. -/
def Exact.source (e : Exact) (x : Array Float) : Float :=
  match e with
  | .polynomial => ((List.range x.size).map fun i =>
      2.0 * product ((x.toList.eraseIdx i).map fun c => c * (1.0 - c))).foldl (· + ·) 0.0
  | .sinusoidal ω => x.size.toFloat * (ω * ω) * e.value x

def pi : Float := 3.141592653589793

def Config.exact (c : Config) : Exact :=
  if c.solution = 0 then .polynomial else .sinusoidal (2.0 * pi * c.wavelengths)

section Propagation

variable {α : Type} [Scalar α]

/-- A vector on the free unknowns extended by zero. -/
def extend (n : Nat) (free : Array Nat) (e : Array α) : Array α :=
  (free.zip e).foldl (fun x (i, v) => x.setIfInBounds i v) (Coords.zeros n)

/-- What one smoothing step does to an error on the free unknowns. -/
def propagate (S : Smoother α) (free : Array Nat) (e : Array α) : Array α :=
  let correction := S.mult (S.matrix.mulVec (extend S.matrix.rows free e))
  (e.zip free).map fun (v, i) => v - correction.getD i 0

def propagation (S : Smoother α) (free : Array Nat) : Operator α :=
  .action free.size free.size (propagate S free)

end Propagation

/-- More free unknowns than these are too many for the spectrum. -/
def maxSpectrumDofs : Nat := 2000

/-- Aligned to the right in three columns. -/
def padded (n : Nat) : String :=
  let ds := toString n
  String.ofList (List.replicate (3 - ds.length) ' ') ++ ds

/-- The largest difference of two entries. -/
def amax (x y : Array Float) : Float :=
  Coords.amax (Coords.sub x y)

/-- Calls the eigensolver that the spectrum is computed with. -/
def call (c : EigenSolver.Call Float) : StateT (Workspace Float) Run (Reply Float) := fun w =>
  match w.step (.solver "spectrum" c) with
  | (w, .ok reply) => pure (reply, w)
  | (_, .error (.solver e)) => throw (.aborted e.message)
  | (_, .error _) => throw (.exited 101)

/-- Makes the eigensolver; its runtime options start with `family`. -/
def create (family : String) (wrap : Bool) : StateT (Workspace Float) Run Unit := fun w =>
  match w.step (.newSolver "spectrum" family wrap) with
  | (w, .ok _) => pure ((), w)
  | (_, .error (.solver e)) => throw (.aborted e.message)
  | (_, .error _) => throw (.exited 101)

/-- Prints the dominant eigenvalues of the error propagation. -/
def spectrum (S : Smoother Float) (free : Array Nat) : StateT (Workspace Float) Run Unit := do
  create "smoother_" true
  let _ ← call (.setOperators (propagation S free) none)
  let _ ← call (.setWanted (min free.size 2))
  let _ ← call (.setWhich .largestMagnitude)
  let _ ← call (.setProblem .nonHermitian)
  let _ ← call .solve
  if let .values zs ← call .eigenvalues then
    Run.print s!"{zs.length} converged eigenvalues of I - S A:"
    for (z, i) in zs.zipIdx do
      Run.print s!"  lambda_{i} = {Decimal.fixedText 6 z.re} {Decimal.signedFixedText 6 z.im}i, |lambda| = {Decimal.fixedText 6 z.norm}"

/-- The package started with the runtime options that are passed on, and with those of the
environment. -/
def Config.start? (c : Config) (environment : Option String) : Except PackageError Session :=
  Session.fresh.start? ⟨none, c.options, environment⟩

def run (c : Config) : Run Unit := do
  let session ← Run.orAbort PackageError.text (c.start? none)
  let grid? (r : Except Grid.Fault Grid) : Option Grid := (r.bind Grid.counted).toOption
  let unit ← Run.orPanic (grid? (Grid.unit? c.dimension 1))
  let coarse ← Run.orPanic (grid? (unit.refined? (c.initRefinements + c.serialRefinements)))
  let fine ← Run.orPanic (grid? (coarse.refined? c.parallelRefinements))
  Run.room (fine.dim * fine.vertexCount) 8
  let V : LinearSpace Float := ⟨← Run.orPanic fine.simplicial?.toOption⟩
  let A ← Run.orPanic (V.assembleMatrix Element.stiffness?).toOption
  let b ← Run.orPanic (V.assembleVector (Element.load? c.exact.source)).toOption
  let exact := V.interpolate c.exact.value
  let (A, b) ← Run.orPanic (LinearSpace.linearSystem? A b V.essentialDofs (some exact))
  let patches ← Run.orPanic (Patches.of? coarse c.parallelRefinements V.essentialDofs).toOption
  Run.print
    s!"{patches.patches.length} patches for {coarse.vertexCount} coarse vertices, {V.dofCount} dofs"
  let S ← Run.orAbort (fun e => (Smoother.Fault.message e).getD "") (Smoother.of? A patches c.theta)
  let start := V.essentialDofs.foldl (fun x i => x.setIfInBounds i (b.getD i 0.0))
    (Coords.zeros V.dofCount)
  Run.room (c.smootherSteps + 1) 8
  let (norms, x) ← Run.orPanic (S.smooth? b c.smootherSteps start)
  for (norm, i) in norms.zipIdx do
    Run.print s!"smoothing step {padded i}: residual = {Decimal.scientificText 6 norm}"
  let solve ← Run.orAbort (·.error.text) A.positiveSolver?
  let direct ← Run.orPanic (solve b)
  Run.print s!"max nodal error: smoothed = {Decimal.scientificText 6 (amax x exact)}, direct = {Decimal.scientificText 6 (amax direct exact)}"
  let essential := (flagsOfIndices? V.essentialDofs.toArray V.dofCount).getD #[]
  let free := indicesOfFlags (essential.map (!·))
  if 0 < free.size ∧ free.size ≤ maxSpectrumDofs then
    let _ ← (spectrum S free).run { Workspace.fresh with session }

/-- The outcome for the given arguments. -/
def outcome (args : List String) : Outcome :=
  match parse args with
  | .error .help => ⟨[], ["usage: [options] [-- solver options]"], [], .exited 0⟩
  | .error .usage => ⟨[], ["error: invalid arguments"], [], .exited 1⟩
  | .ok c =>
    match c.fault? with
    | some fault => ⟨[], ["error: " ++ fault.message], [], .exited 1⟩
    | none => (run c).outcome c.echo

end Eigenmesh.Program.Poisson
