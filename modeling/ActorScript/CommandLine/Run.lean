import ActorScript.CommandLine
import ActorScript.Report
import ActorScript.Storage

/-!
A run of the program: it reads a project file, reads the scripts in it and perhaps runs its actors,
and writes diagnostics, a listing and a trace into a folder. The first step that fails ends the run;
what was written before it stays.
-/
namespace ActorScript.CommandLine

inductive Failure where
  | reading (path reason : String)
  | loading (error : LoadError)
  | running (ticks : Nat) (error : DryRunError)
  | creating (path reason : String)
  | writing (what reason : String)
  deriving DecidableEq, Repr

/-- The step that failed, as it is reported. -/
def Failure.message : Failure → String
  | .reading path _ => s!"Reading {path}"
  | .loading _ => "Parsing input JSON"
  | .running ticks _ => s!"Running {ticks} ticks"
  | .creating path _ => s!"Creating {path}"
  | .writing what _ => s!"Writing {what}"

def Failure.cause : Failure → String
  | .loading error => error.message
  | .running _ error => error.message
  | .reading _ reason | .creating _ reason | .writing _ reason => reason

/-- The outputs for the text of a project file. Where no seed is asked for, the actors may do what
they do with any; `seed` is the one that chance has given. -/
def outputs (options : Options) (seed : UInt64) (text : String) : Except Failure Outputs :=
  match Project.ofText text with
  | .error error => .error (.loading error)
  | .ok project =>
    match options.ticks with
    | none => .ok (project.outputs none)
    | some ticks =>
      match project.dryRun ticks (options.seed.getD seed) with
      | .error error => .error (.running ticks error)
      | .ok traces => .ok (project.outputs (some traces))

variable {m : Type → Type} [Monad m] [Storage m]

/-- A step of a run, with the failure that it ends in if it goes wrong for a reason. -/
def step {α : Type} (failure : String → Failure) (action : m (Except String α)) :
    ExceptT Failure m α :=
  ExceptT.mk do return (← action).mapError failure

def makeFolders (path : String) : ExceptT Failure m Unit :=
  (Path.onTheWay path ++ [path]).forM fun folder =>
    step (.creating path) (Storage.makeFolder folder)

def writeOutput (options : Options) (what file text : String) : ExceptT Failure m Unit :=
  step (.writing what) (Storage.writeFile (Path.inFolder options.output file) text)

/-- A run of the program. `seed` is what chance has given for one that is not asked for. -/
def run (options : Options) (seed : UInt64) : ExceptT Failure m Unit := do
  let text ← step (.reading options.input) (Storage.readFile options.input)
  let outputs ← ExceptT.mk (pure (outputs options seed text))
  makeFolders options.output
  writeOutput options "diagnostics" "diagnostics.json" outputs.diagnostics
  writeOutput options "listing" "listing.txt" outputs.listing
  if let some trace := outputs.trace then writeOutput options "trace" "trace.json" trace

def runOn (disk : Disk) (options : Options) (seed : UInt64) : Except Failure Unit × Disk :=
  StateT.run (run options seed : ExceptT Failure (StateM Disk) Unit).run disk

end ActorScript.CommandLine
