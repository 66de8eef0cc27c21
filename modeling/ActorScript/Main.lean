import ActorScript.CommandLine.Run

/-!
The program, run on the disk of the machine.
-/
namespace ActorScript.CommandLine

def attempt {α : Type} (action : IO α) : IO (Except String α) := do
  return (← action.toBaseIO).mapError toString

/-- The path leads to a folder: only there a dot is an entry that is there already. -/
def isFolder (path : String) : IO Bool := do
  match ← (IO.FS.createDir (Path.inFolder path ".")).toBaseIO with
  | .error (.alreadyExists ..) => return true
  | _ => return false

instance : Storage IO where
  readFile path := attempt (IO.FS.readFile path)
  makeFolder path := do
    match ← attempt (IO.FS.createDir path) with
    | .ok _ => return .ok ()
    | .error reason => return if ← isFolder path then .ok () else .error reason
  writeFile path text := attempt (IO.FS.writeFile path text)

def freshSeed : IO UInt64 := do
  let bytes ← IO.getRandomBytes 8
  return bytes.toList.foldl (fun n byte => n * 256 + byte.toUInt64) 0

def program (arguments : List String) : IO UInt32 := do
  let usage := "usage: <input> <output> [--ticks <ticks>] [--seed <seed>]"
  match request arguments with
  | .about =>
    IO.println usage
    return 0
  | .refused =>
    IO.eprintln usage
    return 2
  | .run options =>
    match ← (run options (← freshSeed) : ExceptT Failure IO Unit).run with
    | .ok _ => return 0
    | .error failure =>
      IO.eprintln s!"Error: {failure.message}\n\nCaused by:\n    {failure.cause}"
      return 1

end ActorScript.CommandLine

def main (arguments : List String) : IO UInt32 := ActorScript.CommandLine.program arguments
