import ActorScript.Disk

/-!
What a program does with files and folders. Where it does so is left open: on a disk as a value it
can be reasoned about.
-/
namespace ActorScript

/-- Reading and writing, any of which may fail for a reason. -/
class Storage (m : Type → Type) where
  readFile (path : String) : m (Except String String)
  /-- Makes a folder within one that is there. A folder that is there already will do. -/
  makeFolder (path : String) : m (Except String Unit)
  /-- Writes the text of a file, within a folder that is there. -/
  writeFile (path text : String) : m (Except String Unit)

/-- Puts another disk in place of the disk, if there is one. -/
def Disk.replace (change : Disk → Option Disk) (reason : String) :
    StateM Disk (Except String Unit) := do
  match change (← get) with
  | some d =>
    set d
    return .ok ()
  | none => return .error reason

instance : Storage (StateM Disk) where
  readFile path := do
    match (← get).textAt? path with
    | some text => return .ok text
    | none => return .error "no such file"
  makeFolder path := Disk.replace (·.withFolder? path) "no such folder"
  writeFile path text := Disk.replace (·.withText? path text) "no such file"

end ActorScript
