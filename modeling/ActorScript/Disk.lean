import ActorScript.Entries
import ActorScript.Path

/-!
A disk of folders and files. An entry of a disk has an address, which is the list of the names that
lead to it from the top folder. A path leads to an address name by name, from the top folder or from
the working folder. Every name is looked up in a folder, so a path that goes on behind a file leads
nowhere, and so does one that goes on behind a name that is not there, be it back with two dots.
Everything on a disk may be read and written.
-/
namespace ActorScript

namespace Disk

inductive Entry where
  | folder
  | file (text : String)
  deriving DecidableEq, Repr

/-- The names that lead to an entry from the top folder, which has none itself. -/
abbrev Address := List String

end Disk

structure Disk where
  /-- All entries below the top folder. -/
  entries : List (Disk.Address × Disk.Entry)
  /-- The folder that paths start from unless they are absolute. -/
  workingFolder : Disk.Address
  deriving DecidableEq, Repr

namespace Disk

def maxName : Nat := 255

def maxPath : Nat := 4095

def get? (d : Disk) (a : Address) : Option Entry :=
  if a = [] then some .folder else d.entries.lookup a

def isFolder (d : Disk) (a : Address) : Bool := d.get? a == some .folder

def put (d : Disk) (a : Address) (e : Entry) : Disk :=
  { d with entries := (a, e) :: without a d.entries }

/-- Where a name leads from an address; two dots lead to the folder around it. -/
def step? (d : Disk) (a : Address) (name : String) : Option Address :=
  if ¬ d.isFolder a then none
  else if Path.stays name then some a
  else if name = ".." then some a.dropLast
  else if (d.get? (a ++ [name])).isSome then some (a ++ [name])
  else none

/-- The address that paths like the given one start from, if it is a path at all. -/
def start? (d : Disk) (path : String) : Option Address :=
  if path = "" ∨ maxPath < path.utf8ByteSize then none
  else some (if Path.isAbsolute path then [] else d.workingFolder)

def locate? (d : Disk) (path : String) : Option Address := do
  (Path.names path).foldlM d.step? (← d.start? path)

/-- The address that a new entry would have: its folder has to be there, and its name has to be one
that an entry can have. -/
def vacancy? (d : Disk) (start : Address) (names : List String) : Option Address := do
  let name ← names.getLast?
  let folder ← names.dropLast.foldlM d.step? start
  if d.isFolder folder ∧ Path.isProper name ∧ name.utf8ByteSize ≤ maxName then
    return folder ++ [name]
  else none

def textAt? (d : Disk) (path : String) : Option String := do
  match d.get? (← d.locate? path) with
  | some (.file text) => return text
  | _ => none

/-- The disk with a text in the file that a path leads to, whether or not there was one. -/
def withText? (d : Disk) (path text : String) : Option Disk := do
  let a ← d.vacancy? (← d.start? path) (Path.names path)
  if d.isFolder a then none else return d.put a (.file text)

/-- The disk with a folder where a path leads, whether or not there was one. The slashes that end
the path do not matter. -/
def withFolder? (d : Disk) (path : String) : Option Disk :=
  match d.locate? path with
  | some a => if d.isFolder a then some d else none
  | none => do
    let a ← d.vacancy? (← d.start? path) ((Path.names path).filter (· ≠ ""))
    if (d.get? a).isSome then none else return d.put a .folder

end Disk
end ActorScript
