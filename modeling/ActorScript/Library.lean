import ActorScript.Script

/-!
The scripts of a project by name.
-/
namespace ActorScript

structure Library where
  scripts : Table Script

namespace Library

def empty : Library := ⟨.empty⟩

/-- Adds the script of a text, over any other of its name. -/
def insert (l : Library) (name text : String) : Library :=
  ⟨l.scripts.insert name (.ofText name text)⟩

def get? (l : Library) (name : String) : Option Script := l.scripts.get? name

/-- The diagnostics of the scripts that have one, in the order of their names. -/
def diagnostics (l : Library) : List Diagnostic := l.scripts.values.filterMap Script.diagnostic

end Library
end ActorScript
