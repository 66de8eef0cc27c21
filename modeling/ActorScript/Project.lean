import ActorScript.Json.Reader

/-!
A project file names scripts with their texts, and the actors that run them. It is a JSON object
with an array `scripts` and, if there are actors, an array `actors`. An entry of either is an object
with its fields by name, or an array with its fields in order.
-/
namespace ActorScript

structure ScriptEntry where
  name : String
  text : String
  deriving DecidableEq, Repr

structure ActorEntry where
  name : String
  script : String
  /-- The actor runs in every tick whose number is a multiple of this. -/
  cycle : Nat
  deriving DecidableEq, Repr

structure Project where
  scripts : List ScriptEntry
  actors : List ActorEntry
  deriving DecidableEq, Repr

inductive LoadError where
  | notJson
  | noScripts
  /-- An entry of `scripts` is not of its form. -/
  | badScript (index : Nat)
  | duplicateName (index : Nat) (name : String)
  /-- The value of `actors` or an entry of it is not of its form. -/
  | badActors
  | unknownScript (index : Nat) (actor script : String)
  | zeroCycle (index : Nat) (actor : String)
  deriving DecidableEq, Repr

def LoadError.message : LoadError → String
  | .notJson => "file is not valid JSON"
  | .noScripts => "file has no `scripts` array"
  | .badScript index => s!"script {index}"
  | .duplicateName index name => s!"script {index}: duplicate name `{name}`"
  | .badActors => "`actors`"
  | .unknownScript index actor script =>
    s!"actor {index} (`{actor}`) runs unknown script `{script}`"
  | .zeroCycle index actor => s!"actor {index} (`{actor}`) has a cycle of 0"

namespace Project

def readScript : Json → Option ScriptEntry
  | .array [name, text] => do return ⟨← name.string?, ← text.string?⟩
  | .array _ => none
  | entry => do return ⟨← (← entry.field? "name").string?, ← (← entry.field? "text").string?⟩

/-- An actor without a cycle runs in every tick. -/
def readActor : Json → Option ActorEntry
  | .array [name, script] => do return ⟨← name.string?, ← script.string?, 1⟩
  | .array [name, script, cycle] => do
    return ⟨← name.string?, ← script.string?, ← cycle.word32?⟩
  | .array _ => none
  | entry => do
    return ⟨← (← entry.field? "name").string?, ← (← entry.field? "script").string?,
      ← entry.fieldD? "cycle" Json.word32? 1⟩

/-- Reads scripts in order, the first of which has the number `index`; `names` are those used
before. -/
def readScripts (index : Nat) (names : List String) :
    List Json → Except LoadError (List ScriptEntry)
  | [] => return []
  | json :: rest =>
    match readScript json with
    | none => throw (.badScript index)
    | some entry =>
      if entry.name ∈ names then throw (.duplicateName index entry.name)
      else do return entry :: (← readScripts (index + 1) (entry.name :: names) rest)

/-- Checks actors in order, the first of which has the number `index`, against the names of scripts.
-/
def checkActors (index : Nat) (names : List String) : List ActorEntry → Except LoadError Unit
  | [] => return ()
  | actor :: rest =>
    if actor.script ∉ names then throw (.unknownScript index actor.name actor.script)
    else if actor.cycle = 0 then throw (.zeroCycle index actor.name)
    else checkActors (index + 1) names rest

def ofJson (root : Json) : Except LoadError Project := do
  let some scripts := (root.field? "scripts").bind Json.array? | throw .noScripts
  let scripts ← readScripts 0 [] scripts
  let actors ← match root.field? "actors" with
    | none | some .null => pure []
    | some value =>
      match value.array?.bind (·.mapM readActor) with
      | none => throw .badActors
      | some actors => pure actors
  checkActors 0 (scripts.map (·.name)) actors
  return ⟨scripts, actors⟩

def ofText (text : String) : Except LoadError Project :=
  match Json.ofText? text with
  | none => .error .notJson
  | some root => ofJson root

end Project
end ActorScript
