import ActorScript.Context.Heap
import ActorScript.Random.Generator
import ActorScript.Script

/-!
A context is one script in the course of being run: where it is, what it waits to be told and what
it has to say. Everything about the actor's surroundings is left to its body.
-/
namespace ActorScript

/-- A message on its way to other actors. -/
structure Message where
  /-- The word `all`, the word `others` or the name of an actor. -/
  recipient : String
  text : String
  deriving DecidableEq, Repr

structure Context where
  script : Script
  /-- The next command; none once the script has stopped. -/
  index : Option Nat
  /-- How many positions of each label are zapped. -/
  cursors : Table Nat
  /-- The command that goes on in the next tick. -/
  stored : Option Nat
  inbox : List String
  outbox : List Message
  heap : Heap
  locked : Bool
  generator : Generator

namespace Context

inductive State where
  /-- Ended for good, or never fit to run. -/
  | stopped
  /-- About to run the command of this index. -/
  | running (index : Nat)
  /-- Past the last command, from where a message can still lead back. -/
  | halted
  deriving DecidableEq, Repr

/-- A script about to begin, if it is fit to run. -/
def start (script : Script) (generator : Generator) : Context where
  script
  index := if script.isExecutable then some 0 else none
  cursors := script.program.labels.map fun _ => 0
  stored := none
  inbox := []
  outbox := []
  heap := .empty
  locked := false
  generator

def state (c : Context) : State :=
  match c.index with
  | none => .stopped
  | some i => if i < c.script.commands.length then .running i else .halted

/-- Ends the script. Messages that wait are lost. -/
def stop (c : Context) : Context := { c with index := none, stored := none, inbox := [] }

/-- Opens the context to messages or closes it. Messages that wait when it closes are lost. -/
def setLocked (locked : Bool) (c : Context) : Context :=
  { c with locked, inbox := if locked then [] else c.inbox }

/-- How many positions of a label are zapped, if the script has it. -/
def cursor? (c : Context) (label : String) : Option Nat := c.cursors.get? (lowerCase label)

/-- Brings a message. It is lost on a context that is locked or has stopped. -/
def send (message : String) (c : Context) : Context :=
  if c.locked || c.index.isNone then c else { c with inbox := c.inbox ++ [lowerCase message] }

def post (recipient text : String) (c : Context) : Context :=
  { c with outbox := c.outbox ++ [⟨lowerCase recipient, lowerCase text⟩] }

def emptyOutbox (c : Context) : Context := { c with outbox := [] }

/-- The position of a label that a jump leads to: the first that is not zapped. -/
def target? (c : Context) (label : String) : Option Int := do
  let positions ← c.script.positions? (lowerCase label)
  positions[(c.cursor? label).getD 0]?

/-- Drops the command that is in progress, if there is one, with its part of the heap. -/
def dropStored (c : Context) : Context :=
  match c.stored with
  | none => c
  | some key => { c with stored := none, heap := c.heap.clear key }

/-- Goes on behind a label, unless the script has stopped or the label leads nowhere. -/
def jump? (label : String) (c : Context) : Option Context :=
  if c.index.isNone then none
  else
    match c.target? label with
    | none => none
    | some position => some { c.dropStored with index := some (position + 1).toNat }

/-- Takes the first position of a label out of use. -/
def zap (label : String) (c : Context) : Context :=
  let label := lowerCase label
  match c.script.positions? label, c.cursors.get? label with
  | some positions, some cursor =>
    { c with cursors := c.cursors.insert label (min (cursor + 1) positions.length) }
  | _, _ => c

/-- Brings the last position of a label that was zapped back into use. -/
def restore (label : String) (c : Context) : Context :=
  let label := lowerCase label
  match c.cursors.get? label with
  | some cursor => { c with cursors := c.cursors.insert label (cursor - 1) }
  | none => c

def draw {α : Type} (chance : Chance α) (c : Context) : α × Context :=
  let result := chance.run c.generator
  (result.1, { c with generator := result.2 })

/-- Ends a command and moves on to the next, unless the script has stopped. -/
def finish (key : Nat) (c : Context) : Context :=
  { c with stored := none, heap := c.heap.clear key, index := c.index.map (· + 1) }

end Context
end ActorScript
