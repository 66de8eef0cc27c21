import ActorScript.Context.Execute

/-!
One tick of a script: at most one message is taken from the inbox, then commands run until one of
them ends the tick. A tick runs at most as many commands as the script has, so that jumps in a
circle leave the rest of the circle to the next tick.
-/
namespace ActorScript

/-- That a command was run, and what came of it. -/
structure Event where
  key : Nat
  outcome : Outcome
  deriving DecidableEq, Repr

namespace Run

variable {β : Type} [Body β]

/-- Puts the context behind a command that was run, or back before it if it is to go on. -/
def settle (key : Nat) (outcome : Outcome) (r : Run β) : Run β :=
  match outcome with
  | .endTick | .proceed => r.onContext (.finish key)
  | .jumped => r
  | .again => r.onContext fun c => { c with stored := some key }

/-- The command that is up, if the script is running: the one in progress before the one at the
cursor. -/
def upNext? (r : Run β) : Option (Nat × Command) :=
  match r.context.state with
  | .running index =>
    let key := r.context.stored.getD index
    r.context.script.commands[key]?.map fun command => (key, command)
  | _ => none

def next? (r : Run β) : Option (Event × Run β) :=
  r.upNext?.map fun (key, command) =>
    let (outcome, r) := r.execute key command
    (⟨key, outcome⟩, r.settle key outcome)

/-- Runs commands until one ends the tick, none is up or the budget is spent. -/
def commands : Nat → Run β → Run β
  | 0, r => r
  | budget + 1, r =>
    match r.next? with
    | none => r
    | some (event, r) =>
      match event.outcome with
      | .endTick | .again => r
      | .proceed | .jumped => commands budget r

/-- Takes the oldest message, which jumps to the label of its name if it can. -/
def takeMessage (c : Context) : Context :=
  match c.inbox with
  | [] => c
  | message :: inbox =>
    let c := { c with inbox }
    (c.jump? message).getD c

def budget (c : Context) : Nat := max 1 c.script.commands.length

def tick (r : Run β) : Run β :=
  let r := r.onContext takeMessage
  commands (budget r.context) r

end Run
end ActorScript
