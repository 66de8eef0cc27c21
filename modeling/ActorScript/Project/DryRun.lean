import ActorScript.Library
import ActorScript.Project
import ActorScript.Recorder
import ActorScript.Stage

/-!
A dry run puts a project's actors on a stage, each with a recorder for its body, and reports what
they did in so many ticks. It always has a seed: a run that is not meant to be repeated is one with
a seed that nobody knows, which has to come from outside.
-/
namespace ActorScript

structure Trace where
  actor : String
  script : String
  actions : List Action
  deriving DecidableEq

/-- An actor cannot be put on a stage. -/
inductive DryRunError where
  | unknownScript (actor script : String)
  deriving DecidableEq, Repr

def DryRunError.message : DryRunError → String
  | .unknownScript actor script => s!"actor `{actor}` runs unknown script `{script}`"

namespace Project

def library (p : Project) : Library :=
  p.scripts.foldl (fun library entry => library.insert entry.name entry.text) .empty

def enterAll (library : Library) :
    List ActorEntry → Stage Recorder → Except DryRunError (Stage Recorder)
  | [], stage => .ok stage
  | entry :: rest, stage =>
    match library.get? entry.script with
    | none => .error (.unknownScript entry.name entry.script)
    | some script =>
      enterAll library rest (stage.spawn entry.name script (.named entry.name) entry.cycle)

def traceOf (a : Actor Recorder) : Trace :=
  ⟨a.name, a.run.context.script.name, a.run.body.actions.toList⟩

def dryRun (p : Project) (ticks : Nat) (seed : UInt64) : Except DryRunError (List Trace) :=
  match enterAll p.library p.actors (.empty seed) with
  | .error error => .error error
  | .ok stage => .ok ((stage.runFor ticks).actors.map traceOf)

end Project
end ActorScript
