import ActorScript.Json.Printer
import ActorScript.Listing
import ActorScript.Project.DryRun

/-!
Reports in JSON: the diagnostics of a project's scripts, and the traces of a dry run.
-/
namespace ActorScript

def Direction.report (d : Direction) : Json := .string d.name

def Diagnostic.report (d : Diagnostic) : Json :=
  .object [("script_name", .string d.scriptName), ("line_number", .integer d.lineNumber),
    ("line_text", .string d.lineText), ("message", .string d.message)]

def Action.reportFields : Action → String × List (String × Json)
  | .moved d => ("moved", [("direction", d.report)])
  | .bumped d => ("bumped", [("direction", d.report)])
  | .said text => ("said", [("text", .string text)])
  | .scrolled lines => ("scrolled", [("lines", .array (lines.map .string))])
  | .removed => ("removed", [])
  | .replaced tile => ("replaced", [("template", .string tile)])
  | .put d tile => ("put", [("direction", d.report), ("template", .string tile)])
  | .changed source target => ("changed", [("from", .string source), ("to", .string target)])
  | .shot d => ("shot", [("direction", d.report)])
  | .threwStar d => ("threw_star", [("direction", d.report)])
  | .walk d => ("walk", [("direction", (d.map Direction.report).getD .null)])
  | .char code => ("char", [("code", .integer code.val)])
  | .played tune exclusive =>
    ("played", [("notation", .string tune), ("exclusive", .bool exclusive)])
  | .torch radius => ("torch", [("radius", .integer radius.val)])
  | .counter name value => ("counter", [("name", .string name), ("value", .integer value.toInt)])

def Action.report (a : Action) : Json :=
  let (name, fields) := a.reportFields
  .object (("action", .string name) :: fields)

def Trace.report (t : Trace) : Json :=
  .object [("actor", .string t.actor), ("script", .string t.script),
    ("actions", .array (t.actions.map Action.report))]

structure Outputs where
  diagnostics : String
  listing : String
  /-- Only if a dry run was asked for. -/
  trace : Option String
  deriving DecidableEq

def Project.outputs (p : Project) (traces : Option (List Trace)) : Outputs where
  diagnostics := (Json.array (p.library.diagnostics.map Diagnostic.report)).render
  listing := p.library.listing
  trace := traces.map fun traces => (Json.array (traces.map Trace.report)).render

end ActorScript
