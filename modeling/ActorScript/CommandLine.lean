import ActorScript.Text.Digits

/-!
The command line: two paths, for the project file and for the directory of the outputs, and options
for a dry run. An option takes its value from the next argument or from behind an equals sign; two
dashes alone end the options.
-/
namespace ActorScript.CommandLine

structure Options where
  input : String
  output : String
  /-- Run the project's actors for this many ticks. -/
  ticks : Option Nat
  seed : Option UInt64
  deriving DecidableEq, Repr

inductive Request where
  | run (options : Options)
  /-- Help or the version was asked for. -/
  | about
  | refused
  deriving DecidableEq, Repr

structure Gathered where
  paths : List String
  ticks : Option Nat
  seed : Option Nat
  deriving DecidableEq, Repr

/-- A number below `2 ^ 64`, in decimal digits, perhaps with a plus sign before them. -/
def word64? (value : String) : Option Nat :=
  let digits := match value.toList with
    | '+' :: digits => digits
    | digits => digits
  if digits.isEmpty ∨ ¬ digits.all Char.isDigit then none
  else
    let n := decimalValue digits
    if n < Nat.pow 2 64 then some n else none

namespace Gathered

def addPath? (p : Gathered) (path : String) : Option Gathered :=
  if path.isEmpty ∨ 2 ≤ p.paths.length then none else some { p with paths := p.paths ++ [path] }

/-- Gives an option its value, which it can have only once. -/
def setOption? (p : Gathered) (name value : String) : Option Gathered := do
  let n ← word64? value
  match name with
  | "ticks" => if p.ticks.isSome then none else return { p with ticks := some n }
  | "seed" => if p.seed.isSome then none else return { p with seed := some n }
  | _ => none

/-- A seed makes sense only for a dry run. -/
def finish (p : Gathered) : Request :=
  match p.paths with
  | [input, output] =>
    if p.seed.isSome ∧ p.ticks.isNone then .refused
    else .run ⟨input, output, p.ticks, p.seed.map UInt64.ofNat⟩
  | _ => .refused

end Gathered

def readPaths (p : Gathered) : List String → Request
  | [] => p.finish
  | path :: rest =>
    match p.addPath? path with
    | none => .refused
    | some p => readPaths p rest

/-- Reads the arguments in order, up to the first that settles the request. -/
def readArguments (p : Gathered) : List String → Request
  | [] => p.finish
  | argument :: rest =>
    match argument.toList with
    | '-' :: '-' :: [] => readPaths p rest
    | '-' :: '-' :: text =>
      let name := String.ofList (text.takeWhile (· ≠ '='))
      match text.dropWhile (· ≠ '=') with
      | _ :: value =>
        match p.setOption? name (String.ofList value) with
        | none => .refused
        | some p => readArguments p rest
      | [] =>
        if name = "help" ∨ name = "version" then .about
        else
          match rest with
          | [] => .refused
          | value :: rest =>
            match p.setOption? name value with
            | none => .refused
            | some p => readArguments p rest
    | '-' :: letter :: _ => if letter = 'h' ∨ letter = 'V' then .about else .refused
    | _ =>
      match p.addPath? argument with
      | none => .refused
      | some p => readArguments p rest

def request (arguments : List String) : Request := readArguments ⟨[], none, none⟩ arguments

end ActorScript.CommandLine
