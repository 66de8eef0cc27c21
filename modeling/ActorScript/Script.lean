import ActorScript.Grammar.Line
import ActorScript.Table
import ActorScript.Text.Lines

/-!
A script is read line by line into commands and labels. One bad line makes all of it unusable: what
is kept then is only a diagnostic of the first error.
-/
namespace ActorScript

structure Diagnostic where
  scriptName : String
  /-- Counted from one. -/
  lineNumber : Nat
  lineText : String
  message : String
  deriving DecidableEq, Repr

def Diagnostic.render (d : Diagnostic) : String :=
  s!"{d.scriptName}:{d.lineNumber}: {d.message} | {d.lineText}"

/-- Commands in order, and the positions of each label in order. A position is the index of the
command before the label, which is -1 for a label before all commands. -/
structure Program where
  commands : List Command
  labels : Table (List Int)
  deriving DecidableEq

namespace Program

def empty : Program := ⟨[], .empty⟩

/-- The labels of lines that follow `above` commands, added to those of the lines before. -/
def addLabels (above : Nat) (labels : Table (List Int)) : List Line → Table (List Int)
  | [] => labels
  | .command _ :: lines => addLabels (above + 1) labels lines
  | .label name :: lines =>
    let positions := (labels.get? name).getD [] ++ [(above : Int) - 1]
    addLabels above (labels.insert name positions) lines
  | .blank :: lines => addLabels above labels lines

def ofLines (lines : List Line) : Program where
  commands := lines.filterMap fun
    | .command command => some command
    | _ => none
  labels := addLabels 0 .empty lines

/-- The tokens line by line with the numbers of the lines, where `line` holds the tokens of the
current line so far, newest first, and `number` is its number. -/
def tokenLines (number : Nat) (line : List Token) : List Token → List (Nat × List Token)
  | [] => [(number, line.reverse)]
  | token :: tokens =>
    if token.kind = .newline then
      (number, line.reverse) :: tokenLines (token.place.line + 1) [] tokens
    else tokenLines number (token :: line) tokens

/-- Reads lines in order up to the first bad one. -/
def readLines : List (Nat × List Token) → Except ParseError (List Line)
  | [] => .ok []
  | (number, tokens) :: rest =>
    match Line.parse tokens number with
    | .error error => .error error
    | .ok line =>
      match readLines rest with
      | .error error => .error error
      | .ok lines => .ok (line :: lines)

/-- The program of a text, or its first error. Errors among the characters come before all others.
-/
def ofText (text : String) : Except ScriptError Program :=
  match tokenize text with
  | .error error => .error (.lexical error)
  | .ok tokens =>
    match readLines (tokenLines 1 [] tokens) with
    | .error error => .error (.grammatical error)
    | .ok lines => .ok (ofLines lines)

end Program

structure Script where
  name : String
  program : Program
  diagnostic : Option Diagnostic
  deriving DecidableEq

namespace Script

/-- The script of a text, or one with a diagnostic of its first error and nothing to run. -/
def ofText (name text : String) : Script :=
  match Program.ofText text with
  | .ok program => ⟨name, program, none⟩
  | .error error =>
    let lineText := (linesOf text)[error.line - 1]?.getD ""
    ⟨name, .empty, some ⟨name, error.line, lineText, error.message⟩⟩

def commands (s : Script) : List Command := s.program.commands

/-- The positions of a label, whose name is to be in small letters. -/
def positions? (s : Script) (label : String) : Option (List Int) := s.program.labels.get? label

def isExecutable (s : Script) : Bool := s.diagnostic.isNone

end Script
end ActorScript
