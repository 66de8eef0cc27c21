import ActorScript.Token.Lexer

/-!
What can be wrong with a line of a script.
-/
namespace ActorScript

/-- Why the tokens of a line make no line. -/
inductive ParseError where
  /-- This token fits nowhere. -/
  | unexpectedToken (token : Token)
  /-- The line ends where something is still missing. -/
  | tokenExpected (line : Nat)
  /-- The line begins with a word that is no keyword. -/
  | unknownCommand (word : Token)
  deriving DecidableEq, Repr

namespace ParseError

def line : ParseError → Nat
  | .unexpectedToken token => token.place.line
  | .tokenExpected line => line
  | .unknownCommand word => word.place.line

def message : ParseError → String
  | .unexpectedToken token =>
    s!"unexpected token '{token.display}' at line {token.place.line}, column {token.place.column}"
  | .tokenExpected line => s!"token expected at end of line {line}"
  | .unknownCommand word =>
    s!"unknown command '{word.value}' at line {word.place.line}, column {word.place.column}"

end ParseError

/-- An error of a script, from its characters or from its tokens. -/
inductive ScriptError where
  | lexical (error : LexError)
  | grammatical (error : ParseError)
  deriving DecidableEq, Repr

namespace ScriptError

def line : ScriptError → Nat
  | .lexical error => error.line
  | .grammatical error => error.line

def message : ScriptError → String
  | .lexical error => error.message
  | .grammatical error => error.message

end ScriptError
end ActorScript
