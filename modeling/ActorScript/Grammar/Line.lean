import ActorScript.Grammar.Command
import ActorScript.ScriptError

/-!
Reading one line: a command, a label behind a colon, or nothing. Of the readings that a line has,
the first that takes all of its tokens counts.
-/
namespace ActorScript

namespace Grammar

open Construction Phrase

def labelRule : Phrase :=
  make (do
    let some name ← popToken | return
    push (.line (.label (nameOf name)))) <|
  .sequence [keyword ":", word]

def lineRule : Phrase := .alternation (commands ++ [labelRule, .empty])

end Grammar

namespace Line

/-- The error of a line that has no reading. A blamed word that begins the line is an unknown
command. Rules for a line take a token before they enter a named rule, so that a line is never too
deep; it would count as one that ends too early. -/
def blame (tokens : List Token) (line : Nat) : MatchError Token → ParseError
  | .unexpected token =>
    if tokens.head?.any (·.place.offset == token.place.offset) && token.isWord then
      .unknownCommand token
    else .unexpectedToken token
  | .exhausted | .tooDeep => .tokenExpected line

def parse (tokens : List Token) (line : Nat) : Except ParseError Line :=
  match Grammar.book.complete Grammar.lineRule (.start tokens) with
  | .error error => .error (blame tokens line error)
  | .ok c =>
    match c.stack with
    | [] => .ok .blank
    | .line parsed :: _ => .ok parsed
    | _ :: _ =>
      match tokens with
      | [] => .error (.tokenExpected line)
      | first :: _ => .error (.unexpectedToken first)

/-- Reads a text as one line, the first of its script. -/
def ofText (text : String) : Except ScriptError Line :=
  match tokenize text with
  | .error error => .error (.lexical error)
  | .ok tokens =>
    match parse tokens 1 with
    | .error error => .error (.grammatical error)
    | .ok line => .ok line

end Line
end ActorScript
