import ActorScript.Command
import ActorScript.Match.Rule
import ActorScript.Token.Terminal

/-!
What the rules for a line leave on the stack, and how a finished rule turns the items that its parts
left into its own. A construction takes its items from the top of the stack, last part first.
-/
namespace ActorScript.Grammar

/-- An item that stands for what a part of a line was read as. -/
inductive Node where
  | token (token : Token)
  | color (color : Color)
  | heading (heading : Heading)
  | tile (tile : Tile)
  | condition (condition : Condition)
  | line (line : Line)
  deriving DecidableEq, Inhabited

/-- The rules that rules for a line refer to by name. -/
inductive Name where
  | heading
  | condition
  deriving DecidableEq, Repr

abbrev Phrase := Rule Token Node Name

/-- A way to make an item from those on top of the stack. -/
abbrev Construction := StateM (List Node)

namespace Construction

def push (node : Node) : Construction Unit := modify (node :: ·)

/-- Takes the top item if it is of the kind that `select` looks for. -/
def popIf {α : Type} (select : Node → Option α) : Construction (Option α) := do
  match ← get with
  | [] => return none
  | node :: rest =>
    match select node with
    | some a => set rest; return some a
    | none => return none

/-- Takes the top item, whatever it is; it counts only if it is a token. -/
def popToken : Construction (Option Token) := do
  match ← get with
  | .token token :: rest => set rest; return some token
  | _ :: rest => set rest; return none
  | [] => return none

def popWordIf (accepts : String → Bool) : Construction (Option Token) :=
  popIf fun
    | .token token => if token.isWord && accepts token.value then some token else none
    | _ => none

def popWord : Construction (Option Token) := popWordIf fun _ => true

def popNumeral : Construction (Option Numeral) := do
  let token? ← popIf fun
    | .token token => if token.isNumber then some token else none
    | _ => none
  return token?.bind Token.numeral?

def popColor : Construction (Option Color) :=
  popIf fun | .color color => some color | _ => none

def popHeading : Construction (Option Heading) :=
  popIf fun | .heading heading => some heading | _ => none

def popTile : Construction (Option Tile) :=
  popIf fun | .tile tile => some tile | _ => none

def popCondition : Construction (Option Condition) :=
  popIf fun | .condition condition => some condition | _ => none

/-- The values of the quoted strings on top of a stack, top first, and what lies below them. -/
def splitQuoted : List Node → List String × List Node
  | .token token :: rest =>
    if token.isQuoted then
      let split := splitQuoted rest
      (token.value :: split.1, split.2)
    else ([], .token token :: rest)
  | stack => ([], stack)

/-- Takes all quoted strings on top of the stack, in the order in which they were pushed. -/
def popQuotedAll : Construction (List String) := do
  let split := splitQuoted (← get)
  set split.2
  return split.1.reverse

def pushCommand (command : Command) : Construction Unit := push (.line (.command command))

end Construction

/-- The name that a word gives to a label, a counter, a message or an actor. -/
def nameOf (word : Token) : String := lowerCase word.value

namespace Phrase

/-- A part whose items are then made into one. -/
def make (construction : Construction Unit) (part : Phrase) : Phrase :=
  .build (Candidate.rework fun c => (construction.run c.stack).2) part

/-- A token with this text, which leaves no item. -/
def keyword (text : String) : Phrase := .terminal (Token.isLiteral text) none

def literal (text : String) : Phrase := .terminal (Token.isLiteral text) (some .token)

def oneOf (texts : List String) : Phrase := .terminal (Token.isOneOf texts) (some .token)

def word : Phrase := .terminal Token.isWord (some .token)

def wordExcept (reserved : List String) : Phrase :=
  .terminal (Token.isWordExcept reserved) (some .token)

def number : Phrase := .terminal Token.isNumber (some .token)

def quoted : Phrase := .terminal Token.isQuoted (some .token)

def heading : Phrase := .deferred .heading

def condition : Phrase := .deferred .condition

end Phrase
end ActorScript.Grammar
