import ActorScript.Command
import ActorScript.Token

/-!
The source of a command: one way to write it down, of the several that read as the same command.
Every number is written out, optional words stand only where they say something, and conditions take
their longest form, so that no word can be read as part of its neighbour. An aim may have two words;
`spell` says which of them is to be written.
-/
namespace ActorScript

/-- Words parted by blanks. -/
def sourceWords (words : List String) : String := String.intercalate " " words

section Source

variable (spell : Aim → String)

/-- The turns in order, then the aim. -/
def Heading.source (h : Heading) : String :=
  sourceWords (h.turns.map Turn.keyword ++ [spell h.aim])

def Condition.source : Condition → String
  | .not inner => sourceWords ["NOT", inner.source]
  | .adjacent => "ADJACENT"
  | .blocked heading => sourceWords ["BLOCKED", heading.source spell]
  | .aligned none => "ALIGNED"
  | .aligned (some heading) => sourceWords ["ALIGNED", heading.source spell]
  | .peep radius => sourceWords ["PEEP", radius.render]
  | .present tile count => sourceWords ["EXISTS", tile.render, count.render]
  | .testing counter comparison value =>
    sourceWords ["TESTING", counter, comparison.sign, value.render]

/-- What a command is written with after its keyword. -/
def Command.operands : Command → List String
  | .move heading count forceful =>
    [heading.source spell, count.render] ++ if forceful then ["FORCE"] else []
  | .attempt heading otherwise => heading.source spell :: otherwise.toList
  | .wait ticks => [ticks.render]
  | .say text => [Token.quote text]
  | .scroll lines => [String.intercalate ", " (lines.map Token.quote)]
  | .jumpIf condition label => [condition.source spell, "THEN", label]
  | .put heading tile => [heading.source spell, tile.render]
  | .send recipient message => recipient.toList ++ [message]
  | .set counter value => [counter, value.render]
  | .give counter amount => [counter, amount.render]
  | .take counter amount otherwise => [counter, amount.render] ++ otherwise.toList
  | .become tile => [tile.render]
  | .change source target => [source.render, target.render]
  | .char code => [code.render]
  | .torch radius => [radius.render]
  | .shoot heading | .throwStar heading | .walk heading => [heading.source spell]
  | .restore label | .zap label => [label]
  | .play tune exclusive => Token.quote tune :: if exclusive then ["EXCLUSIVE"] else []
  | .finish | .die | .stand | .lock | .unlock => []

/-- The line of a script that writes the command. -/
def Command.source (c : Command) : String := sourceWords (c.keyword :: c.operands spell)

end Source

end ActorScript
