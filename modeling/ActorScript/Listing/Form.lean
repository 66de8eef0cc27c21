import ActorScript.Command
import ActorScript.Text.Digits
import ActorScript.Text.Visible

/-!
The written-out form of commands in listings. It spells every field, so that unlike commands have
unlike forms: records with their names and fields in braces, lists in brackets, strings in quotes
with escapes.
-/
namespace ActorScript

namespace Form

def codeEscape (c : Char) : List Char := ['\\', 'u', '\x7b'] ++ hexDigits c.toNat ++ ['\x7d']

def character (c : Char) : List Char :=
  if c = '"' then ['\\', '"']
  else if c = '\\' then ['\\', '\\']
  else if c = '\n' then ['\\', 'n']
  else if c = '\r' then ['\\', 'r']
  else if c = '\t' then ['\\', 't']
  else if c = '\x00' then ['\\', '0']
  else if isVisible c then [c]
  else codeEscape c

def string (s : String) : String := String.ofList ('"' :: s.toList.flatMap character ++ ['"'])

def list (items : List String) : String := "[" ++ String.intercalate ", " items ++ "]"

def option : Option String → String
  | none => "None"
  | some form => "Some(" ++ form ++ ")"

def record (name : String) (fields : List (String × String)) : String :=
  name ++ " \x7b " ++ String.intercalate ", " (fields.map fun f => f.1 ++ ": " ++ f.2) ++ " \x7d"

def wrap (name inner : String) : String := name ++ "(" ++ inner ++ ")"

def bool (b : Bool) : String := if b then "true" else "false"

end Form

def Aim.form : Aim → String
  | .seek => "Seek"
  | .smart => "Smart"
  | .flow => "Flow"
  | .rand => "Rand"
  | .randFree => "RandFree"
  | .randBlocked => "RandBlocked"
  | .randEastWest => "RandEastWest"
  | .randNorthSouth => "RandNorthSouth"
  | .randNorthEast => "RandNorthEast"
  | .fixed direction => Form.wrap "Fixed" direction.name

def Turn.form : Turn → String
  | .clockwise => "Clockwise"
  | .counterClockwise => "CounterClockwise"
  | .opposite => "Opposite"
  | .randomPerpendicular => "RandomPerpendicular"

def Heading.form (h : Heading) : String :=
  Form.record "DirectionExpression"
    [("terminal", h.aim.form), ("modifiers", Form.list (h.turns.map Turn.form))]

def Tile.form (t : Tile) : String :=
  Form.record "ThingTemplate"
    [("color", Form.option (t.color.map Color.name)), ("thing", Form.string t.thing)]

def Condition.form : Condition → String
  | .not inner => Form.wrap "Not" inner.form
  | .adjacent => "Adjacent"
  | .blocked heading => Form.wrap "Blocked" heading.form
  | .aligned heading => Form.wrap "Aligned" (Form.option (heading.map Heading.form))
  | .peep radius => Form.wrap "Peep" radius.render
  | .present tile count =>
    Form.record "Exists" [("template", tile.form), ("count", count.render)]
  | .testing counter comparison value =>
    Form.record "Testing" [("counter", Form.string counter), ("comparison", comparison.name),
      ("value", value.render)]

def Command.form : Command → String
  | .move heading count forceful =>
    Form.wrap "Move" (Form.record "Move" [("direction", heading.form), ("count", count.render),
      ("forceful", Form.bool forceful)])
  | .attempt heading otherwise =>
    Form.record "Try" [("direction", heading.form),
      ("otherwise", Form.option (otherwise.map Form.string))]
  | .wait ticks => Form.record "Wait" [("ticks", ticks.render)]
  | .say text => Form.record "Say" [("text", Form.string text)]
  | .scroll lines => Form.record "Scroll" [("lines", Form.list (lines.map Form.string))]
  | .finish => "End"
  | .die => "Die"
  | .jumpIf condition label =>
    Form.record "If" [("condition", condition.form), ("label", Form.string label)]
  | .put heading tile =>
    Form.record "Put" [("direction", heading.form), ("template", tile.form)]
  | .send recipient message =>
    Form.record "Send" [("recipient", Form.option (recipient.map Form.string)),
      ("message", Form.string message)]
  | .set counter value =>
    Form.record "Set" [("counter", Form.string counter), ("value", value.render)]
  | .give counter amount =>
    Form.record "Give" [("counter", Form.string counter), ("amount", amount.render)]
  | .take counter amount otherwise =>
    Form.record "Take" [("counter", Form.string counter), ("amount", amount.render),
      ("otherwise", Form.option (otherwise.map Form.string))]
  | .become tile => Form.record "Become" [("template", tile.form)]
  | .change source target =>
    Form.record "Change" [("from", source.form), ("to", target.form)]
  | .char code => Form.record "Char" [("code", code.render)]
  | .torch radius => Form.record "Torch" [("radius", radius.render)]
  | .shoot heading => Form.record "Shoot" [("direction", heading.form)]
  | .throwStar heading => Form.record "ThrowStar" [("direction", heading.form)]
  | .walk heading => Form.record "Walk" [("direction", heading.form)]
  | .stand => "Stand"
  | .lock => "Lock"
  | .unlock => "Unlock"
  | .restore label => Form.record "Restore" [("label", Form.string label)]
  | .zap label => Form.record "Zap" [("label", Form.string label)]
  | .play tune exclusive =>
    Form.record "Play" [("notation", Form.string tune), ("exclusive", Form.bool exclusive)]

end ActorScript
