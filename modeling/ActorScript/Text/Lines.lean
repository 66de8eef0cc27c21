/-!
The lines of a text. A line feed ends a line and is no part of it, and neither is a carriage return
that stands directly before that line feed. Text after the last line feed is a line of its own, kept
whole; a text that ends in a line feed has no empty line after it.
-/
namespace ActorScript

/-- The line without the one carriage return that may end it. -/
def dropReturn (line : List Char) : List Char :=
  if line.getLast? = some '\r' then line.dropLast else line

/-- The lines of `cs`, where `line` holds the characters of the current line so far, newest first.
-/
def linesFrom : List Char → List Char → List (List Char)
  | line, [] => if line.isEmpty then [] else [line.reverse]
  | line, c :: cs =>
    if c = '\n' then dropReturn line.reverse :: linesFrom [] cs else linesFrom (c :: line) cs

def linesOf (text : String) : List String := (linesFrom [] text.toList).map String.ofList

end ActorScript
