import ActorScript.Heading
import ActorScript.Numeral
import ActorScript.Tile

/-!
Conditions of an `IF`: questions about the actor's surroundings and its counters.
-/
namespace ActorScript

inductive Comparison where
  | greater
  | less
  | greaterOrEqual
  | lessOrEqual
  | equal
  deriving DecidableEq, Repr, Inhabited

namespace Comparison

def all : List Comparison := [.greater, .less, .greaterOrEqual, .lessOrEqual, .equal]

def sign : Comparison → String
  | .greater => ">"
  | .less => "<"
  | .greaterOrEqual => ">="
  | .lessOrEqual => "<="
  | .equal => "="

def signs : List String := all.map sign

def ofSign? (sign : String) : Option Comparison := all.find? (·.sign == sign)

def holds (c : Comparison) (a b : Int64) : Bool :=
  match c with
  | .greater => b < a
  | .less => a < b
  | .greaterOrEqual => b ≤ a
  | .lessOrEqual => a ≤ b
  | .equal => a == b

def name : Comparison → String
  | .greater => "Greater"
  | .less => "Less"
  | .greaterOrEqual => "GreaterOrEqual"
  | .lessOrEqual => "LessOrEqual"
  | .equal => "Equal"

end Comparison

inductive Condition where
  | not (inner : Condition)
  /-- The player is within one tile. -/
  | adjacent
  /-- The heading leads nowhere or into an obstacle. -/
  | blocked (heading : Heading)
  /-- The player shares the actor's row or column; with a heading, the one that runs that way. -/
  | aligned (heading : Option Heading)
  /-- The player can be seen within a radius. -/
  | peep (radius : Numeral)
  /-- The board holds at least so many of a tile. -/
  | present (tile : Tile) (count : Numeral)
  /-- A counter compares so to a number. -/
  | testing (counter : String) (comparison : Comparison) (value : Numeral)
  deriving DecidableEq, Inhabited

end ActorScript
