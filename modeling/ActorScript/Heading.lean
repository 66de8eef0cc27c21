import ActorScript.Compass
import ActorScript.Text.Case

/-!
A heading says which way to go without fixing a direction: it aims at something and then turns away
from it. What it comes to is decided where it is used, by the actor's surroundings and by chance.
-/
namespace ActorScript

inductive Aim where
  | seek
  /-- Toward the player, stepping around an obstacle where possible. -/
  | smart
  | flow
  | rand
  | randFree
  | randBlocked
  | randEastWest
  | randNorthSouth
  | randNorthEast
  | fixed (direction : Direction)
  deriving DecidableEq, Repr, Inhabited

inductive Turn where
  | clockwise
  | counterClockwise
  | opposite
  /-- One of the two directions at right angles, by chance. -/
  | randomPerpendicular
  deriving DecidableEq, Repr, Inhabited

namespace Aim

/-- The words for aims. An aim with two words is written with the first of them. -/
def words : List (String × Aim) :=
  [("SEEK", .seek), ("SMART", .smart), ("FLOW", .flow), ("RAND", .rand), ("RANDF", .randFree),
    ("RANDB", .randBlocked), ("RNDEW", .randEastWest), ("RNDNS", .randNorthSouth),
    ("RNDNE", .randNorthEast), ("NORTH", .fixed .north), ("N", .fixed .north),
    ("EAST", .fixed .east), ("E", .fixed .east), ("SOUTH", .fixed .south), ("S", .fixed .south),
    ("WEST", .fixed .west), ("W", .fixed .west)]

def keywords : List String := words.map (·.1)

def named? (word : String) : Option Aim := (words.find? (sameWord ·.1 word)).map (·.2)

def keyword : Aim → String
  | .seek => "SEEK"
  | .smart => "SMART"
  | .flow => "FLOW"
  | .rand => "RAND"
  | .randFree => "RANDF"
  | .randBlocked => "RANDB"
  | .randEastWest => "RNDEW"
  | .randNorthSouth => "RNDNS"
  | .randNorthEast => "RNDNE"
  | .fixed direction => direction.keyword

end Aim

namespace Turn

def words : List (String × Turn) :=
  [("CW", .clockwise), ("CCW", .counterClockwise), ("OPP", .opposite),
    ("RNDP", .randomPerpendicular)]

def keywords : List String := words.map (·.1)

def named? (word : String) : Option Turn := (words.find? (sameWord ·.1 word)).map (·.2)

def keyword : Turn → String
  | .clockwise => "CW"
  | .counterClockwise => "CCW"
  | .opposite => "OPP"
  | .randomPerpendicular => "RNDP"

end Turn

/-- Turns stand in the order of writing; the one written last, next to the aim, is made first. -/
structure Heading where
  aim : Aim
  turns : List Turn
  deriving DecidableEq, Repr, Inhabited

end ActorScript
