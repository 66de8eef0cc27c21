import ActorScript.Command

/-!
A script drives a body on a board, and knows of the board only what its body senses. Questions leave
the body as it is; acts give the body afterwards, and an act that can fail says whether it did.
-/
namespace ActorScript

/-- What a script can ask of a body and make it do. A body is a value: two of them share nothing, so
that no act on the one is sensed by the other. The directions that are free or blocked, and a
counter after an adjustment, are those that `Body.directions` and `Body.adjustCounter` make of these
answers; a body has no say in them of its own. -/
class Body (β : Type) where
  /-- Makes one step; false if the way is blocked. -/
  step : Direction → β → Bool × β
  isBlocked : β → Direction → Bool
  /-- The way that the body faces. -/
  facing : β → Option Direction
  /-- The main direction to the player, if there is one. -/
  towardPlayer : β → Option Direction
  isPlayerAdjacent : β → Bool
  /-- The player is in line with the body, along the given axis or along either. -/
  isPlayerAligned : β → Option Axis → Bool
  isPlayerVisible : β → Numeral → Bool
  countTiles : β → Tile → UInt64
  counter : β → String → Int64
  setCounter : String → Int64 → β → β
  say : String → β → β
  scroll : List String → β → β
  remove : β → β
  replace : Tile → β → β
  /-- Puts a tile beside the body; false if it cannot be put. -/
  put : Direction → Tile → β → Bool × β
  change : Tile → Tile → β → β
  shoot : Direction → β → β
  throwStar : Direction → β → β
  setWalk : Option Direction → β → β
  setChar : Numeral → β → β
  play : String → Bool → β → β
  setTorch : Numeral → β → β

/-- The sum of two 64-bit numbers, held to the end of their range where it would pass it. -/
def saturatingAdd (a b : Int64) : Int64 :=
  let sum := a.toInt + b.toInt
  if sum < Int64.minValue.toInt then Int64.minValue
  else if Int64.maxValue.toInt < sum then Int64.maxValue
  else Int64.ofInt sum

namespace Body

variable {β : Type} [Body β]

/-- The directions that are free, or those that are not. -/
def directions (blocked : Bool) (b : β) : List Direction :=
  Direction.all.filter fun d => isBlocked b d == blocked

def adjustCounter (name : String) (delta : Int64) (b : β) : β :=
  setCounter name (saturatingAdd (counter b name) delta) b

end Body
end ActorScript
