import ActorScript.Body
import ActorScript.Random.Generator

/-!
What headings and conditions come to for a body: chance may decide the one, and through it the
other.
-/
namespace ActorScript

variable {β : Type} [Body β]

/-- The direction that an aim comes to, if it points at anything. -/
def Aim.resolve (b : β) : Aim → Chance (Option Direction)
  | .seek => return Body.towardPlayer b
  | .smart =>
    match Body.towardPlayer b with
    | none => return none
    | some toward =>
      if Body.isBlocked b toward then do
        let around ← Chance.choose (toward.perpendiculars.filter fun d => !Body.isBlocked b d)
        return around <|> some toward
      else return some toward
  | .flow => return Body.facing b
  | .rand => Chance.choose Direction.all
  | .randFree => Chance.choose (Body.directions false b)
  | .randBlocked => Chance.choose (Body.directions true b)
  | .randEastWest => Chance.choose [.east, .west]
  | .randNorthSouth => Chance.choose [.north, .south]
  | .randNorthEast => Chance.choose [.north, .east]
  | .fixed direction => return some direction

def Turn.apply (d : Direction) : Turn → Chance Direction
  | .clockwise => return d.clockwise
  | .counterClockwise => return d.counterClockwise
  | .opposite => return d.opposite
  | .randomPerpendicular => do return if ← Chance.coin then d.clockwise else d.counterClockwise

def Turn.applyAll (d : Direction) : List Turn → Chance Direction
  | [] => return d
  | turn :: turns => do turn.apply (← applyAll d turns)

def Heading.resolve (b : β) (h : Heading) : Chance (Option Direction) := do
  match ← h.aim.resolve b with
  | none => return none
  | some d => return some (← Turn.applyAll d h.turns)

/-- Whether a condition holds. A heading that leads nowhere is blocked, and aligned with nothing. -/
def Condition.holds (b : β) : Condition → Chance Bool
  | .not inner => do return !(← inner.holds b)
  | .adjacent => return Body.isPlayerAdjacent b
  | .blocked heading => do
    match ← heading.resolve b with
    | none => return true
    | some d => return Body.isBlocked b d
  | .aligned none => return Body.isPlayerAligned b none
  | .aligned (some heading) => do
    match ← heading.resolve b with
    | none => return false
    | some d => return Body.isPlayerAligned b (some d.axis)
  | .peep radius => return Body.isPlayerVisible b radius
  | .present tile count => return count.val ≤ (Body.countTiles b tile).toNat
  | .testing counter comparison value =>
    return comparison.holds (Body.counter b counter) value.toInt64

end ActorScript
