import ActorScript.Action
import ActorScript.Body
import ActorScript.Table

/-!
A recorder is a body without a board: it answers questions from what it was told beforehand, and
keeps a record of all that its script makes it do. Its tiles are counted in machine words of 64
bits, whose sums wrap around where they do not fit.
-/
namespace ActorScript

structure Recorder where
  name : String
  blocked : List Direction
  facing : Option Direction
  /-- The direction to the player; none means that there is no player. -/
  player : Option Direction
  playerDistance : Int64
  adjacent : Bool
  aligned : Option Axis
  /-- How many tiles there are of each thing, in whatever color. -/
  things : Table UInt64
  counters : Table Int64
  removed : Bool
  actions : Array Action

namespace Recorder

def named (name : String) : Recorder where
  name
  blocked := []
  facing := none
  player := none
  playerDistance := 0
  adjacent := false
  aligned := none
  things := .empty
  counters := .empty
  removed := false
  actions := #[]

instance : Inhabited Recorder := ⟨named ""⟩

def isBlocked (r : Recorder) (d : Direction) : Bool := r.blocked.contains d

def record (action : Action) (r : Recorder) : Recorder :=
  { r with actions := r.actions.push action }

/-- Makes all tiles of one thing count for another. -/
def changeThings (source target : String) (things : Table UInt64) : Table UInt64 :=
  match things.get? source with
  | none => things
  | some n =>
    let rest := things.erase source
    rest.insert target ((rest.get? target).getD 0 + n)

/-- Each act leaves its action on record; a tile that cannot be put leaves none. A body faces where
it last tried to step. -/
instance : Body Recorder where
  step d r :=
    let r := { r with facing := some d }
    if r.isBlocked d then (false, r.record (.bumped d)) else (true, r.record (.moved d))
  isBlocked := isBlocked
  facing r := r.facing
  towardPlayer r := r.player
  isPlayerAdjacent r := r.player.isSome && r.adjacent
  isPlayerAligned r axis :=
    match axis with
    | none => r.aligned.isSome
    | some axis => r.aligned == some axis
  isPlayerVisible r radius := r.player.isSome && r.playerDistance ≤ radius.toInt64
  countTiles r tile := (r.things.get? tile.thing).getD 0
  counter r name := (r.counters.get? name).getD 0
  setCounter name value r :=
    { r with counters := r.counters.insert name value }.record (.counter name value)
  say text r := r.record (.said text)
  scroll lines r := r.record (.scrolled lines)
  remove r := { r with removed := true }.record .removed
  replace tile r := r.record (.replaced tile.render)
  put d tile r :=
    if r.isBlocked d then (false, r) else (true, r.record (.put d tile.render))
  change source target r :=
    { r with things := changeThings source.thing target.thing r.things }.record
      (.changed source.render target.render)
  shoot d r := r.record (.shot d)
  throwStar d r := r.record (.threwStar d)
  setWalk d r := r.record (.walk d)
  setChar code r := r.record (.char code)
  play tune exclusive r := r.record (.played tune exclusive)
  setTorch radius r := r.record (.torch radius)

def said (r : Recorder) : List String :=
  r.actions.toList.filterMap fun
    | .said text => some text
    | _ => none

def moves (r : Recorder) : List Direction :=
  r.actions.toList.filterMap fun
    | .moved d => some d
    | _ => none

end Recorder
end ActorScript
