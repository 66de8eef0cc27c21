import ActorScript.Compass
import ActorScript.Numeral

/-!
What an actor can be seen to do. Tiles stand here as they are shown.
-/
namespace ActorScript

inductive Action where
  | moved (direction : Direction)
  /-- A step into an obstacle. -/
  | bumped (direction : Direction)
  | said (text : String)
  | scrolled (lines : List String)
  | removed
  | replaced (tile : String)
  | put (direction : Direction) (tile : String)
  | changed (source target : String)
  | shot (direction : Direction)
  | threwStar (direction : Direction)
  | walk (direction : Option Direction)
  | char (code : Numeral)
  | played (tune : String) (exclusive : Bool)
  | torch (radius : Numeral)
  | counter (name : String) (value : Int64)
  deriving DecidableEq

end ActorScript
