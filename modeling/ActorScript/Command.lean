import ActorScript.Condition

/-!
What one line of a script says: a command, a label, or nothing. Labels, counters, messages and their
recipients are held in small letters, since a script does not tell cases apart.
-/
namespace ActorScript

inductive Command where
  /-- Steps along a heading, one a tick. A forceful move tries a blocked step again. -/
  | move (heading : Heading) (count : Numeral) (forceful : Bool)
  /-- One step; where it fails, a jump to a label. -/
  | attempt (heading : Heading) (otherwise : Option String)
  | wait (ticks : Numeral)
  | say (text : String)
  | scroll (lines : List String)
  | finish
  /-- Ends the script and takes the actor off the board. -/
  | die
  /-- Jumps to a label where a condition holds. -/
  | jumpIf (condition : Condition) (label : String)
  | put (heading : Heading) (tile : Tile)
  /-- A message to other actors, or a jump where it goes to the actor itself. -/
  | send (recipient : Option String) (message : String)
  | set (counter : String) (value : Numeral)
  | give (counter : String) (amount : Numeral)
  /-- Takes from a counter what it holds enough of; otherwise jumps to a label. -/
  | take (counter : String) (amount : Numeral) (otherwise : Option String)
  /-- Ends the script and turns the actor into another tile. -/
  | become (tile : Tile)
  /-- Turns all tiles of one kind into another. -/
  | change (source target : Tile)
  | char (code : Numeral)
  | torch (radius : Numeral)
  | shoot (heading : Heading)
  | throwStar (heading : Heading)
  | walk (heading : Heading)
  | stand
  | lock
  | unlock
  | restore (label : String)
  | zap (label : String)
  | play (tune : String) (exclusive : Bool)
  deriving DecidableEq, Inhabited

namespace Command

def keyword : Command → String
  | .move .. => "MOVE"
  | .attempt .. => "TRY"
  | .wait .. => "WAIT"
  | .say .. => "SAY"
  | .scroll .. => "SCROLL"
  | .finish => "END"
  | .die => "DIE"
  | .jumpIf .. => "IF"
  | .put .. => "PUT"
  | .send .. => "SEND"
  | .set .. => "SET"
  | .give .. => "GIVE"
  | .take .. => "TAKE"
  | .become .. => "BECOME"
  | .change .. => "CHANGE"
  | .char .. => "CHAR"
  | .torch .. => "TORCH"
  | .shoot .. => "SHOOT"
  | .throwStar .. => "THROWSTAR"
  | .walk .. => "WALK"
  | .stand => "STAND"
  | .lock => "LOCK"
  | .unlock => "UNLOCK"
  | .restore .. => "RESTORE"
  | .zap .. => "ZAP"
  | .play .. => "PLAY"

end Command

inductive Line where
  | command (command : Command)
  | label (name : String)
  | blank
  deriving DecidableEq, Inhabited

end ActorScript
