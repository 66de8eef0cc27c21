import ActorScript.Library
import ActorScript.Listing.Form

/-!
Listings show scripts to a reader: the commands with their indices, then the labels with their
positions, or else what is wrong with the script.
-/
namespace ActorScript

def indexColumn (n : Nat) : String :=
  let digits := toString n
  String.ofList (List.replicate (4 - digits.length) ' ') ++ digits

namespace Script

def commandLines (first : Nat) : List Command → List String
  | [] => []
  | command :: commands =>
    ("  " ++ indexColumn first ++ "  " ++ command.form) :: commandLines (first + 1) commands

def labelLines (labels : Table (List Int)) : List String :=
  if labels.isEmpty then []
  else "  labels:" :: labels.entries.map fun label =>
    "    :" ++ label.1 ++ " -> " ++ String.intercalate ", " (label.2.map toString)

def listingLines (s : Script) : List String :=
  ("== " ++ s.name ++ " ==") ::
    (match s.diagnostic with
    | some d => ["  !! line " ++ toString d.lineNumber ++ ": " ++ d.message, "  !! " ++ d.lineText]
    | none => commandLines 0 s.commands ++ labelLines s.program.labels) ++ [""]

def listing (s : Script) : String := String.join (s.listingLines.map (· ++ "\n"))

end Script

def Library.listing (l : Library) : String := String.join (l.scripts.values.map Script.listing)

end ActorScript
