/-!
Paths. A path is a text of names with slashes between them; it begins with a slash if its names
start from the top folder.
-/
namespace ActorScript.Path

def isAbsolute (path : String) : Bool := path.toList.head? == some '/'

/-- The names between the slashes of a text, where `name` holds the characters of the current name
so far, newest first. -/
def namesFrom : List Char → List Char → List String
  | name, [] => [String.ofList name.reverse]
  | name, c :: cs =>
    if c = '/' then String.ofList name.reverse :: namesFrom [] cs else namesFrom (c :: name) cs

/-- The names of a path. One beside a slash that ends the path, begins it or follows another slash
is empty. -/
def names (path : String) : List String := namesFrom [] path.toList

def stays (name : String) : Bool := name == "" || name == "."

def isProper (name : String) : Bool := ! stays name && name != ".."

/-- The paths of the folders on the way to the last name of a path, from the first on. Names that
stay where one is are passed over. -/
def onTheWay (path : String) : List String :=
  let moves := (names path).filter (! stays ·)
  let top := if isAbsolute path then "/" else ""
  (List.range (moves.length - 1)).map fun n => top ++ "/".intercalate (moves.take (n + 1))

def inFolder (folder name : String) : String :=
  if folder.toList.getLast? = some '/' then folder ++ name else folder ++ "/" ++ name

end ActorScript.Path
