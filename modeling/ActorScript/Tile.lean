import ActorScript.Text.Case

/-!
Tiles of the board, as scripts name them: a kind of thing, perhaps with a color.
-/
namespace ActorScript

inductive Color where
  | black
  | blue
  | green
  | cyan
  | red
  | magenta
  | brown
  | lightGray
  | gray
  | lightBlue
  | lightGreen
  | lightCyan
  | lightRed
  | lightMagenta
  | yellow
  | white
  deriving DecidableEq, Repr, Inhabited

namespace Color

def all : List Color :=
  [.black, .blue, .green, .cyan, .red, .magenta, .brown, .lightGray, .gray, .lightBlue, .lightGreen,
    .lightCyan, .lightRed, .lightMagenta, .yellow, .white]

def name : Color → String
  | .black => "Black"
  | .blue => "Blue"
  | .green => "Green"
  | .cyan => "Cyan"
  | .red => "Red"
  | .magenta => "Magenta"
  | .brown => "Brown"
  | .lightGray => "LightGray"
  | .gray => "Gray"
  | .lightBlue => "LightBlue"
  | .lightGreen => "LightGreen"
  | .lightCyan => "LightCyan"
  | .lightRed => "LightRed"
  | .lightMagenta => "LightMagenta"
  | .yellow => "Yellow"
  | .white => "White"

def keyword : Color → String
  | .black => "BLACK"
  | .blue => "BLUE"
  | .green => "GREEN"
  | .cyan => "CYAN"
  | .red => "RED"
  | .magenta => "MAGENTA"
  | .brown => "BROWN"
  | .lightGray => "LIGHTGRAY"
  | .gray => "GRAY"
  | .lightBlue => "LIGHTBLUE"
  | .lightGreen => "LIGHTGREEN"
  | .lightCyan => "LIGHTCYAN"
  | .lightRed => "LIGHTRED"
  | .lightMagenta => "LIGHTMAGENTA"
  | .yellow => "YELLOW"
  | .white => "WHITE"

def keywords : List String := all.map keyword

def named? (word : String) : Option Color := all.find? (sameWord ·.keyword word)

def render (c : Color) : String := lowerCase c.keyword

end Color

/-- A kind of thing on the board. Without a color it stands for that thing in any color. -/
structure Tile where
  color : Option Color
  thing : String
  deriving DecidableEq, Repr, Inhabited

/-- The tile as scripts write it and reports show it. -/
def Tile.render (t : Tile) : String :=
  match t.color with
  | some c => c.render ++ " " ++ t.thing
  | none => t.thing

end ActorScript
