/-!
The four directions of the board and the quarter turns between them.
-/
namespace ActorScript

inductive Direction where
  | north
  | east
  | south
  | west
  deriving DecidableEq, Repr, Inhabited

/-- North and south share the vertical axis (a column), east and west the horizontal one (a row). -/
inductive Axis where
  | vertical
  | horizontal
  deriving DecidableEq, Repr, Inhabited

namespace Direction

/-- Clockwise from north; choices among directions are made in this order. -/
def all : List Direction := [.north, .east, .south, .west]

def clockwise : Direction → Direction
  | .north => .east
  | .east => .south
  | .south => .west
  | .west => .north

def counterClockwise : Direction → Direction
  | .north => .west
  | .west => .south
  | .south => .east
  | .east => .north

def opposite (d : Direction) : Direction := d.clockwise.clockwise

/-- The two directions at right angles to this one, the clockwise one first. -/
def perpendiculars (d : Direction) : List Direction := [d.clockwise, d.counterClockwise]

def axis : Direction → Axis
  | .north | .south => .vertical
  | .east | .west => .horizontal

@[simp] theorem clockwise_counterClockwise (d : Direction) : d.counterClockwise.clockwise = d := by
  cases d <;> rfl

theorem axis_clockwise_ne (d : Direction) : d.clockwise.axis ≠ d.axis := by
  cases d <;> decide

@[simp] theorem axis_opposite (d : Direction) : d.opposite.axis = d.axis := by
  cases d <;> rfl

def name : Direction → String
  | .north => "North"
  | .east => "East"
  | .south => "South"
  | .west => "West"

def named? (name : String) : Option Direction := all.find? (·.name == name)

def keyword : Direction → String
  | .north => "NORTH"
  | .east => "EAST"
  | .south => "SOUTH"
  | .west => "WEST"

end Direction

def Axis.name : Axis → String
  | .vertical => "Vertical"
  | .horizontal => "Horizontal"

def Axis.named? (name : String) : Option Axis := [Axis.vertical, .horizontal].find? (·.name == name)

end ActorScript
