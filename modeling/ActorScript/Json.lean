/-!
JSON values. Of numbers only whole ones written as such are told apart; any other number stands for
itself by its text. An object keeps its fields in order, and where a name is repeated its last field
counts.
-/
namespace ActorScript

inductive Json where
  | null
  | bool (value : Bool)
  /-- A number written without fraction and exponent, and not as minus zero. -/
  | integer (value : Int)
  | decimal (text : String)
  | string (value : String)
  | array (items : List Json)
  | object (fields : List (String × Json))
  deriving Inhabited

namespace Json

def field? (j : Json) (name : String) : Option Json :=
  match j with
  | .object fields => fields.reverse.lookup name
  | _ => none

def string? : Json → Option String
  | .string s => some s
  | _ => none

def array? : Json → Option (List Json)
  | .array items => some items
  | _ => none

/-- A whole number from zero up to what 32 bits hold. -/
def word32? : Json → Option Nat
  | .integer n => if 0 ≤ n ∧ n.toNat < Nat.pow 2 32 then some n.toNat else none
  | _ => none

/-- The value of a field that may be missing, but that may not be of the wrong kind. -/
def fieldD? {α : Type} (j : Json) (name : String) (read : Json → Option α) (default : α) :
    Option α :=
  match j.field? name with
  | some value => read value
  | none => some default

end Json
end ActorScript
