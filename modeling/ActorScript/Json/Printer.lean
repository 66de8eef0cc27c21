import ActorScript.Json
import ActorScript.Text.Digits

/-!
Writing JSON over several lines: one item or field a line, two blanks further in for each level.
Empty arrays and objects take no line of their own, and characters outside ASCII stand for
themselves.
-/
namespace ActorScript.Json

def writtenChar (c : Char) : List Char :=
  if c = '"' then ['\\', '"']
  else if c = '\\' then ['\\', '\\']
  else if c = '\x08' then ['\\', 'b']
  else if c = '\x0c' then ['\\', 'f']
  else if c = '\n' then ['\\', 'n']
  else if c = '\r' then ['\\', 'r']
  else if c = '\t' then ['\\', 't']
  else if c.toNat < 32 then ['\\', 'u', '0', '0', hexDigit (c.toNat / 16), hexDigit (c.toNat % 16)]
  else [c]

def writtenString (s : String) : String :=
  String.ofList ('"' :: s.toList.flatMap writtenChar ++ ['"'])

def indentation (level : Nat) : String := String.ofList (List.replicate (2 * level) ' ')

def bracketed (level : Nat) (opening closing : String) (parts : List String) : String :=
  if parts.isEmpty then opening ++ closing
  else
    let lines := parts.map (indentation (level + 1) ++ ·)
    opening ++ "\n" ++ String.intercalate ",\n" lines ++ "\n" ++ indentation level ++ closing

mutual

/-- A value whose first line has been begun at a level. -/
def written (level : Nat) : Json → String
  | .null => "null"
  | .bool b => if b then "true" else "false"
  | .integer n => toString n
  | .decimal text => text
  | .string s => writtenString s
  | .array items => bracketed level "[" "]" (writtenItems (level + 1) items)
  | .object fields => bracketed level "\x7b" "\x7d" (writtenFields (level + 1) fields)

def writtenItems (level : Nat) : List Json → List String
  | [] => []
  | item :: items => written level item :: writtenItems level items

def writtenFields (level : Nat) : List (String × Json) → List String
  | [] => []
  | (name, value) :: fields =>
    (writtenString name ++ ": " ++ written level value) :: writtenFields level fields

end

def render (j : Json) : String := j.written 0

end ActorScript.Json
