import ActorScript.Numeral

/-!
The tokens of a script and the places where they stand. A place is counted in characters; lines and
columns count from one, offsets from zero.
-/
namespace ActorScript

structure Place where
  line : Nat
  column : Nat
  offset : Nat
  deriving DecidableEq, Repr, Inhabited

namespace Place

def start : Place := ⟨1, 1, 0⟩

/-- The place behind one character: a line feed begins a new line. -/
def after (p : Place) (c : Char) : Place :=
  if c = '\n' then ⟨p.line + 1, 1, p.offset + 1⟩ else ⟨p.line, p.column + 1, p.offset + 1⟩

/-- The place behind a run of characters. -/
def afterAll (p : Place) (cs : List Char) : Place := cs.foldl after p

@[simp] theorem afterAll_nil (p : Place) : p.afterAll [] = p := rfl

@[simp] theorem afterAll_cons (p : Place) (c : Char) (cs : List Char) :
    p.afterAll (c :: cs) = (p.after c).afterAll cs := rfl

theorem afterAll_append (p : Place) (cs ds : List Char) :
    p.afterAll (cs ++ ds) = (p.afterAll cs).afterAll ds := List.foldl_append

theorem offset_afterAll (p : Place) (cs : List Char) :
    (p.afterAll cs).offset = p.offset + cs.length := by
  induction cs generalizing p with
  | nil => rfl
  | cons c cs ih =>
    have step : (p.after c).offset = p.offset + 1 := by unfold after; split <;> rfl
    rw [afterAll_cons, ih, step, List.length_cons]
    omega

end Place

inductive Token.Kind where
  | word
  | number
  | quoted
  | operator
  | punctuation
  | newline
  | comment
  deriving DecidableEq, Repr, Inhabited

/-- The value of a token is its source text; of a quoted string it is what the quotes hold, with
escapes read, and of a comment what follows the slashes. -/
structure Token where
  kind : Token.Kind
  value : String
  place : Place
  deriving DecidableEq, Repr, Inhabited

namespace Token

/-- One character of a quoted string as it is written between quotes. -/
def escape (c : Char) : List Char :=
  if c = '"' then ['\\', '"'] else if c = '\n' then ['\\', 'n'] else if c = '\\' then ['\\', '\\']
  else [c]

/-- A string in quotes, such that reading it gives the string again. -/
def quote (s : String) : String := String.ofList ('"' :: s.toList.flatMap escape ++ ['"'])

/-- The token as messages show it. A line feed is shown as its escape. -/
def display (t : Token) : String :=
  match t.kind with
  | .quoted => quote t.value
  | .newline => "\\n"
  | .comment => "//" ++ t.value
  | _ => t.value

/-- The token as it is written in a script. -/
def written (t : Token) : String :=
  match t.kind with
  | .newline => "\n"
  | _ => t.display

/-- A text with these tokens in this order. -/
def rebuild (tokens : List Token) : String := String.intercalate " " (tokens.map written)

def numeral? (t : Token) : Option Numeral :=
  match t.kind with
  | .number => Numeral.ofDigits? t.value.toList
  | _ => none

end Token
end ActorScript
