/-!
A candidate is one way in which a token list may be read so far: how many tokens it has taken, which
are never more than there are, and a stack of what they were made into.
-/
namespace ActorScript

@[ext] structure Candidate (τ ι : Type) where
  tokens : List τ
  index : Nat
  /-- The top comes first. -/
  stack : List ι
  inside : index ≤ tokens.length
  deriving DecidableEq, Repr

namespace Candidate

variable {τ ι : Type}

def start (tokens : List τ) : Candidate τ ι := ⟨tokens, 0, [], Nat.zero_le _⟩

def peek? (c : Candidate τ ι) : Option τ := c.tokens[c.index]?

def isDone (c : Candidate τ ι) : Bool := c.tokens.length ≤ c.index

/-- Goes on behind the next token, and pushes the item made of it, if one is to be made. -/
def skip (c : Candidate τ ι) (item : Option (τ → ι)) (token : τ) : Candidate τ ι where
  tokens := c.tokens
  index := min (c.index + 1) c.tokens.length
  stack := (item.map (· token)).toList ++ c.stack
  inside := Nat.min_le_right _ _

/-- Takes the next token if it is accepted. -/
def take? (accepts : τ → Bool) (item : Option (τ → ι)) (c : Candidate τ ι) :
    Option (Candidate τ ι) :=
  match c.peek? with
  | none => none
  | some token =>
    if accepts token then some (c.skip item token) else none

/-- The candidate with the stack that is made for it. -/
def rework (made : Candidate τ ι → List ι) (c : Candidate τ ι) : Candidate τ ι :=
  { c with stack := made c }

end Candidate

/-- The candidates that one reading carries along, in the order in which they were found. -/
abbrev Pool (τ ι : Type) := List (Candidate τ ι)

namespace Pool

variable {τ ι : Type}

/-- The smallest index in a pool; zero if the pool is empty. -/
def smallestIndex : Pool τ ι → Nat
  | [] => 0
  | [c] => c.index
  | c :: d :: cs => min c.index (smallestIndex (d :: cs))

def longest : Pool τ ι → Nat
  | [] => 0
  | c :: cs => max c.tokens.length (longest cs)

/-- The first of the candidates that have taken the most tokens. -/
def furthest? : Pool τ ι → Option (Candidate τ ι)
  | [] => none
  | c :: cs =>
    match furthest? cs with
    | none => some c
    | some d => if c.index < d.index then some d else some c

end Pool
end ActorScript
