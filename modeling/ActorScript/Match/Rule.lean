import ActorScript.Match.Candidate

/-!
Rules read tokens breadth first. A rule takes a list of candidates and yields every candidate that
it can advance them to, so that alternatives are all kept and a repetition is kept at every count;
which of them is meant is settled at the end. A sequence whose first part leaves a candidate commits
itself: a later part that leaves none is an error, which ends the whole reading.

Rules refer to one another by name. A reading may enter named rules only to a certain depth, and may
repeat a rule only for a certain number of rounds, which makes it finite. The bounds grow with the
tokens there are to take; a reading that meets one of them says so, and yields nothing.
-/
namespace ActorScript

inductive MatchError (τ : Type) where
  | unexpected (token : τ)
  /-- The tokens ended where one was needed. -/
  | exhausted
  /-- The reading did not end within its bounds. -/
  | tooDeep
  deriving DecidableEq, Repr

/-- The error as it is reported, with tokens as `display` shows them. -/
def MatchError.message {τ : Type} (display : τ → String) : MatchError τ → String
  | .unexpected token => "unexpected token " ++ display token
  | .exhausted => "token expected"
  | .tooDeep => "rules nested too deeply"

/-- A rule over tokens `τ` and stack items `ι`; `ρ` names the rules it may refer to. -/
inductive Rule (τ ι ρ : Type) where
  /-- One accepted token, with the item that is pushed for it, if any. -/
  | terminal (accepts : τ → Bool) (item : Option (τ → ι))
  | sequence (parts : List (Rule τ ι ρ))
  | alternation (choices : List (Rule τ ι ρ))
  | repetition (inner : Rule τ ι ρ)
  | empty
  | deferred (name : ρ)
  /-- A rule with an action, which turns each of its results into another candidate. -/
  | build (action : Candidate τ ι → Candidate τ ι) (inner : Rule τ ι ρ)

/-- What comes of a reading that may fail. -/
abbrev Reading (τ : Type) := Except (MatchError τ)

/-- The error that names the next token of the candidate that got furthest. -/
def nextTokenError {τ ι : Type} (cs : Pool τ ι) : MatchError τ :=
  match (Pool.furthest? cs).bind Candidate.peek? with
  | some token => .unexpected token
  | none => .exhausted

/-- How many rounds a repetition can go on for. -/
def repetitionRounds {τ ι : Type} (cs : Pool τ ι) : Nat :=
  Pool.longest cs - Pool.smallestIndex cs + 1

/-- One round of a repetition: of what the inner rule yields, the candidates that stand beyond the
smallest index there was. -/
def repetitionRound {τ ι : Type} (inner : Pool τ ι → Reading τ (Pool τ ι)) (cs : Pool τ ι) :
    Reading τ (Pool τ ι) := do
  let outs ← inner cs
  return outs.filter fun c => Pool.smallestIndex cs < c.index

/-- The candidates of all rounds, round by round, until one is left with none; which is to be so
after as many rounds as are allowed. -/
def repetitionFrom {τ ι : Type} (inner : Pool τ ι → Reading τ (Pool τ ι)) :
    Nat → Pool τ ι → Reading τ (Pool τ ι)
  | 0, cs => if cs.isEmpty then .ok [] else .error .tooDeep
  | rounds + 1, cs =>
    if cs.isEmpty then .ok []
    else do
      let next ← repetitionRound inner cs
      let more ← repetitionFrom inner rounds next
      return next ++ more

namespace Rule

variable {τ ι ρ : Type}

def optional (inner : Rule τ ι ρ) : Rule τ ι ρ := .alternation [inner, .empty]

mutual

/-- All candidates that a rule advances the given ones to, where `enter` reads the rule of a name.
-/
def advance (enter : ρ → Pool τ ι → Reading τ (Pool τ ι)) :
    Rule τ ι ρ → Pool τ ι → Reading τ (Pool τ ι)
  | .terminal accepts item, cs => .ok (cs.filterMap (Candidate.take? accepts item))
  | .sequence parts, cs => advanceFirst enter parts cs
  | .alternation choices, cs => advanceEach enter choices cs
  | .repetition inner, cs => do
    let more ← repetitionFrom (advance enter inner) (repetitionRounds cs) cs
    return cs ++ more
  | .empty, cs => .ok cs
  | .deferred name, cs => enter name cs
  | .build action inner, cs => do
    let outs ← advance enter inner cs
    return outs.map action

/-- A sequence from its first part, which may leave no candidate. -/
def advanceFirst (enter : ρ → Pool τ ι → Reading τ (Pool τ ι)) :
    List (Rule τ ι ρ) → Pool τ ι → Reading τ (Pool τ ι)
  | [], cs => .ok cs
  | part :: parts, cs => do
    let next ← advance enter part cs
    if next.isEmpty then return [] else advanceRest enter parts next

/-- A sequence from a later part on, which has to leave a candidate. -/
def advanceRest (enter : ρ → Pool τ ι → Reading τ (Pool τ ι)) :
    List (Rule τ ι ρ) → Pool τ ι → Reading τ (Pool τ ι)
  | [], cs => .ok cs
  | part :: parts, cs => do
    let next ← advance enter part cs
    if next.isEmpty then .error (nextTokenError cs) else advanceRest enter parts next

/-- The candidates of every choice, choice by choice. -/
def advanceEach (enter : ρ → Pool τ ι → Reading τ (Pool τ ι)) :
    List (Rule τ ι ρ) → Pool τ ι → Reading τ (Pool τ ι)
  | [], _ => .ok []
  | choice :: choices, cs => do
    let outs ← advance enter choice cs
    let more ← advanceEach enter choices cs
    return outs ++ more

end

end Rule

structure Rulebook (τ ι ρ : Type) where
  rule : ρ → Rule τ ι ρ
  /-- How many named rules can enter one another before one of them takes a token. -/
  chain : Nat

namespace Rulebook

variable {τ ι ρ : Type}

/-- Reads the rule of a name, entering named rules to the given depth. -/
def enter (book : Rulebook τ ι ρ) : Nat → ρ → Pool τ ι → Reading τ (Pool τ ι)
  | 0, _, _ => .error .tooDeep
  | depth + 1, name, cs => (book.rule name).advance (book.enter depth) cs

/-- The depth that suffices for rules which take a token before they come to themselves again. -/
def depth (book : Rulebook τ ι ρ) (cs : Pool τ ι) : Nat :=
  (Pool.longest cs + 1) * book.chain

/-- All candidates that a rule advances the given ones to. -/
def read (book : Rulebook τ ι ρ) (rule : Rule τ ι ρ) (cs : Pool τ ι) :
    Reading τ (Pool τ ι) :=
  rule.advance (book.enter (book.depth cs)) cs

/-- The first of the candidates that take the most tokens. -/
def best (book : Rulebook τ ι ρ) (rule : Rule τ ι ρ) (start : Candidate τ ι) :
    Reading τ (Option (Candidate τ ι)) := do
  let outs ← book.read rule [start]
  return Pool.furthest? outs

/-- The first candidate that takes all tokens; where there is none, the error names the token that
no candidate took. -/
def complete (book : Rulebook τ ι ρ) (rule : Rule τ ι ρ) (start : Candidate τ ι) :
    Reading τ (Candidate τ ι) := do
  match ← book.best rule start with
  | some c => if c.isDone then return c else .error (nextTokenError [c])
  | none => .error (nextTokenError [start])

end Rulebook
end ActorScript
