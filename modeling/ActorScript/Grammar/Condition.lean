import ActorScript.Grammar.Heading

/-!
The rules for a condition. A comparison of a counter may go without its keyword, unless the counter
has the name of one.
-/
namespace ActorScript.Grammar

open Construction Phrase

def conditionKeywords : List String :=
  ["NOT", "ADJACENT", "BLOCKED", "ALIGNED", "PEEP", "EXISTS", "TESTING"]

def makeTesting : Construction Unit := do
  let some value ← popNumeral | return
  let some sign ← popToken | return
  let some comparison := Comparison.ofSign? sign.value | return
  let some counter ← popToken | return
  push (.condition (.testing (nameOf counter) comparison value))

def conditions : List Phrase :=
  [make (do
      let some inner ← popCondition | return
      push (.condition (.not inner))) <|
    .sequence [keyword "NOT", condition],
  make (push (.condition .adjacent)) <| keyword "ADJACENT",
  make (do
      let some heading ← popHeading | return
      push (.condition (.blocked heading))) <|
    .sequence [keyword "BLOCKED", heading],
  make (do
      let heading ← popHeading
      push (.condition (.aligned heading))) <|
    .sequence [keyword "ALIGNED", .optional heading],
  make (do
      let some radius ← popNumeral | return
      push (.condition (.peep radius))) <|
    .sequence [keyword "PEEP", number],
  make (do
      let count := (← popNumeral).getD .one
      let some tile ← popTile | return
      push (.condition (.present tile count))) <|
    .sequence [keyword "EXISTS", tile, .optional number],
  make makeTesting <|
    .sequence [keyword "TESTING", word, oneOf Comparison.signs, number],
  make makeTesting <|
    .sequence [wordExcept conditionKeywords, oneOf Comparison.signs, number]]

def conditionRule : Phrase := .alternation conditions

/-- The rules that go by name. A named rule takes a token before it enters another. -/
def book : Rulebook Token Node Name where
  rule
    | .heading => headingRule
    | .condition => conditionRule
  chain := 1

end ActorScript.Grammar
