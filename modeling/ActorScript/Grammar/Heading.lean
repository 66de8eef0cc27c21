import ActorScript.Grammar.Node

/-!
The rules for a heading, which is any number of turns and then an aim, and for a tile, which is a
thing perhaps with a color before it. Both may share words: a color can also be the name of a thing.
-/
namespace ActorScript.Grammar

open Construction Phrase

def aimOnly : Phrase :=
  make (do
    let some token ← popToken | return
    let some aim := Aim.named? token.value | return
    push (.heading ⟨aim, []⟩)) <|
  oneOf Aim.keywords

def turned : Phrase :=
  make (do
    let some heading ← popHeading | return
    match (← popToken).bind fun token => Turn.named? token.value with
    | some turn => push (.heading { heading with turns := turn :: heading.turns })
    | none => push (.heading heading)) <|
  .sequence [oneOf Turn.keywords, heading]

def headingRule : Phrase := .alternation [aimOnly, turned]

def colorWord : Phrase :=
  make (do
    let some token ← popToken | return
    let some color := Color.named? token.value | return
    push (.color color)) <|
  oneOf Color.keywords

def tile : Phrase :=
  make (do
    let some thing ← popToken | return
    let color ← popColor
    push (.tile ⟨color, nameOf thing⟩)) <|
  .sequence [.optional colorWord, word]

end ActorScript.Grammar
