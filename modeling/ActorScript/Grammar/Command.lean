import ActorScript.Grammar.Condition

/-!
The rules for the commands, one for each keyword.
-/
namespace ActorScript.Grammar

open Construction Phrase

def alone (command : Command) : Phrase := make (pushCommand command) <| keyword command.keyword

def withHeading (text : String) (command : Heading → Command) : Phrase :=
  make (do
    let some heading ← popHeading | return
    pushCommand (command heading)) <|
  .sequence [keyword text, heading]

def withNumeral (text : String) (command : Numeral → Command) : Phrase :=
  make (do
    let some n ← popNumeral | return
    pushCommand (command n)) <|
  .sequence [keyword text, number]

def withLabel (text : String) (command : String → Command) : Phrase :=
  make (do
    let some label ← popToken | return
    pushCommand (command (nameOf label))) <|
  .sequence [keyword text, word]

def popCounter : Construction (Option (String × Numeral)) := do
  let some n ← popNumeral | return none
  let some counter ← popWord | return none
  return some (nameOf counter, n)

def withCounter (text : String) (command : String → Numeral → Command) : Phrase :=
  make (do
    let some (counter, n) ← popCounter | return
    pushCommand (command counter n)) <|
  .sequence [keyword text, word, number]

def moveRule : Phrase :=
  make (do
    let forceful := (← popWordIf (sameWord "FORCE")).isSome
    let count := (← popNumeral).getD .one
    let some heading ← popHeading | return
    pushCommand (.move heading count forceful)) <|
  .sequence [keyword "MOVE", heading, .optional number, .optional (literal "FORCE")]

def attemptRule : Phrase :=
  make (do
    let otherwise := (← popWord).map nameOf
    let some heading ← popHeading | return
    pushCommand (.attempt heading otherwise)) <|
  .sequence [keyword "TRY", heading, .optional word]

def waitRule : Phrase :=
  make (do
    let ticks := (← popNumeral).getD .one
    pushCommand (.wait ticks)) <|
  .sequence [keyword "WAIT", .optional number]

def sayRule : Phrase :=
  make (do
    let some text ← popToken | return
    pushCommand (.say text.value)) <|
  .sequence [keyword "SAY", quoted]

def scrollRule : Phrase :=
  make (do
    let lines ← popQuotedAll
    pushCommand (.scroll lines)) <|
  .sequence [keyword "SCROLL", quoted, .repetition (.sequence [keyword ",", quoted])]

/-- The label of a jump may have a colon before it, and may not be `THEN`. -/
def jumpIfRule : Phrase :=
  make (do
    let some label ← popToken | return
    let some condition ← popCondition | return
    pushCommand (.jumpIf condition (nameOf label))) <|
  .sequence [keyword "IF", condition, .optional (keyword "THEN"), .optional (keyword ":"),
    wordExcept ["THEN"]]

def putRule : Phrase :=
  make (do
    let some tile ← popTile | return
    let some heading ← popHeading | return
    pushCommand (.put heading tile)) <|
  .sequence [keyword "PUT", heading, tile]

/-- Of two words the first is the recipient; a single word is the message. -/
def sendRule : Phrase :=
  make (do
    let some message ← popToken | return
    let recipient := (← popWord).map nameOf
    pushCommand (.send recipient (nameOf message))) <|
  .sequence [keyword "SEND", word, .optional word]

def takeRule : Phrase :=
  make (do
    let otherwise := (← popWord).map nameOf
    let some (counter, amount) ← popCounter | return
    pushCommand (.take counter amount otherwise)) <|
  .sequence [keyword "TAKE", word, number, .optional word]

def becomeRule : Phrase :=
  make (do
    let some tile ← popTile | return
    pushCommand (.become tile)) <|
  .sequence [keyword "BECOME", tile]

def changeRule : Phrase :=
  make (do
    let some target ← popTile | return
    let some source ← popTile | return
    pushCommand (.change source target)) <|
  .sequence [keyword "CHANGE", tile, tile]

def playRule : Phrase :=
  make (do
    let exclusive := (← popWordIf (sameWord "EXCLUSIVE")).isSome
    let some tune ← popToken | return
    pushCommand (.play tune.value exclusive)) <|
  .sequence [keyword "PLAY", quoted, .optional (literal "EXCLUSIVE")]

def commands : List Phrase :=
  [moveRule, attemptRule, waitRule, sayRule, scrollRule, alone .finish, alone .die, jumpIfRule,
    putRule, sendRule, withCounter "SET" .set, withCounter "GIVE" .give, takeRule, becomeRule,
    changeRule, withNumeral "CHAR" .char, withNumeral "TORCH" .torch, withHeading "SHOOT" .shoot,
    withHeading "THROWSTAR" .throwStar, withHeading "WALK" .walk, alone .stand, alone .lock,
    alone .unlock, withLabel "RESTORE" .restore, withLabel "ZAP" .zap, playRule]

end ActorScript.Grammar
