import ActorScript.Context.Basic
import ActorScript.Sense

/-!
What each command does to the context that runs it and to the body it runs for. A command is known
to the heap by its index in the script.
-/
namespace ActorScript

/-- What becomes of the tick after a command. -/
inductive Outcome where
  /-- The command is done, and so is the tick. -/
  | endTick
  /-- The command is done; the tick goes on with the next. -/
  | proceed
  /-- A jump was made; the tick goes on where it led. -/
  | jumped
  /-- The tick is done, and the command goes on in the next. -/
  | again
  deriving DecidableEq, Repr

/-- A context with the body that it runs for. -/
structure Run (β : Type) where
  context : Context
  body : β

namespace Run

variable {β : Type} [Body β]

def onContext (f : Context → Context) (r : Run β) : Run β := { r with context := f r.context }

def onBody (f : β → β) (r : Run β) : Run β := { r with body := f r.body }

/-- The direction that a heading comes to now. -/
def resolve (heading : Heading) (r : Run β) : Option Direction × Run β :=
  let drawn := r.context.draw (heading.resolve r.body)
  (drawn.1, { r with context := drawn.2 })

/-- One step of the body in a direction; without a direction there is no step. -/
def step (direction : Option Direction) (r : Run β) : Bool × Run β :=
  match direction with
  | none => (false, r)
  | some d =>
    let stepped := Body.step d r.body
    (stepped.1, { r with body := stepped.2 })

/-- A jump to a label if it can be made, and otherwise another outcome. -/
def jumpOr (label : Option String) (otherwise : Outcome) (r : Run β) : Outcome × Run β :=
  match label.bind fun label => r.context.jump? label with
  | some context => (.jumped, { r with context })
  | none => (otherwise, r)

/-- An act in the direction that a heading comes to, if it comes to one. -/
def act (heading : Heading) (f : Direction → β → β) (r : Run β) : Run β :=
  match r.resolve heading with
  | (none, r) => r
  | (some d, r) => r.onBody (f d)

/-- One tick of a move. A step that fails is used up, unless the move is forceful: then it stays,
and is tried again in the same direction. -/
def move (key : Nat) (heading : Heading) (count : Numeral) (forceful : Bool) (r : Run β) :
    Outcome × Run β :=
  let remaining := (r.context.heap.count? key).getD count.toInt64
  if remaining ≤ 0 then (.endTick, r)
  else
    let (direction, r) :=
      match r.context.heap.stuck? key with
      | some d => (some d, r)
      | none => r.resolve heading
    let (moved, r) := r.step direction
    if !moved && forceful then
      let hold (h : Heap) : Heap :=
        match direction with
        | some d => h.setStuck key d
        | none => h
      (.again, r.onContext fun c => { c with heap := (hold c.heap).setCount key remaining })
    else
      let r := r.onContext fun c => { c with heap := c.heap.clearStuck key }
      let remaining := remaining - 1
      if 0 < remaining then
        (.again, r.onContext fun c => { c with heap := c.heap.setCount key remaining })
      else (.endTick, r)

def wait (key : Nat) (ticks : Numeral) (r : Run β) : Outcome × Run β :=
  let remaining := (r.context.heap.count? key).getD ticks.toInt64 - 1
  if 0 < remaining then
    (.again, r.onContext fun c => { c with heap := c.heap.setCount key remaining })
  else (.endTick, r)

def execute (key : Nat) (command : Command) (r : Run β) : Outcome × Run β :=
  match command with
  | .move heading count forceful => r.move key heading count forceful
  | .attempt heading otherwise =>
    let (direction, r) := r.resolve heading
    let (moved, r) := r.step direction
    if moved then (.endTick, r) else r.jumpOr otherwise .endTick
  | .wait ticks => r.wait key ticks
  | .say text => (.endTick, r.onBody (Body.say text))
  | .scroll lines => (.endTick, r.onBody (Body.scroll lines))
  | .finish => (.proceed, r.onContext .stop)
  | .die => (.proceed, (r.onBody Body.remove).onContext .stop)
  | .jumpIf condition label =>
    let (holds, context) := r.context.draw (condition.holds r.body)
    let r := { r with context }
    if holds then r.jumpOr (some label) .proceed else (.proceed, r)
  | .put heading tile => (.proceed, r.act heading fun d b => (Body.put d tile b).2)
  | .send recipient message =>
    match recipient with
    | none => r.jumpOr (some message) .proceed
    | some name =>
      if name = "self" then r.jumpOr (some message) .proceed
      else (.proceed, r.onContext (.post name message))
  | .set counter value => (.proceed, r.onBody (Body.setCounter counter value.toInt64))
  | .give counter amount => (.proceed, r.onBody (Body.adjustCounter counter amount.toInt64))
  | .take counter amount otherwise =>
    if amount.toInt64 ≤ Body.counter r.body counter then
      (.proceed, r.onBody (Body.adjustCounter counter (-amount.toInt64)))
    else r.jumpOr otherwise .proceed
  | .become tile => (.proceed, (r.onBody (Body.replace tile)).onContext .stop)
  | .change source target => (.proceed, r.onBody (Body.change source target))
  | .char code => (.proceed, r.onBody (Body.setChar code))
  | .torch radius => (.proceed, r.onBody (Body.setTorch radius))
  | .shoot heading => (.endTick, r.act heading Body.shoot)
  | .throwStar heading => (.endTick, r.act heading Body.throwStar)
  | .walk heading =>
    let (direction, r) := r.resolve heading
    (.proceed, r.onBody (Body.setWalk direction))
  | .stand => (.proceed, r.onBody (Body.setWalk none))
  | .lock => (.proceed, r.onContext (.setLocked true))
  | .unlock => (.proceed, r.onContext (.setLocked false))
  | .restore label => (.proceed, r.onContext (.restore label))
  | .zap label => (.proceed, r.onContext (.zap label))
  | .play tune exclusive => (.proceed, r.onBody (Body.play tune exclusive))

end Run
end ActorScript
