import ActorScript.Context.Tick

/-!
A stage holds actors and runs them tick by tick, in the order in which they came. Messages that are
sent in a tick arrive when all actors have run, so that no actor hears of another within one tick.
Ticks are counted without an end: to count them in a word of 64 bits is the same for the first
`2 ^ 64` of them, behind which that count would begin anew.
-/
namespace ActorScript

structure Actor (β : Type) where
  name : String
  run : Run β
  /-- The actor runs in every tick whose number is a multiple of this. -/
  cycle : Nat

namespace Actor

variable {β : Type} [Body β]

def send (message : String) (a : Actor β) : Actor β :=
  { a with run := a.run.onContext (.send message) }

def outbox (a : Actor β) : List Message := a.run.context.outbox

def tick (number : Nat) (a : Actor β) : Actor β :=
  if number % a.cycle = 0 then { a with run := a.run.tick } else a

def emptyOutbox (a : Actor β) : Actor β := { a with run := a.run.onContext .emptyOutbox }

end Actor

structure Stage (β : Type) where
  actors : List (Actor β)
  ticks : Nat
  /-- What the seeds of the actors are counted from. -/
  seed : UInt64

namespace Stage

variable {β : Type} [Body β]

def empty (seed : UInt64) : Stage β := ⟨[], 0, seed⟩

def nextSeed (s : Stage β) : UInt64 := s.seed + UInt64.ofNat s.actors.length

/-- Adds an actor with a script about to begin. A cycle of zero counts as one. -/
def spawn (name : String) (script : Script) (body : β) (cycle : Nat) (s : Stage β) : Stage β :=
  let run := ⟨.start script (.seeded s.nextSeed), body⟩
  { s with actors := s.actors ++ [⟨name, run, max 1 cycle⟩] }

/-- The first actor of a name, up to case. -/
def actor? (name : String) (s : Stage β) : Option (Actor β) :=
  s.actors.find? fun a => sameWord a.name name

/-- Whether a message to `recipient` is meant for the actor at `index` of the given name. The sender
is known by its index; a message from outside has none. -/
def isAddressed (recipient : String) (sender : Option Nat) (index : Nat) (name : String) : Bool :=
  if recipient = "all" then true
  else if recipient = "others" then sender ≠ some index
  else sameWord name recipient

def deliver (sender : Option Nat) (message : Message) (actors : List (Actor β)) : List (Actor β) :=
  actors.mapIdx fun index a =>
    if isAddressed message.recipient sender index a.name then a.send message.text else a

def send (recipient text : String) (s : Stage β) : Stage β :=
  { s with actors := deliver none ⟨recipient, text⟩ s.actors }

/-- The messages of all actors with their senders, in the order of the actors. -/
def mail (actors : List (Actor β)) : List (Nat × Message) :=
  (actors.mapIdx fun index a => a.outbox.map fun message => (index, message)).flatten

def deliverAll (mail : List (Nat × Message)) (actors : List (Actor β)) : List (Actor β) :=
  mail.foldl (fun actors m => deliver (some m.1) m.2 actors) actors

def tick (s : Stage β) : Stage β :=
  let actors := s.actors.map (·.tick s.ticks)
  { s with
    actors := deliverAll (mail actors) (actors.map Actor.emptyOutbox)
    ticks := s.ticks + 1 }

def runFor : Nat → Stage β → Stage β
  | 0, s => s
  | n + 1, s => runFor n s.tick

end Stage
end ActorScript
