import ActorScript.Proofs.Stage.Delivery

/-!
A course is all that is done with a stage, one deed after the other. What a deed comes to for one
actor is said here without the others: what the actor runs for itself, and the texts that reach it.
-/
namespace ActorScript

variable {β : Type}

namespace Run

/-- One tick of a run that is left to itself: it acts if the tick is one of its own, what it posts
is taken away, and then texts come in. -/
def pass [Body β] (cycle number : Nat) (texts : List String) (r : Run β) : Run β :=
  let acted := if cycle ∣ number then r.tick else r
  acted.onContext fun c => texts.foldl (fun c text => c.send text) c.emptyOutbox

end Run

namespace Actor

theorem foldl_send (texts : List String) (a : Actor β) :
    texts.foldl (fun a text => a.send text) a =
      { a with run := a.run.onContext fun c => texts.foldl (fun c text => c.send text) c } := by
  induction texts generalizing a with
  | nil => rfl
  | cons text texts ih =>
    rw [List.foldl_cons, ih]
    rfl

variable [Body β]

theorem foldl_send_tick (number : Nat) (texts : List String) (a : Actor β) :
    texts.foldl (fun a text => a.send text) (a.tick number).emptyOutbox =
      { a with run := a.run.pass a.cycle number texts } := by
  rw [foldl_send, Run.pass]
  by_cases due : a.cycle ∣ number
  · rw [tick_of_dvd due, if_pos due]
    rfl
  · rw [tick_of_not_dvd due, if_neg due]
    rfl

@[simp] theorem name_tick (number : Nat) (a : Actor β) : (a.tick number).name = a.name := by
  unfold tick
  split <;> rfl

end Actor

namespace Stage

def join (name : String) (script : Script) (generator : Generator) (body : β) (cycle : Nat)
    (s : Stage β) : Stage β :=
  { s with actors := s.actors ++ [⟨name, ⟨.start script generator, body⟩, max 1 cycle⟩] }

theorem deliverAll_eq_mapIdx (mail : List (Nat × Message)) (actors : List (Actor β)) :
    deliverAll mail actors = actors.mapIdx fun place a =>
      (textsFor place a.name mail).foldl (fun a text => a.send text) a := by
  induction mail generalizing actors with
  | nil =>
    refine List.ext_getElem? fun place => ?_
    rw [List.getElem?_mapIdx]
    exact Option.map_id'.symm
  | cons m mail ih =>
    rw [deliverAll, List.foldl_cons]
    refine (ih _).trans ?_
    rw [deliver, List.mapIdx_mapIdx]
    refine congrArg (fun f => actors.mapIdx f) (funext fun place => funext fun a => ?_)
    rw [Function.comp_apply, textsFor_cons, List.foldl_append]
    by_cases meant : m.2.IsFor m.1 place a.name
    · rw [if_pos (isAddressed_iff.2 meant), if_pos meant]
      rfl
    · rw [if_neg (mt isAddressed_iff.1 meant), if_neg meant]
      rfl

variable [Body β]

/-- The texts that a tick brings to the actor at a place and of a name. -/
def brought (s : Stage β) (place : Nat) (name : String) : List String :=
  incoming (s.actors.map (·.tick s.ticks)) place name

/-- In a tick each actor does what it would do by itself, and then hears what was posted for it. -/
theorem actors_tick_eq_pass (s : Stage β) :
    s.tick.actors = s.actors.mapIdx fun place a =>
      { a with run := a.run.pass a.cycle s.ticks (s.brought place a.name) } := by
  show deliverAll (mail (s.actors.map (·.tick s.ticks)))
    ((s.actors.map (·.tick s.ticks)).map Actor.emptyOutbox) = _
  refine List.ext_getElem? fun place => ?_
  rw [deliverAll_eq_mapIdx, List.getElem?_mapIdx, List.getElem?_mapIdx, List.getElem?_map,
    List.getElem?_map, Option.map_map, Option.map_map]
  refine congrArg (fun f => s.actors[place]?.map f) (funext fun a => ?_)
  have same_name : (a.tick s.ticks).emptyOutbox.name = a.name := a.name_tick s.ticks
  simp only [Function.comp_apply]
  rw [same_name, textsFor_mail, Actor.foldl_send_tick]
  rfl

inductive Deed (β : Type) where
  | spawn (name scriptName text : String) (body : β) (cycle : Nat)
  | join (name scriptName text : String) (generator : Generator) (body : β) (cycle : Nat)
  | send (recipient text : String)
  | tick

namespace Deed

def newcomer? : Deed β → Option β
  | .spawn _ _ _ body _ | .join _ _ _ _ body _ => some body
  | .send .. | .tick => none

def IsQuiet (deed : Deed β) : Prop := deed.newcomer? = none

end Deed

def perform (s : Stage β) : Deed β → Stage β
  | .spawn name scriptName text body cycle => s.spawn name (.ofText scriptName text) body cycle
  | .join name scriptName text generator body cycle =>
    s.join name (.ofText scriptName text) generator body cycle
  | .send recipient text => s.send recipient text
  | .tick => s.tick

def course (s : Stage β) (deeds : List (Deed β)) : Stage β := deeds.foldl perform s

/-- Every stage that can be reached is reached from an empty one. -/
theorem reachable_iff {s : Stage β} :
    Reachable s ↔ ∃ seed deeds, (Stage.empty seed).course deeds = s := by
  constructor
  · intro reached
    have one_more {s t : Stage β} (deed : Deed β) (performed : s.perform deed = t)
        (before : ∃ seed deeds, (Stage.empty seed).course deeds = s) :
        ∃ seed deeds, (Stage.empty seed).course deeds = t := by
      obtain ⟨seed, deeds, rfl⟩ := before
      refine ⟨seed, deeds ++ [deed], ?_⟩
      rw [course, List.foldl_append]
      exact performed
    induction reached with
    | empty seed => exact ⟨seed, [], rfl⟩
    | spawn _ name scriptName text body cycle ih =>
      exact one_more (.spawn name scriptName text body cycle) rfl ih
    | join _ name scriptName text generator body cycle ih =>
      exact one_more (.join name scriptName text generator body cycle) rfl ih
    | send _ recipient text ih => exact one_more (.send recipient text) rfl ih
    | tick _ ih => exact one_more .tick rfl ih
  · rintro ⟨seed, deeds, rfl⟩
    have begun : Reachable (β := β) (.empty seed) := .empty seed
    generalize Stage.empty seed = s at begun
    induction deeds generalizing s with
    | nil => exact begun
    | cons deed deeds ih =>
      refine ih (s.perform deed) ?_
      cases deed with
      | spawn name scriptName text body cycle => exact begun.spawn name scriptName text body cycle
      | join name scriptName text generator body cycle =>
        exact begun.join name scriptName text generator body cycle
      | send recipient text => exact begun.send recipient text
      | tick => exact begun.tick

end Stage
end ActorScript
