import ActorScript.Proofs.Context.Hearing
import ActorScript.Proofs.Context.Stopping
import ActorScript.Stage

/-!
A tick of a stage has two parts. First the actors whose turn it is run, each from its own state and
the messages that waited before the tick; then what they posted is brought to those it is meant for,
and nothing else of any actor is touched.
-/
namespace ActorScript

/-- The message of a sender, known by its place among the actors, is meant for the actor at a place
and of a name. -/
def Message.IsFor (m : Message) (sender place : Nat) (name : String) : Prop :=
  m.recipient = "all" ∨ m.recipient = "others" ∧ place ≠ sender ∨
    m.recipient ≠ "all" ∧ m.recipient ≠ "others" ∧ sameWord name m.recipient = true

instance (m : Message) (sender place : Nat) (name : String) :
    Decidable (m.IsFor sender place name) :=
  inferInstanceAs (Decidable (_ ∨ _ ∧ _ ∨ _ ∧ _ ∧ _))

theorem Stage.isAddressed_iff {m : Message} {sender place : Nat} {name : String} :
    isAddressed m.recipient (some sender) place name = true ↔ m.IsFor sender place name := by
  unfold isAddressed Message.IsFor
  by_cases all : m.recipient = "all"
  · simp [all]
  · by_cases others : m.recipient = "others"
    · rw [if_neg all, if_pos others]
      simp [others, ne_comm]
    · simp [all, others]

variable {β : Type}

namespace Actor

variable {a : Actor β}

def inbox (a : Actor β) : List String := a.run.context.inbox

/-- No message reaches the actor. -/
def IsClosed (a : Actor β) : Prop :=
  a.run.context.locked = true ∨ a.run.context.state = .stopped

instance (a : Actor β) : Decidable a.IsClosed := inferInstanceAs (Decidable (_ ∨ _))

def withInbox (inbox : List String) (a : Actor β) : Actor β :=
  { a with run := a.run.onContext fun c => { c with inbox, outbox := [] } }

theorem send_withInbox (message : String) (inbox : List String) (a : Actor β) :
    (a.withInbox inbox).send message =
      a.withInbox (if a.IsClosed then inbox else inbox ++ [lowerCase message]) := by
  have closed : (a.run.context.locked || a.run.context.index.isNone) = true ↔ a.IsClosed := by
    rw [Bool.or_eq_true, Option.isNone_iff_eq_none, ← Context.state_eq_stopped]
    exact Iff.rfl
  unfold send withInbox Run.onContext Context.send
  by_cases shut : a.IsClosed
  · simp only [closed.2 shut, if_pos shut, if_true]
  · simp only [closed, if_neg shut]

end Actor

namespace Stage

open Actor

def textsFor (place : Nat) (name : String) (mail : List (Nat × Message)) : List String :=
  (mail.filter fun m => m.2.IsFor m.1 place name).map (·.2.text)

theorem textsFor_cons (place : Nat) (name : String) (m : Nat × Message)
    (mail : List (Nat × Message)) :
    textsFor place name (m :: mail) =
      (if m.2.IsFor m.1 place name then [m.2.text] else []) ++ textsFor place name mail := by
  unfold textsFor
  rw [List.filter_cons]
  split <;> simp_all

theorem deliver_withInbox (sender : Nat) (m : Message) (inbox : Nat → Actor β → List String)
    (actors : List (Actor β)) :
    deliver (some sender) m (actors.mapIdx fun place a => a.withInbox (inbox place a)) =
      actors.mapIdx fun place a => a.withInbox
        (if a.IsClosed then inbox place a
          else inbox place a ++ (textsFor place a.name [(sender, m)]).map lowerCase) := by
  rw [deliver, List.mapIdx_mapIdx]
  refine congrArg (fun f => actors.mapIdx f) (funext fun place => funext fun a => ?_)
  have same_name : (a.withInbox (inbox place a)).name = a.name := rfl
  rw [Function.comp_apply, same_name, textsFor_cons]
  by_cases meant : m.IsFor sender place a.name
  · rw [if_pos (isAddressed_iff.2 meant), if_pos meant, send_withInbox]
    rfl
  · rw [if_neg (mt isAddressed_iff.1 meant), if_neg meant]
    simp [textsFor]

/-- Every actor that is not closed hears what of the mail is meant for it, in the order of the
mail. -/
theorem deliverAll_withInbox (mail : List (Nat × Message)) (inbox : Nat → Actor β → List String)
    (actors : List (Actor β)) :
    deliverAll mail (actors.mapIdx fun place a => a.withInbox (inbox place a)) =
      actors.mapIdx fun place a => a.withInbox
        (if a.IsClosed then inbox place a
          else inbox place a ++ (textsFor place a.name mail).map lowerCase) := by
  induction mail generalizing inbox with
  | nil => simp [deliverAll, textsFor]
  | cons m mail ih =>
    rw [deliverAll, List.foldl_cons, deliver_withInbox]
    refine (ih _).trans ?_
    refine congrArg (fun f => actors.mapIdx f) (funext fun place => funext fun a => ?_)
    rw [textsFor_cons place a.name m mail]
    by_cases shut : a.IsClosed
    · simp only [if_pos shut]
    · simp only [if_neg shut, textsFor_cons, List.map_append, List.append_assoc]
      rfl

/-- What comes in for the actor at a place and of a name: in the order of the senders and of their
posts, the texts of the messages that are meant for it. -/
def incoming (actors : List (Actor β)) (place : Nat) (name : String) : List String :=
  (actors.mapIdx fun sender a =>
    (a.outbox.filter fun m => m.IsFor sender place name).map (·.text)).flatten

theorem textsFor_mail (actors : List (Actor β)) (place : Nat) (name : String) :
    textsFor place name (mail actors) = incoming actors place name := by
  rw [textsFor, mail, List.filter_flatten, List.map_flatten, incoming]
  refine congrArg List.flatten (List.ext_getElem? fun sender => ?_)
  simp only [List.getElem?_map, List.getElem?_mapIdx, Option.map_map]
  refine congrArg (fun f => actors[sender]?.map f) (funext fun a => ?_)
  simp only [Function.comp_apply, List.filter_map, List.map_map]
  rfl

end Stage

/-- An actor between two ticks: all that it posted was collected. -/
structure Actor.Settled (a : Actor β) : Prop where
  coherent : a.run.context.Coherent
  outbox_empty : a.outbox = []

namespace Actor

variable {a : Actor β}

theorem Settled.send (h : a.Settled) (message : String) : (a.send message).Settled where
  coherent := h.coherent.send message
  outbox_empty := by
    rw [← h.outbox_empty]
    show (a.run.context.send message).outbox = a.run.context.outbox
    unfold Context.send
    split <;> rfl

theorem settled_emptyOutbox (h : a.run.context.Coherent) : a.emptyOutbox.Settled :=
  ⟨h.emptyOutbox, rfl⟩

theorem inbox_of_isClosed (h : a.run.context.Coherent) (closed : a.IsClosed) : a.inbox = [] := by
  rcases closed with locked | stopped
  · exact h.locked_empty locked
  · exact h.stopped_empty (Context.state_eq_stopped.1 stopped)

variable [Body β] {number : Nat}

theorem coherent_tick (h : a.run.context.Coherent) (number : Nat) :
    (a.tick number).run.context.Coherent := by
  unfold tick
  split
  · exact (Run.coherent_tick h).1
  · exact h

theorem tick_of_dvd (due : a.cycle ∣ number) : a.tick number = { a with run := a.run.tick } :=
  if_pos (Nat.mod_eq_zero_of_dvd due)

theorem tick_of_not_dvd (idle : ¬a.cycle ∣ number) : a.tick number = a :=
  if_neg (mt Nat.dvd_of_mod_eq_zero idle)

theorem Settled.posts (h : a.Settled) (number : Nat) :
    ∀ m ∈ (a.tick number).outbox, m.InSmallLetters := by
  intro m mem
  by_cases due : a.cycle ∣ number
  · rw [tick_of_dvd due] at mem
    obtain ⟨-, posted, outbox, small⟩ := Run.speaks_tick h.coherent
    refine small m ?_
    rw [show a.run.context.outbox = [] from h.outbox_empty, List.nil_append] at outbox
    rw [← outbox]
    exact mem
  · rw [tick_of_not_dvd due, h.outbox_empty] at mem
    exact absurd mem List.not_mem_nil

end Actor

namespace Stage

theorem settled_start (name scriptName text : String) (generator : Generator) (body : β)
    (cycle : Nat) :
    Actor.Settled ⟨name, ⟨.start (.ofText scriptName text) generator, body⟩, cycle⟩ :=
  ⟨Context.coherent_start (Script.labelsWithin_ofText scriptName text) generator, rfl⟩

theorem settled_deliver {actors : List (Actor β)} (settled : ∀ a ∈ actors, a.Settled)
    (sender : Option Nat) (m : Message) : ∀ a ∈ deliver sender m actors, a.Settled := by
  intro a mem
  obtain ⟨place, bound, rfl⟩ := List.mem_mapIdx.1 mem
  have before := settled _ (List.getElem_mem bound)
  split
  · exact before.send m.text
  · exact before

theorem settled_deliverAll (mail : List (Nat × Message)) {actors : List (Actor β)}
    (settled : ∀ a ∈ actors, a.Settled) : ∀ a ∈ deliverAll mail actors, a.Settled := by
  induction mail generalizing actors with
  | nil => exact settled
  | cons m mail ih => exact ih (settled_deliver settled (some m.1) m.2)

variable [Body β] {s : Stage β}

/-- The stages that actors, messages from outside and ticks lead to. An actor joins with a
generator seeded by the stage or with one of its own. -/
inductive Reachable : Stage β → Prop where
  | empty (seed : UInt64) : Reachable (.empty seed)
  | spawn {s : Stage β} (before : Reachable s) (name scriptName text : String) (body : β)
      (cycle : Nat) : Reachable (s.spawn name (.ofText scriptName text) body cycle)
  | join {s : Stage β} (before : Reachable s) (name scriptName text : String)
      (generator : Generator) (body : β) (cycle : Nat) :
      Reachable { s with
        actors := s.actors ++
          [⟨name, ⟨.start (.ofText scriptName text) generator, body⟩, max 1 cycle⟩] }
  | send {s : Stage β} (before : Reachable s) (recipient text : String) :
      Reachable (s.send recipient text)
  | tick {s : Stage β} (before : Reachable s) : Reachable s.tick

theorem settled_tick (settled : ∀ a ∈ s.actors, a.Settled) : ∀ a ∈ s.tick.actors, a.Settled := by
  refine settled_deliverAll _ fun a mem => ?_
  obtain ⟨acted, among, rfl⟩ := List.mem_map.1 mem
  obtain ⟨before, at_first, rfl⟩ := List.mem_map.1 among
  exact Actor.settled_emptyOutbox (Actor.coherent_tick (settled before at_first).coherent s.ticks)

theorem Reachable.settled (h : Reachable s) : ∀ a ∈ s.actors, a.Settled := by
  induction h with
  | empty seed => exact fun a mem => absurd mem List.not_mem_nil
  | spawn _ name scriptName text body cycle ih
  | join _ name scriptName text generator body cycle ih =>
    intro a mem
    rcases List.mem_append.1 mem with before | new
    · exact ih a before
    · rw [List.mem_singleton.1 new]
      exact settled_start ..
  | send _ recipient text ih => exact settled_deliver ih none ⟨recipient, text⟩
  | tick _ ih => exact settled_tick ih

theorem actors_tick (settled : ∀ a ∈ s.actors, a.Settled) :
    let acted := s.actors.map (·.tick s.ticks)
    s.tick.actors = acted.mapIdx fun place a => a.withInbox
      (if a.IsClosed then [] else a.inbox ++ incoming acted place a.name) := by
  intro acted
  have emptied : acted.map Actor.emptyOutbox = acted.mapIdx fun _ a => a.withInbox a.inbox := by
    refine List.ext_getElem? fun place => ?_
    rw [List.getElem?_map, List.getElem?_mapIdx]
    rfl
  have small : ∀ place name, (incoming acted place name).map lowerCase =
      incoming acted place name := by
    intro place name
    refine (List.map_congr_left fun text mem => ?_).trans (List.map_id _)
    obtain ⟨texts, among, mem⟩ := List.mem_flatten.1 mem
    obtain ⟨sender, bound, rfl⟩ := List.mem_mapIdx.1 among
    obtain ⟨m, posted, rfl⟩ := List.mem_map.1 mem
    obtain ⟨before, mem, at_sender⟩ := List.mem_map.1 (List.getElem_mem bound)
    rw [← at_sender] at posted
    exact ((settled before mem).posts s.ticks m (List.mem_filter.1 posted).1).text
  show deliverAll (mail acted) (acted.map Actor.emptyOutbox) = _
  rw [emptied, deliverAll_withInbox]
  refine List.mapIdx_eq_mapIdx_iff.2 fun place bound => ?_
  obtain ⟨before, mem, at_place⟩ := List.mem_map.1 (List.getElem_mem bound)
  have coherent : acted[place].run.context.Coherent := by
    rw [← at_place]
    exact Actor.coherent_tick (settled before mem).coherent s.ticks
  rw [textsFor_mail, small]
  by_cases closed : acted[place].IsClosed
  · rw [if_pos closed, if_pos closed, Actor.inbox_of_isClosed coherent closed]
  · rw [if_neg closed, if_neg closed]

/-- In a tick an actor runs if the tick is one of its own. It hears the oldest message that waited
before, and no other. All that the actors post arrives when every one of them has run: each
message once with each actor it is meant for, behind what waits there, unless the actor is locked
or has stopped; and that is all that arrival changes. -/
theorem tick_delivers_what_was_posted (h : Reachable s) :
    (∀ a ∈ s.actors, a.outbox = [] ∧
      (¬a.cycle ∣ s.ticks → a.tick s.ticks = a) ∧
      (a.cycle ∣ s.ticks → a.tick s.ticks = { a with run := a.run.tick } ∧
        ((a.tick s.ticks).inbox = a.inbox.tail ∨ (a.tick s.ticks).inbox = []) ∧
        ∀ other : Run β, other.deaf = a.run.deaf →
          other.context.inbox.head? = a.inbox.head? → other.tick.deaf = a.run.tick.deaf)) ∧
    s.tick.ticks = s.ticks + 1 ∧
    (∀ a ∈ s.tick.actors, a.outbox = []) ∧
    let acted := s.actors.map (·.tick s.ticks)
    s.tick.actors = acted.mapIdx fun place a =>
      { a with
        run := a.run.onContext fun c =>
          { c with
            inbox := if a.IsClosed then [] else a.inbox ++ incoming acted place a.name
            outbox := [] } } := by
  have settled := h.settled
  refine ⟨fun a mem => ⟨(settled a mem).outbox_empty, Actor.tick_of_not_dvd, fun due => ?_⟩, rfl,
    fun a mem => (settled_tick settled a mem).outbox_empty, actors_tick settled⟩
  rw [Actor.tick_of_dvd due]
  obtain ⟨inbox, -⟩ := Run.speaks_tick (settled a mem).coherent
  exact ⟨rfl, inbox, fun other same oldest => Run.tick_hears_oldest same oldest⟩

/-- What the bell posts in the first tick waits with the dog for the second. -/
theorem dog_hears_bell :
    let s : Stage Recorder :=
      ((Stage.empty 42).spawn "bell" (.ofText "bell" "send others ring") (.named "bell") 1).spawn
        "dog" (.ofText "dog" ":ring\nsay \"woof\"") (.named "dog") 1
    Reachable s ∧ (∀ a ∈ s.tick.actors, a.outbox = []) ∧
      s.tick.actors.map Actor.inbox = [[], ["ring"]] := by
  intro s
  have reachable : Reachable s := .spawn (.spawn (.empty 42) "bell" "bell" _ _ 1) "dog" "dog" _ _ 1
  obtain ⟨-, -, emptied, -⟩ := tick_delivers_what_was_posted reachable
  exact ⟨reachable, emptied, by decide +kernel⟩

end Stage
end ActorScript
