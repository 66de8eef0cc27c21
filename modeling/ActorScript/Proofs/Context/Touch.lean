import ActorScript.Proofs.Context.Effect
import ActorScript.Recorder

/-!
What one command can do to the body that it runs for, said once for all commands: at most one act,
and those that matter to somebody else's account only by the command that is named for them.
-/
namespace ActorScript

namespace Run

variable {β : Type} [Body β]

/-- What a command leaves of the body that it runs for. -/
inductive Touches (command : Command) (b : β) : β → Prop where
  | nothing : Touches command b b
  | step (d : Direction) : Touches command b (Body.step d b).2
  | put (d : Direction) (tile : Tile) : Touches command b (Body.put d tile b).2
  | say (text : String) : Touches command b (Body.say text b)
  | scroll (lines : List String) : Touches command b (Body.scroll lines b)
  | shoot (d : Direction) : Touches command b (Body.shoot d b)
  | throwStar (d : Direction) : Touches command b (Body.throwStar d b)
  | setWalk (direction : Option Direction) : Touches command b (Body.setWalk direction b)
  | setChar (code : Numeral) : Touches command b (Body.setChar code b)
  | setTorch (radius : Numeral) : Touches command b (Body.setTorch radius b)
  | play (tune : String) (exclusive : Bool) : Touches command b (Body.play tune exclusive b)
  | remove (named : command = .die) : Touches command b (Body.remove b)
  | replace (tile : Tile) (named : command = .become tile) : Touches command b (Body.replace tile b)
  | change (source target : Tile) (named : command = .change source target) :
      Touches command b (Body.change source target b)
  | set (counter : String) (value : Numeral) (named : command = .set counter value) :
      Touches command b (Body.setCounter counter value.toInt64 b)
  | give (counter : String) (amount : Numeral) (named : command = .give counter amount) :
      Touches command b (Body.adjustCounter counter amount.toInt64 b)
  | take (counter : String) (amount : Numeral) (otherwise : Option String)
      (named : command = .take counter amount otherwise)
      (covered : amount.toInt64 ≤ Body.counter b counter) :
      Touches command b (Body.adjustCounter counter (-amount.toInt64) b)

variable {command : Command} {b : β}

theorem Touches.of_same {b' : β} (same : b' = b) : Touches command b b' := by
  rw [same]
  exact .nothing

theorem touches_step (direction : Option Direction) (r : Run β) :
    Touches command r.body (r.step direction).2.body := by
  rcases body_step direction r with same | ⟨d, done⟩
  · exact .of_same same
  · rw [done]
    exact .step d

theorem touches_act (heading : Heading) {f : Direction → β → β} (r : Run β)
    (touches : ∀ d, Touches command r.body (f d r.body)) :
    Touches command r.body (r.act heading f).body := by
  rcases body_act heading f r with same | ⟨d, done⟩
  · exact .of_same same
  · rw [done]
    exact touches d

/-- Every command does at most one act, and counters, tiles and departures are each touched only by
the commands that are named for it. -/
theorem touches_execute (key : Nat) (command : Command) (r : Run β) :
    Touches command r.body (r.execute key command).2.body := by
  cases command with
  | move heading count forceful =>
    rcases body_move key heading count forceful r with same | ⟨d, done⟩
    · exact .of_same same
    · unfold execute
      rw [done]
      exact .step d
  | attempt heading otherwise =>
    have stepped : Touches (.attempt heading otherwise) r.body
        ((r.resolve heading).2.step (r.resolve heading).1).2.body :=
      touches_step (r.resolve heading).1 (r.resolve heading).2
    simp only [execute]
    split
    · exact stepped
    · rw [body_jumpOr]
      exact stepped
  | wait ticks =>
    apply Touches.of_same
    simp only [execute, wait]
    split <;> rfl
  | say text => exact .say text
  | scroll lines => exact .scroll lines
  | finish => exact .nothing
  | die => exact .remove rfl
  | jumpIf condition label =>
    apply Touches.of_same
    simp only [execute]
    split
    · rw [body_jumpOr]
    · rfl
  | put heading tile => exact touches_act heading r fun d => .put d tile
  | send recipient message =>
    apply Touches.of_same
    cases recipient with
    | none => exact body_jumpOr ..
    | some name =>
      simp only [execute]
      split
      · rw [body_jumpOr]
      · rfl
  | set counter value => exact .set counter value rfl
  | give counter amount => exact .give counter amount rfl
  | take counter amount otherwise =>
    simp only [execute]
    split
    · rename_i covered
      exact .take counter amount otherwise rfl covered
    · exact .of_same (body_jumpOr ..)
  | become tile => exact .replace tile rfl
  | change source target => exact .change source target rfl
  | char code => exact .setChar code
  | torch radius => exact .setTorch radius
  | shoot heading => exact touches_act heading r fun d => .shoot d
  | throwStar heading => exact touches_act heading r fun d => .throwStar d
  | walk heading => exact .setWalk (r.resolve heading).1
  | stand => exact .setWalk none
  | lock => exact .nothing
  | unlock => exact .nothing
  | restore label => exact .nothing
  | zap label => exact .nothing
  | play tune exclusive => exact .play tune exclusive

theorem touches_next {r s : Run β} {event : Event} (ran : r.next? = some (event, s)) :
    ∃ command, Touches command r.body s.body := by
  obtain ⟨key, command, -, -, rfl⟩ := next?_eq_some.1 ran
  rw [body_settle]
  exact ⟨command, touches_execute key command r⟩

end Run

namespace Recorder

theorem step_eq (d : Direction) (b : Recorder) : (Body.step d b).2 =
    record (if b.isBlocked d then .bumped d else .moved d) { b with facing := some d } := by
  have blocked : isBlocked { b with facing := some d } d = b.isBlocked d := rfl
  show (if isBlocked { b with facing := some d } d then _ else _ : Bool × Recorder).2 = _
  rw [blocked]
  split <;> rfl

theorem put_eq (d : Direction) (tile : Tile) (b : Recorder) :
    (Body.put d tile b).2 = if b.isBlocked d then b else b.record (.put d tile.render) := by
  show (if b.isBlocked d then _ else _ : Bool × Recorder).2 = _
  split <;> rfl

end Recorder
end ActorScript
