import ActorScript.Proofs.Context.Touch
import ActorScript.Proofs.Context.Zapping

/-!
A run goes from state to state: one command after the other, the messages that ticks begin with, and
what the host does in between. What the host tells the body about its surroundings is bounded by a
relation, so that what the script alone can do to the body is shown to hold of whole runs.
-/
namespace ActorScript

open Relation

namespace Run

variable {β : Type} [Body β]

/-- One state of a run and the next. The host may leave a body in place of another if they are
related by `told`. -/
inductive Passage (told : β → β → Prop) : Run β → Run β → Prop where
  | message (r : Run β) : Passage told r (r.onContext takeMessage)
  | command {r s : Run β} {event : Event} (ran : r.next? = some (event, s)) : Passage told r s
  | host {c d : Context} (b : β) (handled : Context.Handled c d) : Passage told ⟨c, b⟩ ⟨d, b⟩
  | call (c : Context) (b : β) (call : LabelCall) : Passage told ⟨c, b⟩ ⟨call.perform c, b⟩
  | told (c : Context) {b b' : β} (tells : told b b') : Passage told ⟨c, b⟩ ⟨c, b'⟩

variable {told : β → β → Prop} {begun r s : Run β} {event : Event}

theorem passes_tick (r : Run β) : ReflTransGen (Passage told) r r.tick := by
  apply commands_induction (motive := fun s => ReflTransGen (Passage told) r s)
  · intro s t event passed ran
    exact passed.tail (.command ran)
  · exact .single (.message r)

/-- What each touch of a command and each telling keep of the body, a run keeps. -/
theorem body_of_passes {motive : β → Prop}
    (touched : ∀ {command b b'}, motive b → Touches command b b' → motive b')
    (heard : ∀ {b b'}, motive b → told b b' → motive b')
    (passed : ReflTransGen (Passage told) begun r) (holds : motive begun.body) :
    motive r.body := by
  induction passed with
  | refl => exact holds
  | tail _ passage ih =>
    cases passage with
    | message => exact ih
    | command ran =>
      obtain ⟨command, touches⟩ := touches_next ran
      exact touched ih touches
    | host b handled => exact ih
    | call c b call => exact ih
    | told c tells => exact heard ih tells

theorem coherent_of_passes (h : begun.context.Coherent)
    (passed : ReflTransGen (Passage told) begun r) :
    r.context.Coherent ∧ r.context.script = begun.context.script := by
  induction passed with
  | refl => exact ⟨h, rfl⟩
  | tail _ passage ih =>
    obtain ⟨coherent, same⟩ := ih
    have kept {c d : Context} (next : d.Coherent ∧ d.script = c.script)
        (before : c.script = begun.context.script) :
        d.Coherent ∧ d.script = begun.context.script :=
      ⟨next.1, next.2.trans before⟩
    cases passage with
    | message => exact kept (coherent_takeMessage coherent) same
    | command ran => exact kept (coherent_next coherent ran) same
    | host b handled => exact kept (Context.step_coherent coherent handled.step) same
    | call c b call =>
      exact kept (Context.step_coherent coherent (Context.step_perform call c)) same
    | told c tells => exact ⟨coherent, same⟩

end Run
end ActorScript
