import ActorScript.Proofs.Context.Zapping

/-!
What is stuck on the heap. Only a forceful move puts something there, for itself; everything else
that is done to a context, by its commands or from outside, frees what is stuck or leaves it.
-/
namespace ActorScript

/-- Nothing is stuck in the second heap that is free in the first. -/
def Heap.Loosens (h h' : Heap) : Prop := ∀ key, h.stuck? key = none → h'.stuck? key = none

namespace Heap

theorem Loosens.refl (h : Heap) : h.Loosens h := fun _ free => free

theorem loosens_clear (h : Heap) (key : Nat) : h.Loosens (h.clear key) := by
  intro other free
  rw [stuck?_clear, free, ite_self]

end Heap

namespace Context

variable {c d : Context}

@[simp] theorem heap_zap (label : String) (c : Context) : (c.zap label).heap = c.heap := by
  unfold zap
  dsimp only
  split <;> rfl

@[simp] theorem heap_restore (label : String) (c : Context) :
    (c.restore label).heap = c.heap := by
  unfold restore
  dsimp only
  split <;> rfl

theorem loosens_dropStored (c : Context) : c.heap.Loosens c.dropStored.heap := by
  unfold dropStored
  split
  · exact .refl _
  · exact Heap.loosens_clear _ _

theorem loosens_jump {label : String} (made : c.jump? label = some d) : c.heap.Loosens d.heap := by
  obtain ⟨-, position, -, rfl⟩ := jump?_eq_some.1 made
  exact loosens_dropStored c

theorem loosens_jump_getD (label : String) (c : Context) :
    c.heap.Loosens ((c.jump? label).getD c).heap := by
  cases made : c.jump? label with
  | none => exact .refl _
  | some d => exact loosens_jump made

theorem loosens_settle (key : Nat) (outcome : Outcome) (c : Context) :
    c.heap.Loosens (c.settle key outcome).heap := by
  cases outcome with
  | endTick => exact Heap.loosens_clear _ _
  | proceed => exact Heap.loosens_clear _ _
  | jumped => exact .refl _
  | again => exact .refl _

theorem loosens_takeMessage (c : Context) : c.heap.Loosens (Run.takeMessage c).heap := by
  unfold Run.takeMessage
  split
  · exact .refl _
  · rename_i message inbox waiting
    exact loosens_jump_getD message { c with inbox }

theorem Handled.loosens (handled : Handled c d) : c.heap.Loosens d.heap := by
  cases handled with
  | send message =>
    unfold Context.send
    split <;> exact .refl _
  | jump label => exact loosens_jump_getD label c
  | _ => exact .refl _

theorem loosens_perform (call : LabelCall) (c : Context) :
    c.heap.Loosens (call.perform c).heap := by
  cases call with
  | zap label =>
    show c.heap.Loosens (c.zap label).heap
    rw [heap_zap]
    exact .refl _
  | restore label =>
    show c.heap.Loosens (c.restore label).heap
    rw [heap_restore]
    exact .refl _

end Context

theorem Run.Effect.free {key other : Nat} {command : Command} {c d : Context} {outcome : Outcome}
    (effect : Effect key command c outcome d)
    (plain : other = key → command.isForceful = false)
    (free : c.heap.stuck? other = none) : d.heap.stuck? other = none := by
  cases effect with
  | restore label =>
    rw [Context.heap_restore]
    exact free
  | zap label =>
    rw [Context.heap_zap]
    exact free
  | jump generator label made => exact Context.loosens_jump made other free
  | spent generator =>
    rw [Heap.stuck?_clearStuck, free, ite_self]
  | hold generator heap n declared duration stuck =>
    rw [Heap.stuck?_setCount]
    rcases stuck with rfl | rfl | ⟨forceful, d, rfl⟩
    · exact free
    · rw [Heap.stuck?_clearStuck, free, ite_self]
    · rw [Heap.stuck?_setStuck, if_neg ?_]
      · exact free
      · intro same
        rw [plain same] at forceful
        cases forceful
  | _ => exact free

end ActorScript
