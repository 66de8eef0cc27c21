import ActorScript.Compass
import ActorScript.Entries

/-!
The heap holds how far commands that take several ticks have come. A command is known by its index
in the script, and may have a count of what is left to do and a direction that it is stuck on.
-/
namespace ActorScript

structure Heap where
  counts : List (Nat × Int64)
  stuck : List (Nat × Direction)
  deriving DecidableEq

namespace Heap

def empty : Heap := ⟨[], []⟩

def count? (h : Heap) (key : Nat) : Option Int64 := h.counts.lookup key

/-- The direction that a forceful move keeps pushing in. -/
def stuck? (h : Heap) (key : Nat) : Option Direction := h.stuck.lookup key

def setCount (key : Nat) (n : Int64) (h : Heap) : Heap :=
  { h with counts := (key, n) :: without key h.counts }

def setStuck (key : Nat) (d : Direction) (h : Heap) : Heap :=
  { h with stuck := (key, d) :: without key h.stuck }

def clearStuck (key : Nat) (h : Heap) : Heap := { h with stuck := without key h.stuck }

def clear (key : Nat) (h : Heap) : Heap := ⟨without key h.counts, without key h.stuck⟩

theorem count?_setCount (h : Heap) (key other : Nat) (n : Int64) :
    (h.setCount key n).count? other = if other = key then some n else h.count? other := by
  unfold count? setCount
  split
  · rename_i same
    rw [same, List.lookup_cons_self]
  · rename_i different
    rw [lookup_cons_of_ne different, lookup_without, if_neg different]

theorem stuck?_setStuck (h : Heap) (key other : Nat) (d : Direction) :
    (h.setStuck key d).stuck? other = if other = key then some d else h.stuck? other := by
  unfold stuck? setStuck
  split
  · rename_i same
    rw [same, List.lookup_cons_self]
  · rename_i different
    rw [lookup_cons_of_ne different, lookup_without, if_neg different]

theorem stuck?_clear (h : Heap) (key other : Nat) :
    (h.clear key).stuck? other = if other = key then none else h.stuck? other :=
  lookup_without key other h.stuck

theorem stuck?_clearStuck (h : Heap) (key other : Nat) :
    (h.clearStuck key).stuck? other = if other = key then none else h.stuck? other :=
  lookup_without key other h.stuck

@[simp] theorem stuck?_setCount (h : Heap) (key other : Nat) (n : Int64) :
    (h.setCount key n).stuck? other = h.stuck? other := rfl

def isEmpty (h : Heap) : Bool := h.counts.isEmpty && h.stuck.isEmpty

end Heap
end ActorScript
