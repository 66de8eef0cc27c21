import ActorScript.Random.Stream

/-!
A generator hands out the words of a stream one after the other. Its whole state is how many words
have been drawn, so that to draw nothing is to leave the generator as it was.
-/
namespace ActorScript

structure Generator where
  stream : Nat → UInt32
  drawn : Nat

namespace Generator

def seeded (seed : UInt64) : Generator :=
  let key := Random.keyOf seed
  ⟨Random.keyStream key, 0⟩

/-- A generator that hands out the given words over and over. -/
def cycling (words : List UInt32) : Generator := ⟨fun n => words.getD (n % words.length) 0, 0⟩

end Generator

/-- What chance may have a hand in. -/
abbrev Chance := StateM Generator

namespace Chance

def word : Chance UInt32 := fun g => (g.stream g.drawn, { g with drawn := g.drawn + 1 })

/-- An index below `n`, for `n` above zero. The high half of a product of `n` and a random word
picks the index; where the low half leaves it open whether a longer fraction would reach the next
index, a second word settles it. -/
def index (n : Nat) : Chance Nat := do
  let product := (← word).toNat * n
  let high := product / Nat.pow 2 32
  let low := product % Nat.pow 2 32
  if low > Nat.pow 2 32 - n then
    let further := (← word).toNat * n / Nat.pow 2 32
    return if low + further ≥ Nat.pow 2 32 then high + 1 else high
  else return high

def choose {α : Type} (items : List α) : Chance (Option α) :=
  match items with
  | [] => pure none
  | _ :: _ => do return items[← index items.length]?

/-- True or false with equal chances: two words make one number, the first of them its low half, and
it is true below the middle of its range. -/
def coin : Chance Bool := do
  let low ← word
  let high ← word
  return low.toNat + high.toNat * Nat.pow 2 32 < Nat.pow 2 63

end Chance
end ActorScript
