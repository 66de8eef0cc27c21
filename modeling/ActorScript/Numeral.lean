import ActorScript.Text.Digits

/-!
A numeral is a number as scripts write it: decimal digits whose value is below `2 ^ 63`, so that it
is also a 64-bit number of counters. Scripts have no way to write a negative number.
-/
namespace ActorScript

structure Numeral where
  val : Nat
  val_lt : val < Nat.pow 2 63
  deriving DecidableEq

namespace Numeral

instance : Inhabited Numeral := ⟨⟨0, by decide⟩⟩

/-- What a count that is left out stands for. -/
def one : Numeral := ⟨1, by decide⟩

/-- The numeral that a run of digits writes, unless it is too large. -/
def ofDigits? (digits : List Char) : Option Numeral :=
  if h : decimalValue digits < Nat.pow 2 63 then some ⟨decimalValue digits, h⟩ else none

def toInt64 (n : Numeral) : Int64 := Int64.ofNat n.val

def render (n : Numeral) : String := toString n.val

@[ext] theorem ext {m n : Numeral} (h : m.val = n.val) : m = n := by
  cases m; cases n; cases h; rfl

theorem toInt_toInt64 (n : Numeral) : n.toInt64.toInt = n.val := by
  have := n.val_lt
  rw [toInt64, Int64.toInt_ofNat_of_lt this]

end Numeral
end ActorScript
