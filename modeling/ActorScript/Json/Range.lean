import ActorScript.Text.Digits

/-!
The range of numbers. A number has to stay in the range of a double when it is reckoned from its
digits in three steps: the digits are kept as far as they make a whole number of 64 bits, that
number and the power of ten that belongs to it are each rounded to 53 bits, and the two are
multiplied. Near the end of the range this differs from the exact value both ways.
-/
namespace ActorScript.Json

/-- A number `significand * 10 ^ exponent`. -/
structure Scaled where
  significand : Nat
  exponent : Int
  deriving DecidableEq, Repr

/-- Appends digits to a significand up to the first with which it would not fit into 64 bits; also
the digits from that one on. -/
def appendDigits (significand : Nat) : List Char → Nat × List Char
  | [] => (significand, [])
  | c :: cs =>
    let longer := 10 * significand + (c.toNat - '0'.toNat)
    if longer < Nat.pow 2 64 then appendDigits longer cs else (significand, c :: cs)

/-- The number that is kept of one with the given digits before and behind its point. A digit left
out before the point counts as a power of ten, and one left out behind it not at all. -/
def Scaled.ofDigits (whole fraction : List Char) (exponent : Int) : Scaled :=
  let (significand, dropped) := appendDigits 0 whole
  let (significand, ignored) := appendDigits significand fraction
  ⟨significand, exponent + dropped.length - (fraction.length - ignored.length)⟩

/-- The nearest number that 53 bits and zeros behind them can write; of two that are as near, the
one whose 53 bits are even. -/
def roundBits (n : Nat) : Nat :=
  let unit := Nat.pow 2 (n.log2 - 52)
  let rest := n % unit
  let up := unit < 2 * rest ∨ unit = 2 * rest ∧ n / unit % 2 = 1
  (if up then n / unit + 1 else n / unit) * unit

/-- The largest double and half a step beyond it: from here on a number rounds past all doubles. -/
def beyondDoubles : Nat := Nat.pow 2 1024 - Nat.pow 2 970

def maxExponent : Int := 308

/-- The number leaves the range of a double. Zero never does, and neither does a number that is
divided by a power of ten. -/
def Scaled.overflows (x : Scaled) : Bool :=
  if x.significand = 0 ∨ x.exponent < 0 then false
  else if maxExponent < x.exponent then true
  else beyondDoubles ≤ roundBits x.significand * roundBits (Nat.pow 10 x.exponent.toNat)

end ActorScript.Json
