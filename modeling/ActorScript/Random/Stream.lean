/-!
The stream of random words that a seed stands for: a stream cipher's key stream, whose key is spread
from the seed. Word `n` of the stream belongs to block `n / 16`; each block comes from the key and
the number of the block alone, so the stream is a function of the position in it.
-/
namespace ActorScript.Random

/-- Four words, on which the rounds of the cipher work side by side. -/
structure Row where
  w0 : UInt32
  w1 : UInt32
  w2 : UInt32
  w3 : UInt32
  deriving DecidableEq, Repr

namespace Row

def map (f : UInt32 → UInt32) (a : Row) : Row := ⟨f a.w0, f a.w1, f a.w2, f a.w3⟩

def zip (f : UInt32 → UInt32 → UInt32) (a b : Row) : Row :=
  ⟨f a.w0 b.w0, f a.w1 b.w1, f a.w2 b.w2, f a.w3 b.w3⟩

def rotate (a : Row) : Row := ⟨a.w1, a.w2, a.w3, a.w0⟩

def toList (a : Row) : List UInt32 := [a.w0, a.w1, a.w2, a.w3]

end Row

def rotateLeft (x n : UInt32) : UInt32 := (x <<< n) ||| (x >>> (32 - n))

structure Square where
  a : Row
  b : Row
  c : Row
  d : Row
  deriving DecidableEq, Repr

namespace Square

def columns (s : Square) : Square :=
  let a := s.a.zip (· + ·) s.b
  let d := (s.d.zip (· ^^^ ·) a).map (rotateLeft · 16)
  let c := s.c.zip (· + ·) d
  let b := (s.b.zip (· ^^^ ·) c).map (rotateLeft · 12)
  let a := a.zip (· + ·) b
  let d := (d.zip (· ^^^ ·) a).map (rotateLeft · 8)
  let c := c.zip (· + ·) d
  let b := (b.zip (· ^^^ ·) c).map (rotateLeft · 7)
  ⟨a, b, c, d⟩

def slant (s : Square) : Square := ⟨s.a, s.b.rotate, s.c.rotate.rotate, s.d.rotate.rotate.rotate⟩

def unslant (s : Square) : Square := ⟨s.a, s.b.rotate.rotate.rotate, s.c.rotate.rotate, s.d.rotate⟩

def doubleRound (s : Square) : Square := s.columns.slant.columns.unslant

def add (s t : Square) : Square :=
  ⟨s.a.zip (· + ·) t.a, s.b.zip (· + ·) t.b, s.c.zip (· + ·) t.c, s.d.zip (· + ·) t.d⟩

def toList (s : Square) : List UInt32 := s.a.toList ++ s.b.toList ++ s.c.toList ++ s.d.toList

end Square

def constants : Row := ⟨0x61707865, 0x3320646e, 0x79622d32, 0x6b206574⟩

/-- The block of a number: twelve rounds on constants, key and number, added to what they began
with. -/
def block (key : Row × Row) (number : UInt64) : Square :=
  let initial : Square :=
    ⟨constants, key.1, key.2, ⟨number.toUInt32, (number >>> 32).toUInt32, 0, 0⟩⟩
  (Nat.repeat Square.doubleRound 6 initial).add initial

/-- The next state from which words of a key are drawn. -/
def spread (state : UInt64) : UInt64 := state * 6364136223846793005 + 11634580027462260723

def keyWord (state : UInt64) : UInt32 :=
  let mixed := (((state >>> 18) ^^^ state) >>> 27).toUInt32
  let turn := (state >>> 59).toUInt32
  (mixed >>> turn) ||| (mixed <<< ((32 - turn) % 32))

def keyOf (seed : UInt64) : Row × Row :=
  let word (n : Nat) : UInt32 := keyWord (Nat.repeat spread (n + 1) seed)
  (⟨word 0, word 1, word 2, word 3⟩, ⟨word 4, word 5, word 6, word 7⟩)

/-- Word `n` of the stream of a key. -/
def keyStream (key : Row × Row) (n : Nat) : UInt32 :=
  (block key (UInt64.ofNat (n / 16))).toList.getD (n % 16) 0

end ActorScript.Random
