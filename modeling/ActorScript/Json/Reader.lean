import ActorScript.Json
import ActorScript.Json.Range

/-!
Reading JSON text, all of it and nothing besides. Three limits apply: arrays and objects nest at
most 127 deep, a number has to lie in the range of a double, and escaped surrogates have to come in
pairs.
-/
namespace ActorScript.Json

def isSpace (c : Char) : Bool := c == ' ' || c == '\t' || c == '\n' || c == '\r'

def behind? : List Char → List Char → Option (List Char)
  | [], rest => some rest
  | _ :: _, [] => none
  | c :: cs, d :: rest => if c = d then behind? cs rest else none

def hexValue? (c : Char) : Option Nat :=
  if c.isDigit then some (c.toNat - '0'.toNat)
  else if 'a' ≤ c ∧ c ≤ 'f' then some (c.toNat - 'a'.toNat + 10)
  else if 'A' ≤ c ∧ c ≤ 'F' then some (c.toNat - 'A'.toNat + 10)
  else none

def readHex : List Char → Option (Nat × List Char)
  | a :: b :: c :: d :: rest => do
    let a ← hexValue? a
    let b ← hexValue? b
    let c ← hexValue? c
    let d ← hexValue? d
    return (((a * 16 + b) * 16 + c) * 16 + d, rest)
  | _ => none

/-- The character that an escape with four digits stands for, with those of its pair if its digits
are the first half of one, and the text behind it. -/
def readUnicode (cs : List Char) : Option (Char × List Char) := do
  let (high, rest) ← readHex cs
  if 0xD800 ≤ high ∧ high < 0xDC00 then
    let rest ← behind? ['\\', 'u'] rest
    let (low, rest) ← readHex rest
    if 0xDC00 ≤ low ∧ low < 0xE000 then
      return (Char.ofNat (0x10000 + (high - 0xD800) * 0x400 + (low - 0xDC00)), rest)
    else none
  else if 0xDC00 ≤ high ∧ high < 0xE000 then none
  else return (Char.ofNat high, rest)

/-- The character that an escape stands for, from behind its backslash, and the text behind it. -/
def readEscape : List Char → Option (Char × List Char)
  | [] => none
  | c :: cs =>
    match c with
    | '"' | '\\' | '/' => some (c, cs)
    | 'b' => some ('\x08', cs)
    | 'f' => some ('\x0c', cs)
    | 'n' => some ('\n', cs)
    | 'r' => some ('\r', cs)
    | 't' => some ('\t', cs)
    | 'u' => readUnicode cs
    | _ => none

/-- The string whose opening quote has been read, and the text behind it; `done` holds its
characters so far, newest first, and `fuel` is at least the length of the text. -/
def readString : Nat → List Char → List Char → Option (String × List Char)
  | 0, _, _ => none
  | _, _, [] => none
  | fuel + 1, done, c :: cs =>
    if c = '"' then some (String.ofList done.reverse, cs)
    else if c = '\\' then
      match readEscape cs with
      | none => none
      | some (e, cs) => readString fuel (e :: done) cs
    else if c.toNat < 32 then none
    else readString fuel (c :: done) cs

def readWhole (cs : List Char) : Option (List Char × List Char) :=
  match cs with
  | [] => none
  | c :: rest =>
    if c = '0' then some ([c], rest)
    else if c.isDigit then some (cs.takeWhile Char.isDigit, cs.dropWhile Char.isDigit)
    else none

def readFraction (cs : List Char) : Option (List Char × List Char) :=
  match cs with
  | '.' :: cs =>
    let digits := cs.takeWhile Char.isDigit
    if digits.isEmpty then none else some (digits, cs.dropWhile Char.isDigit)
  | _ => some ([], cs)

def readExponent (cs : List Char) : Option (Option Int × List Char) :=
  match cs with
  | [] => some (none, [])
  | e :: tail =>
    if e = 'e' ∨ e = 'E' then
      let (negative, tail) := match tail with
        | '-' :: tail => (true, tail)
        | '+' :: tail => (false, tail)
        | tail => (false, tail)
      let digits := tail.takeWhile Char.isDigit
      let size : Int := decimalValue digits
      if digits.isEmpty then none
      else some (some (if negative then -size else size), tail.dropWhile Char.isDigit)
    else some (none, cs)

def readNumber (cs : List Char) : Option (Json × List Char) := do
  let (negative, unsigned) := match cs with
    | '-' :: cs => (true, cs)
    | cs => (false, cs)
  let (whole, rest) ← readWhole unsigned
  let (fraction, rest) ← readFraction rest
  let (exponent, rest) ← readExponent rest
  let size := decimalValue whole
  if (Scaled.ofDigits whole fraction (exponent.getD 0)).overflows then none
  else if fraction.isEmpty ∧ exponent.isNone ∧ ¬ (negative ∧ size = 0) then
    return (.integer (if negative then -(size : Int) else size), rest)
  else return (.decimal (String.ofList (cs.take (cs.length - rest.length))), rest)

mutual

/-- The value that a text begins with, blanks aside, and the text behind it. Each step takes at
least a character, so that fuel beyond the length of the text suffices; `depth` bounds how far
arrays and objects may nest. -/
def readValue : Nat → Nat → List Char → Option (Json × List Char)
  | 0, _, _ => none
  | fuel + 1, depth, cs =>
    match cs.dropWhile isSpace with
    | [] => none
    | c :: rest =>
      if c = '"' then (readString (rest.length + 1) [] rest).map fun r => (.string r.1, r.2)
      else if c = '[' then
        match depth with
        | 0 => none
        | depth + 1 =>
          match behind? [']'] (rest.dropWhile isSpace) with
          | some rest => some (.array [], rest)
          | none => (readItems fuel depth rest).map fun r => (.array r.1, r.2)
      else if c = '\x7b' then
        match depth with
        | 0 => none
        | depth + 1 =>
          match behind? ['\x7d'] (rest.dropWhile isSpace) with
          | some rest => some (.object [], rest)
          | none => (readFields fuel depth rest).map fun r => (.object r.1, r.2)
      else if c = 'n' then (behind? "ull".toList rest).map fun rest => (.null, rest)
      else if c = 't' then (behind? "rue".toList rest).map fun rest => (.bool true, rest)
      else if c = 'f' then (behind? "alse".toList rest).map fun rest => (.bool false, rest)
      else readNumber (c :: rest)

def readItems : Nat → Nat → List Char → Option (List Json × List Char)
  | 0, _, _ => none
  | fuel + 1, depth, cs => do
    let (item, rest) ← readValue fuel depth cs
    match rest.dropWhile isSpace with
    | ',' :: rest =>
      let (items, rest) ← readItems fuel depth rest
      return (item :: items, rest)
    | ']' :: rest => return ([item], rest)
    | _ => none

def readFields : Nat → Nat → List Char → Option (List (String × Json) × List Char)
  | 0, _, _ => none
  | fuel + 1, depth, cs => do
    let rest ← behind? ['"'] (cs.dropWhile isSpace)
    let (name, rest) ← readString (rest.length + 1) [] rest
    let rest ← behind? [':'] (rest.dropWhile isSpace)
    let (value, rest) ← readValue fuel depth rest
    match rest.dropWhile isSpace with
    | ',' :: rest =>
      let (fields, rest) ← readFields fuel depth rest
      return ((name, value) :: fields, rest)
    | '\x7d' :: rest => return ([(name, value)], rest)
    | _ => none

end

/-- How deep arrays and objects may nest. -/
def maxDepth : Nat := 127

/-- The value of a text that holds one value and blanks. -/
def ofText? (text : String) : Option Json := do
  let cs := text.toList
  let (value, rest) ← readValue (2 * cs.length + 2) maxDepth cs
  if rest.all isSpace then return value else none

end ActorScript.Json
