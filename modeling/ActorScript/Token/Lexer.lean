import ActorScript.Token

/-!
Reading a text into tokens. Blanks part tokens and are dropped; line feeds are tokens. Each token is
the longest that begins where it begins. A text that holds something else ends in an error there,
and nothing after it is read.
-/
namespace ActorScript

inductive LexError.Fault where
  /-- No token begins with this character. -/
  | unrecognized (ch : Char)
  /-- A string reaches the end of its line without its closing quote. -/
  | unterminated
  /-- A number is not below `2 ^ 63`. -/
  | tooLarge
  deriving DecidableEq, Repr, Inhabited

/-- A fault, with the place of the first character of what could not be read. -/
structure LexError where
  fault : LexError.Fault
  line : Nat
  column : Nat
  deriving DecidableEq, Repr, Inhabited

def LexError.message (e : LexError) : String :=
  let what := match e.fault with
    | .unrecognized ch => s!"unrecognized token '{ch}'"
    | .unterminated => "unterminated string"
    | .tooLarge => "number too large"
  s!"{what} at line {e.line}, column {e.column}"

def isBlank (c : Char) : Bool := c == ' ' || c == '\t' || c == '\r'

def isLetter (c : Char) : Bool := c.isAlpha || c == '_'

def isWordChar (c : Char) : Bool := c.isAlphanum || c == '_'

/-- What a backslash and the character behind it stand for: an escape that is not known stands for
itself. -/
def unescape (c : Char) : List Char :=
  if c = '"' then ['"'] else if c = 'n' then ['\n'] else if c = '\\' then ['\\'] else ['\\', c]

/-- The contents of a string whose opening quote has been read, and how many characters they and the
closing quote take. -/
def readQuoted : List Char → Option (List Char × Nat)
  | [] => none
  | c :: cs =>
    if c = '"' then some ([], 1)
    else if c = '\n' then none
    else if c = '\\' then
      match cs with
      | [] => none
      | e :: cs =>
        if e = '\n' then none
        else (readQuoted cs).map fun r => (unescape e ++ r.1, r.2 + 2)
    else (readQuoted cs).map fun r => (c :: r.1, r.2 + 1)

/-- What a token is made of: its kind, its value and how many characters it takes after its first.
-/
structure Item where
  kind : Token.Kind
  value : List Char
  extra : Nat
  deriving DecidableEq, Repr

/-- The item that begins with `c`, which is no blank, in a text that goes on with `cs`. -/
def Item.read (c : Char) (cs : List Char) : Except LexError.Fault Item :=
  if c = '\n' then .ok ⟨.newline, [c], 0⟩
  else if c = '/' ∧ cs.head? = some '/' then
    let text := cs.tail.takeWhile (· ≠ '\n')
    .ok ⟨.comment, text, text.length + 1⟩
  else if c = '"' then
    match readQuoted cs with
    | some (text, extra) => .ok ⟨.quoted, text, extra⟩
    | none => .error .unterminated
  else if c = '<' ∨ c = '>' then
    if cs.head? = some '=' then .ok ⟨.operator, [c, '='], 1⟩ else .ok ⟨.operator, [c], 0⟩
  else if c = '=' ∨ c = ':' then .ok ⟨.operator, [c], 0⟩
  else if c = ',' then .ok ⟨.punctuation, [c], 0⟩
  else if c.isDigit then
    let digits := cs.takeWhile Char.isDigit
    if decimalValue (c :: digits) < Nat.pow 2 63 then .ok ⟨.number, c :: digits, digits.length⟩
    else .error .tooLarge
  else if isLetter c then
    let letters := cs.takeWhile isWordChar
    .ok ⟨.word, c :: letters, letters.length⟩
  else .error (.unrecognized c)

/-- What reading at some place of a text comes to. -/
inductive Scan where
  | ended
  | failed (error : LexError)
  /-- A token, then the text behind it and its place. -/
  | found (token : Token) (place : Place) (rest : List Char)
  deriving DecidableEq

/-- Reads the first token of `cs`, a text that stands at `place`. Comments count as tokens if they
are to be kept, otherwise they are passed over like blanks. -/
def scan (keepComments : Bool) (place : Place) : List Char → Scan
  | [] => .ended
  | c :: cs =>
    if isBlank c then scan keepComments (place.after c) cs
    else
      match Item.read c cs with
      | .error fault => .failed ⟨fault, place.line, place.column⟩
      | .ok item =>
        let next := (place.after c).afterAll (cs.take item.extra)
        if item.kind = .comment ∧ keepComments = false then
          scan keepComments next (cs.drop item.extra)
        else .found ⟨item.kind, String.ofList item.value, place⟩ next (cs.drop item.extra)
termination_by cs => cs.length
decreasing_by all_goals simp only [List.length_cons, List.length_drop]; omega

theorem length_lt_of_scan_eq_found {keepComments : Bool} {place next : Place} {cs rest : List Char}
    {token : Token} (h : scan keepComments place cs = .found token next rest) :
    rest.length < cs.length := by
  fun_induction scan keepComments place cs with
  | case1 => simp at h
  | case2 place c cs _ ih => have := ih h; simp only [List.length_cons]; omega
  | case3 => simp at h
  | case4 place c cs _ item _ place' _ ih =>
    have := ih h
    simp only [List.length_cons, List.length_drop] at *
    omega
  | case5 place c cs =>
    simp only [Scan.found.injEq] at h
    rw [← h.2.2]
    simp only [List.length_cons, List.length_drop]
    omega

/-- A reader of tokens: what is left of its text, and where that stands. -/
structure Lexer where
  keepComments : Bool
  place : Place
  rest : List Char
  deriving DecidableEq, Repr

namespace Lexer

def start (keepComments : Bool) (text : String) : Lexer := ⟨keepComments, .start, text.toList⟩

/-- The next token, or the error that ends the text, and the reader behind it; nothing at the end.
-/
def next? (l : Lexer) : Option (Except LexError Token × Lexer) :=
  match scan l.keepComments l.place l.rest with
  | .ended => none
  | .failed error => some (.error error, { l with rest := [] })
  | .found token place rest => some (.ok token, { l with place, rest })

theorem length_lt_of_next? {l l' : Lexer} {token : Except LexError Token}
    (h : l.next? = some (token, l')) : l'.rest.length < l.rest.length := by
  unfold next? at h
  split at h
  · simp at h
  · rename_i error failed
    simp only [Option.some.injEq, Prod.mk.injEq] at h
    rw [← h.2]
    cases empty : l.rest with
    | nil => rw [empty, scan] at failed; simp at failed
    | cons => simp
  · rename_i found
    simp only [Option.some.injEq, Prod.mk.injEq] at h
    rw [← h.2]
    exact length_lt_of_scan_eq_found found

def items (l : Lexer) : List (Except LexError Token) :=
  match h : l.next? with
  | none => []
  | some (item, l') =>
    have := length_lt_of_next? h
    item :: l'.items
termination_by l.rest.length

end Lexer

def tokenize (text : String) : Except LexError (List Token) :=
  (Lexer.start false text).items.mapM id

def tokenizeWithComments (text : String) : Except LexError (List Token) :=
  (Lexer.start true text).items.mapM id

end ActorScript
