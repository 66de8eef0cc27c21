import ActorScript.Text.Case
import ActorScript.Token

/-!
What one token of a rule may be. A text is matched by any token that shows it, be it a word, a
number or a sign, but never by a quoted string.
-/
namespace ActorScript.Token

def isWord (t : Token) : Bool := t.kind == .word

def isNumber (t : Token) : Bool := t.kind == .number

def isQuoted (t : Token) : Bool := t.kind == .quoted

def isLiteral (text : String) (t : Token) : Bool := !t.isQuoted && sameWord t.value text

def isExactly (text : String) (t : Token) : Bool := !t.isQuoted && t.value == text

def isOneOf (texts : List String) (t : Token) : Bool := !t.isQuoted && texts.any (sameWord t.value)

def isWordExcept (reserved : List String) (t : Token) : Bool :=
  t.isWord && !reserved.any (sameWord t.value)

end ActorScript.Token
