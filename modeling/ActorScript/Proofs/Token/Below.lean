import ActorScript.Proofs.Token.Feed
import ActorScript.Proofs.Token.Shift
import ActorScript.Proofs.Token.Span

/-!
A text below another. No token crosses the line feed between them, and none depends on what stands
above it but for its place, so that the two are read as each would be by itself.
-/
namespace ActorScript

/-- What comes of a text with another one below it, from what comes of each by itself. The error of
the upper text counts first. -/
def readBelow (above : String) (upper lower : Except LexError (List Token)) :
    Except LexError (List Token) := do
  let lines := 1 + above.toList.count '\n'
  let ts ← upper
  let us ← lower.mapError (LexError.shift lines)
  let moved := us.map (Token.shift lines (above.length + 1))
  return ts ++ ⟨.newline, "\n", .behind above.toList⟩ :: moved

theorem Lexer.tokens_below (keep : Bool) (a b : String) :
    tokens (start keep (a ++ "\n" ++ b)) =
      readBelow a (tokens (start keep a)) (tokens (start keep b)) := by
  have feed : (a ++ "\n" ++ b).toList = a.toList ++ '\n' :: b.toList := by simp
  have next_line : (Place.behind a.toList).after '\n' =
      Place.start.shift (1 + a.toList.count '\n') (a.length + 1) := Place.after_feed _
  simp only [start]
  rw [feed, tokens_append_feed, Place.afterAll_start, next_line, tokens_shift]
  cases tokens ⟨keep, .start, b.toList⟩ with
  | error error => rfl
  | ok us => rfl

/-- A text below another is read as the two are by themselves: the tokens of the upper text, a line
feed right behind it, and the tokens of the lower one as many lines and characters further on as it
stands, in the same columns. If the upper text has an error, it is that; if only the lower one has,
it is that, as many lines further down. So it is with comments and without. -/
theorem texts_read_apart (a b : String) :
    tokenize (a ++ "\n" ++ b) = readBelow a (tokenize a) (tokenize b) ∧
      tokenizeWithComments (a ++ "\n" ++ b) =
        readBelow a (tokenizeWithComments a) (tokenizeWithComments b) :=
  ⟨Lexer.tokens_below false a b, Lexer.tokens_below true a b⟩

end ActorScript
