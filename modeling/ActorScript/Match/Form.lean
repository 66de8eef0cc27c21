import ActorScript.Match.Rule

/-!
The form of a rule as text: its shape, with the tests of its terminals and the actions of its
results left out.
-/
namespace ActorScript.Rule

variable {τ ι ρ : Type}

mutual

def form : Rule τ ι ρ → String
  | .terminal _ item => "Terminal \x7b discard: " ++ toString item.isNone ++ " \x7d"
  | .sequence parts => "Sequence([" ++ formList parts ++ "])"
  | .alternation choices => "Alternation([" ++ formList choices ++ "])"
  | .repetition inner => "Repetition(" ++ inner.form ++ ")"
  | .empty => "Empty"
  | .deferred _ => "Deferred"
  | .build _ inner => inner.form

def formList : List (Rule τ ι ρ) → String
  | [] => ""
  | [rule] => rule.form
  | rule :: next :: rules => rule.form ++ ", " ++ formList (next :: rules)

end

end ActorScript.Rule
