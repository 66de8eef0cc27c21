import ActorScript.Match.Rule

/-!
What the actions in a rule do with candidates. An action may turn a candidate into any other, over
other tokens or at another place among them. But the candidates of a reading are meant to share one
token list, along which only terminals move, and most of what can be said of a reading counts on
that: some of it on actions that keep the tokens, and some on actions that work on the stack alone.
-/
namespace ActorScript

variable {τ ι ρ : Type}

namespace Candidate

/-- The action leaves a candidate over the tokens that all candidates of its reading share. -/
def KeepsTokens (action : Candidate τ ι → Candidate τ ι) : Prop :=
  ∀ c, (action c).tokens = c.tokens

/-- The action works on the stack alone. -/
def KeepsPlace (action : Candidate τ ι → Candidate τ ι) : Prop :=
  ∀ c, (action c).tokens = c.tokens ∧ (action c).index = c.index

theorem keepsPlace_rework (made : Candidate τ ι → List ι) : KeepsPlace (rework made) :=
  fun _ => ⟨rfl, rfl⟩

theorem KeepsPlace.keepsTokens {action : Candidate τ ι → Candidate τ ι}
    (keeps : KeepsPlace action) : KeepsTokens action := fun c => (keeps c).1

end Candidate

namespace Rule

mutual

/-- The actions in a rule, without those in the rules it names. -/
def actions : Rule τ ι ρ → List (Candidate τ ι → Candidate τ ι)
  | .terminal _ _ => []
  | .sequence parts => actionsOfAll parts
  | .alternation choices => actionsOfAll choices
  | .repetition inner => actions inner
  | .empty => []
  | .deferred _ => []
  | .build action inner => action :: actions inner

def actionsOfAll : List (Rule τ ι ρ) → List (Candidate τ ι → Candidate τ ι)
  | [] => []
  | rule :: others => actions rule ++ actionsOfAll others

end

theorem mem_actionsOfAll {rules : List (Rule τ ι ρ)} {action : Candidate τ ι → Candidate τ ι} :
    action ∈ actionsOfAll rules ↔ ∃ rule ∈ rules, action ∈ rule.actions := by
  induction rules with
  | nil => simp [actionsOfAll]
  | cons rule others ih => simp [actionsOfAll, ih]

/-- All actions that a reading by the rule can come to are of one kind. -/
structure Acts (kind : (Candidate τ ι → Candidate τ ι) → Prop) (rules : ρ → Rule τ ι ρ)
    (rule : Rule τ ι ρ) : Prop where
  own : ∀ action ∈ rule.actions, kind action
  named : ∀ name, ∀ action ∈ (rules name).actions, kind action

namespace Acts

variable {kind wider : (Candidate τ ι → Candidate τ ι) → Prop} {rules : ρ → Rule τ ι ρ}
  {rule part inner choice : Rule τ ι ρ} {parts choices : List (Rule τ ι ρ)}
  {action : Candidate τ ι → Candidate τ ι} {name : ρ}

theorem mono (acts : Acts kind rules rule) (wide : ∀ action, kind action → wider action) :
    Acts wider rules rule where
  own action mem := wide action (acts.own action mem)
  named name action mem := wide action (acts.named name action mem)

theorem first (acts : Acts kind rules (.sequence (part :: parts))) : Acts kind rules part where
  own action mem := acts.own action (List.mem_append_left _ mem)
  named := acts.named

theorem later (acts : Acts kind rules (.sequence (part :: parts))) :
    Acts kind rules (.sequence parts) where
  own action mem := acts.own action (List.mem_append_right _ mem)
  named := acts.named

theorem part_of_mem (acts : Acts kind rules (.sequence parts)) (among : part ∈ parts) :
    Acts kind rules part where
  own action mem := acts.own action (mem_actionsOfAll.2 ⟨part, among, mem⟩)
  named := acts.named

theorem others (acts : Acts kind rules (.alternation (choice :: choices))) :
    Acts kind rules (.alternation choices) where
  own action mem := acts.own action (List.mem_append_right _ mem)
  named := acts.named

theorem choice_of_mem (acts : Acts kind rules (.alternation choices)) (among : choice ∈ choices) :
    Acts kind rules choice where
  own action mem := acts.own action (mem_actionsOfAll.2 ⟨choice, among, mem⟩)
  named := acts.named

theorem round (acts : Acts kind rules (.repetition inner)) : Acts kind rules inner where
  own := acts.own
  named := acts.named

theorem entered (acts : Acts kind rules (.deferred name)) : Acts kind rules (rules name) where
  own := acts.named name
  named := acts.named

theorem inside (acts : Acts kind rules (.build action inner)) : Acts kind rules inner where
  own made mem := acts.own made (List.mem_cons_of_mem action mem)
  named := acts.named

theorem built (acts : Acts kind rules (.build action inner)) : kind action :=
  acts.own action List.mem_cons_self

end Acts

end Rule
end ActorScript
