import ActorScript.Proofs.Match.Language

/-!
Other tokens in the place of some. A rule asks nothing of a token but that it passes the tests where
it is taken. Where each test is passed by a valid token, every token that a rule takes can give way
to a valid one, and those that are valid already can stay.
-/
namespace ActorScript

variable {τ ι ρ : Type}

namespace Rule

mutual

/-- The tests in a rule, without those of the rules it names. -/
def tests : Rule τ ι ρ → List (τ → Bool)
  | .terminal accepts _ => [accepts]
  | .sequence parts => testsOfAll parts
  | .alternation choices => testsOfAll choices
  | .repetition inner => tests inner
  | .empty => []
  | .deferred _ => []
  | .build _ inner => tests inner

def testsOfAll : List (Rule τ ι ρ) → List (τ → Bool)
  | [] => []
  | rule :: others => tests rule ++ testsOfAll others

end

variable {rules : ρ → Rule τ ι ρ} {valid : τ → Prop} {rule part inner choice : Rule τ ι ρ}
  {parts choices : List (Rule τ ι ρ)} {c d : Candidate τ ι}

/-- Each test in the rule is passed by some valid token. -/
def Passable (valid : τ → Prop) (rule : Rule τ ι ρ) : Prop :=
  ∀ accepts ∈ tests rule, ∃ t, valid t ∧ accepts t = true

theorem tests_subset_of_mem (among : choice ∈ choices) : tests choice ⊆ testsOfAll choices := by
  induction choices with
  | nil => simp at among
  | cons first others ih =>
    rw [testsOfAll]
    rcases List.mem_cons.1 among with rfl | among
    · exact List.subset_append_left ..
    · exact List.subset_append_of_subset_right _ (ih among)

/-- The second tokens may stand where the first do. -/
def Replaces (valid : τ → Prop) : List τ → List τ → Prop :=
  List.Forall₂ fun t u => valid u ∧ (valid t → u = t)

/-- The rule takes these tokens wherever they come next. -/
def Covers (rules : ρ → Rule τ ι ρ) (rule : Rule τ ι ρ) (w : List τ) : Prop :=
  ∀ {c : Candidate τ ι} {r : List τ}, c.rest = w ++ r →
    ∃ d, Derives rules AnyRound rule c d ∧ c.Takes w d

theorem covers_terminal {accepts : τ → Bool} {item : Option (τ → ι)} {t : τ}
    (accepted : accepts t = true) : Covers rules (.terminal accepts item) [t] := by
  intro c r rest
  exact ⟨c.skip item t, .terminal (Candidate.take?_of_rest rest accepted item),
    Candidate.takes_skip rest item⟩

theorem covers_cons {u v : List τ} (first : Covers rules part u)
    (later : Covers rules (.sequence parts) v) :
    Covers rules (.sequence (part :: parts)) (u ++ v) := by
  intro c r rest
  rw [List.append_assoc] at rest
  obtain ⟨d, once, taken⟩ := first rest
  obtain ⟨e, more, taken'⟩ := later (taken.rest_eq rest)
  exact ⟨e, .cons once more, taken.trans taken'⟩

theorem covers_again {u v : List τ} (once : Covers rules inner u)
    (later : Covers rules (.repetition inner) v) : Covers rules (.repetition inner) (u ++ v) := by
  intro c r rest
  rw [List.append_assoc] at rest
  obtain ⟨d, first, taken⟩ := once rest
  obtain ⟨e, more, taken'⟩ := later (taken.rest_eq rest)
  exact ⟨e, .again first trivial more, taken.trans taken'⟩

theorem exists_replacement (named : ∀ name, Passable valid (rules name))
    (acts : Acts Candidate.KeepsPlace rules rule) (passable : Passable valid rule)
    (derived : Derives rules AnyRound rule c d) :
    ∃ w v, c.Takes w d ∧ Replaces valid w v ∧ Covers rules rule v := by
  induction derived with
  | @terminal accepts item c d taken =>
    obtain ⟨t, r, rest, accepted, rfl⟩ := Candidate.take?_iff.1 taken
    have skipped := Candidate.takes_skip rest item
    by_cases same : valid t
    · exact ⟨[t], [t], skipped, .cons ⟨same, fun _ => rfl⟩ .nil, covers_terminal accepted⟩
    · obtain ⟨u, valid_u, passed⟩ := passable accepts (by simp [tests])
      exact ⟨[t], [u], skipped, .cons ⟨valid_u, fun also => absurd also same⟩ .nil,
        covers_terminal passed⟩
  | @nil c => exact ⟨[], [], .none c, .nil, fun {c _} _ => ⟨c, .nil, .none c⟩⟩
  | cons _ _ ih ih' =>
    rw [Passable, tests, testsOfAll, List.forall_mem_append] at passable
    obtain ⟨w, v, taken, replaces, covers⟩ := ih acts.first passable.1
    obtain ⟨w', v', taken', replaces', covers'⟩ := ih' acts.later passable.2
    exact ⟨w ++ w', v ++ v', taken.trans taken', List.rel_append replaces replaces',
      covers_cons covers covers'⟩
  | choice among _ ih =>
    obtain ⟨w, v, taken, replaces, covers⟩ :=
      ih (acts.choice_of_mem among) fun accepts mem =>
        passable accepts (tests_subset_of_mem among mem)
    refine ⟨w, v, taken, replaces, fun {c r} rest => ?_⟩
    obtain ⟨d, chosen, taken⟩ := covers rest
    exact ⟨d, .choice among chosen, taken⟩
  | @done _ c => exact ⟨[], [], .none c, .nil, fun {c _} _ => ⟨c, .done, .none c⟩⟩
  | again _ _ _ ih ih' =>
    obtain ⟨w, v, taken, replaces, covers⟩ := ih acts.round passable
    obtain ⟨w', v', taken', replaces', covers'⟩ := ih' acts passable
    exact ⟨w ++ w', v ++ v', taken.trans taken', List.rel_append replaces replaces',
      covers_again covers covers'⟩
  | @empty c => exact ⟨[], [], .none c, .nil, fun {c _} _ => ⟨c, .empty, .none c⟩⟩
  | @named name _ _ _ ih =>
    obtain ⟨w, v, taken, replaces, covers⟩ := ih acts.entered (named name)
    refine ⟨w, v, taken, replaces, fun {c r} rest => ?_⟩
    obtain ⟨d, entered, taken⟩ := covers rest
    exact ⟨d, .named entered, taken⟩
  | @built action _ _ _ _ ih =>
    obtain ⟨w, v, taken, replaces, covers⟩ := ih acts.inside passable
    refine ⟨w, v, taken.kept acts.built, replaces, fun {c r} rest => ?_⟩
    obtain ⟨d, part, taken⟩ := covers rest
    exact ⟨_, .built part, taken.kept acts.built⟩

theorem Replaces.exists_append {w more v : List τ} (all_valid : ∀ t ∈ w, valid t)
    (replaces : Replaces valid (w ++ more) v) :
    ∃ others, v = w ++ others ∧ Replaces valid more others := by
  induction w generalizing v with
  | nil => exact ⟨v, rfl, replaces⟩
  | cons t w ih =>
    obtain ⟨first, later⟩ := List.forall_mem_cons.1 all_valid
    cases replaces with
    | @cons _ u _ v replaced replaces =>
      obtain ⟨others, rfl, behind⟩ := ih later replaces
      obtain rfl := replaced.2 first
      exact ⟨others, rfl, behind⟩

theorem Replaces.all_valid {w v : List τ} (replaces : Replaces valid w v) : ∀ t ∈ v, valid t := by
  induction replaces with
  | nil => simp
  | cons replaced _ ih => exact List.forall_mem_cons.2 ⟨replaced.1, ih⟩

end Rule
end ActorScript
