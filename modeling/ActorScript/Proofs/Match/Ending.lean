import ActorScript.Proofs.Match.Unbounded

/-!
A repetition ends by itself. Each round keeps only what stands beyond the smallest index that it
began with; a candidate that takes no token can stay for some rounds, but that index moves up with
every one, and it cannot get beyond the longest tokens. So a repetition comes to an end wherever its
inner rule does, unless actions go over to longer and longer tokens. To come to an end means here
that a reading without bounds gives something; and where actions keep the tokens, this is what the
bounded reading computes from some depth of named rules on.
-/
namespace ActorScript

variable {τ ι ρ : Type}

namespace Rule

variable {rules : ρ → Rule τ ι ρ} {inner : Rule τ ι ρ} {cs pool pool' outs : Pool τ ι}
  {result : Reading τ (Pool τ ι)} {n limit : Nat}

/-- A reading without bounds comes to an end. -/
def Ends (rules : ρ → Rule τ ι ρ) (task : Task τ ι ρ) (cs : Pool τ ι) : Prop :=
  ∃ result, Gives rules task cs result

section Rounds

/-- So many rounds of a repetition of `cs` leave the candidates with which the next one begins. -/
inductive AfterRounds (rules : ρ → Rule τ ι ρ) (inner : Rule τ ι ρ) (cs : Pool τ ι) :
    Nat → Pool τ ι → Prop where
  | start : AfterRounds rules inner cs 0 cs
  | next {n before outs} (after : AfterRounds rules inner cs n before) (some_left : before ≠ [])
      (read : Gives rules (.rule inner) before (.ok outs)) :
      AfterRounds rules inner cs (n + 1) (kept before outs)

/-- The inner rule comes to an end on all that the rounds of a repetition begin with. -/
def InnerEnds (rules : ρ → Rule τ ι ρ) (inner : Rule τ ι ρ) (cs : Pool τ ι) : Prop :=
  ∀ n before, AfterRounds rules inner cs n before → before ≠ [] → Ends rules (.rule inner) before

/-- No round of a repetition begins with longer tokens. -/
def RoundsWithin (rules : ρ → Rule τ ι ρ) (inner : Rule τ ι ρ) (cs : Pool τ ι) (limit : Nat) :
    Prop :=
  ∀ n before, AfterRounds rules inner cs n before → before.longest ≤ limit

theorem AfterRounds.unique (after : AfterRounds rules inner cs n pool)
    (also : AfterRounds rules inner cs n pool') : pool = pool' := by
  induction after generalizing pool' with
  | start =>
    cases also
    rfl
  | next _ _ read ih =>
    cases also with
    | next after' _ read' =>
      obtain rfl := ih after'
      cases read.unique read'
      rfl

/-- A round moves the smallest index up, whatever the inner rule makes. -/
theorem AfterRounds.moves (before : AfterRounds rules inner cs n pool)
    (after : AfterRounds rules inner cs (n + 1) pool') (some_left : pool' ≠ []) :
    pool.smallestIndex < pool'.smallestIndex := by
  cases after with
  | next before' _ _ =>
    obtain rfl := before.unique before'
    exact smallestIndex_lt_kept some_left

theorem AfterRounds.smallestIndex_le (after : AfterRounds rules inner cs n pool)
    (some_left : pool ≠ []) : cs.smallestIndex + n ≤ pool.smallestIndex := by
  induction after with
  | start => exact Nat.le_refl _
  | next _ some_before _ ih =>
    have := ih some_before
    have := smallestIndex_lt_kept some_left
    omega

theorem AfterRounds.exists_head (after : AfterRounds rules inner cs (n + 1) pool) :
    cs ≠ [] ∧ ∃ outs, Gives rules (.rule inner) cs (.ok outs) ∧
      AfterRounds rules inner (kept cs outs) n pool := by
  generalize rounds : n + 1 = m at after
  induction after generalizing n with
  | start => cases rounds
  | next after some_before read ih =>
    obtain rfl := Nat.succ.inj rounds
    cases n with
    | zero =>
      cases after
      exact ⟨some_before, _, read, .start⟩
    | succ n =>
      obtain ⟨some_left, first, read_first, later⟩ := ih rfl
      exact ⟨some_left, first, read_first, .next later some_before read⟩

/-- A repetition that comes to an end has had no more than finitely many rounds, and the inner rule
has come to an end in each of them. -/
theorem rounds_of_gives (given : Gives rules (.rounds inner) cs result) :
    (∃ limit, RoundsWithin rules inner cs limit) ∧ InnerEnds rules inner cs := by
  generalize repeated : Task.rounds inner = task at given
  -- what the rounds behind the first begin with is known by the induction on what they give
  have first (limit : Nat) {cs : Pool τ ι} (ends : cs ≠ [] → Ends rules (.rule inner) cs)
      (later : ∀ outs, Gives rules (.rule inner) cs (.ok outs) → cs ≠ [] →
        RoundsWithin rules inner (kept cs outs) limit ∧ InnerEnds rules inner (kept cs outs)) :
      (∃ limit, RoundsWithin rules inner cs limit) ∧ InnerEnds rules inner cs := by
    refine ⟨⟨max cs.longest limit, fun n before after => ?_⟩, fun n before after some_left => ?_⟩
    · cases n with
      | zero =>
        cases after
        exact Nat.le_max_left _ _
      | succ n =>
        obtain ⟨some_first, outs, read, after⟩ := after.exists_head
        exact Nat.le_trans ((later outs read some_first).1 n before after) (Nat.le_max_right _ _)
    · cases n with
      | zero =>
        cases after
        exact ends some_left
      | succ n =>
        obtain ⟨some_first, outs, read, after⟩ := after.exists_head
        exact (later outs read some_first).2 n before after some_left
  induction given with
  | no_round =>
    cases repeated
    exact first 0 (fun some_left => absurd rfl some_left)
      fun _ _ some_left => absurd rfl some_left
  | round_fails _ failed =>
    cases repeated
    refine first 0 (fun _ => ⟨_, failed⟩) fun outs read _ => ?_
    cases read.unique failed
  | round _ read _ _ ih =>
    cases repeated
    obtain ⟨⟨limit, within⟩, ends⟩ := ih rfl
    refine first limit (fun _ => ⟨_, read⟩) fun outs read' _ => ?_
    cases read.unique read'
    exact ⟨within, ends⟩
  | terminal | sequence | alternation | repetition | empty | named | built | no_part | part_fails
  | first_none | later_none | part | no_choice | choice_fails | choice => cases repeated

/-- If the inner rule comes to an end on all that rounds begin with, and their tokens are within a
limit, so does the repetition: for each round leaves less room for the smallest index. -/
theorem AfterRounds.ends (within : RoundsWithin rules inner cs limit)
    (inner_ends : InnerEnds rules inner cs) (after : AfterRounds rules inner cs n pool) :
    Ends rules (.rounds inner) pool := by
  induction room : limit + 1 - pool.smallestIndex using Nat.strong_induction_on
    generalizing n pool with
  | _ room ih =>
    -- an empty pool has no index to speak of, so that it stands apart here and behind the round
    by_cases some_left : pool = []
    · subst some_left
      exact ⟨_, .no_round⟩
    obtain ⟨made, read⟩ := inner_ends n pool after some_left
    cases made with
    | error e => exact ⟨_, .round_fails some_left read⟩
    | ok outs =>
      have behind : AfterRounds rules inner cs (n + 1) (kept pool outs) :=
        .next after some_left read
      suffices rest : Ends rules (.rounds inner) (kept pool outs) by
        obtain ⟨result, more⟩ := rest
        exact ⟨_, .round some_left read more⟩
      by_cases ended : kept pool outs = []
      · rw [ended]
        exact ⟨_, .no_round⟩
      · have moved := smallestIndex_lt_kept ended
        have below := (kept pool outs).smallestIndex_le_longest ended
        have short := within _ _ behind
        exact ih _ (by omega) behind rfl

theorem ends_repetition_iff : Ends rules (.rule (.repetition inner)) cs ↔
    (∃ limit, RoundsWithin rules inner cs limit) ∧ InnerEnds rules inner cs := by
  constructor
  · rintro ⟨result, given⟩
    cases given with
    | repetition rounds => exact rounds_of_gives rounds
  · rintro ⟨⟨limit, within⟩, inner_ends⟩
    obtain ⟨result, rounds⟩ := AfterRounds.ends within inner_ends .start
    exact ⟨_, .repetition rounds⟩

theorem roundsWithin_longest (acts : Acts Candidate.KeepsTokens rules inner) :
    RoundsWithin rules inner cs cs.longest := by
  intro n pool after
  induction after with
  | start => exact Nat.le_refl _
  | next _ _ read ih => exact Nat.le_trans (longest_kept_le acts (read.sound _ rfl)) ih

end Rounds

section Bounded

/-- What is computed of a task within bounds. -/
def Task.advance (enter : ρ → Pool τ ι → Reading τ (Pool τ ι)) :
    Task τ ι ρ → Pool τ ι → Reading τ (Pool τ ι)
  | .rule r, cs => r.advance enter cs
  | .parts begun left, cs => advanceParts enter begun left cs
  | .each choices, cs => advanceEach enter choices cs
  | .rounds inner, cs => repetitionFrom (inner.advance enter) (repetitionRounds cs) cs

theorem map_eq_error {ε α β : Type} {x : Except ε α} {f : α → β} {e : ε} :
    x.map f = .error e ↔ x = .error e := by
  cases x with
  | error e => simp [Except.map]
  | ok a => simp [Except.map]

theorem Gives.ne_tooDeep {task : Task τ ι ρ} (given : Gives rules task cs result) :
    result ≠ .error .tooDeep := by
  induction given with
  | terminal | empty | no_part | first_none | no_choice | no_round => exact pure_ne_tooDeep _
  | later_none => exact nextTokenError_ne_tooDeep _
  | sequence _ ih | alternation _ ih | named _ ih | part_fails _ ih | part _ _ _ _ ih
  | choice_fails _ ih | round_fails _ _ ih => exact ih
  | repetition _ ih | built _ ih | choice _ _ _ ih | round _ _ _ _ ih =>
    exact fun deep => ih (map_eq_error.1 deep)

end Bounded

end Rule

namespace Rulebook

open Rule

variable {book : Rulebook τ ι ρ} {rule : Rule τ ι ρ} {task : Task τ ι ρ} {cs : Pool τ ι}
  {result : Reading τ (Pool τ ι)}

/-- What a task gives is computed within bounds, if named rules may be entered deep enough. -/
theorem exists_depth (given : Gives book.rule task cs result)
    (acts : Acts Candidate.KeepsTokens book.rule task.toRule) :
    ∃ depth, ∀ deeper, depth ≤ deeper → task.advance (book.enter deeper) cs = result := by
  induction given with
  | terminal | empty | no_choice => exact ⟨0, fun _ _ => rfl⟩
  | @no_part begun =>
    refine ⟨0, fun _ _ => ?_⟩
    cases begun <;> rfl
  | no_round => exact ⟨0, fun _ _ => repetitionFrom_nil _⟩
  | sequence _ ih | alternation _ ih =>
    obtain ⟨depth, computed⟩ := ih acts
    exact ⟨depth, computed⟩
  | named _ ih =>
    obtain ⟨depth, computed⟩ := ih acts.entered
    refine ⟨depth + 1, fun deeper le => ?_⟩
    obtain ⟨deeper, rfl⟩ := Nat.exists_eq_add_of_le' le
    exact computed _ (Nat.le_add_left depth deeper)
  | repetition _ ih =>
    obtain ⟨depth, computed⟩ := ih acts
    refine ⟨depth, fun deeper le => ?_⟩
    rw [Task.advance, Rule.advance, bind_pure_eq_map]
    exact congrArg _ (computed deeper le)
  | built _ ih =>
    obtain ⟨depth, computed⟩ := ih acts.inside
    refine ⟨depth, fun deeper le => ?_⟩
    rw [Task.advance, Rule.advance, bind_pure_eq_map]
    exact congrArg _ (computed deeper le)
  | part_fails _ ih =>
    obtain ⟨depth, computed⟩ := ih acts.first
    exact ⟨depth, fun deeper le => advanceParts_of_error (computed deeper le)⟩
  | first_none _ ih =>
    obtain ⟨depth, computed⟩ := ih acts.first
    exact ⟨depth, fun deeper le => advanceFirst_of_nil (computed deeper le)⟩
  | later_none _ ih =>
    obtain ⟨depth, computed⟩ := ih acts.first
    exact ⟨depth, fun deeper le => advanceRest_of_nil (computed deeper le)⟩
  | part _ some_left _ ih ih' =>
    obtain ⟨depth, computed⟩ := ih acts.first
    obtain ⟨depth', computed'⟩ := ih' acts.later
    -- more depth changes nothing once there is enough, so the greater one does for both
    refine ⟨max depth depth', fun deeper le => ?_⟩
    obtain ⟨le, le'⟩ := Nat.max_le.1 le
    exact (advanceParts_of_ok (computed deeper le) some_left).trans (computed' deeper le')
  | choice_fails _ ih =>
    obtain ⟨depth, computed⟩ := ih (acts.choice_of_mem List.mem_cons_self)
    exact ⟨depth, fun deeper le => advanceEach_of_error (computed deeper le)⟩
  | choice _ _ ih ih' =>
    obtain ⟨depth, computed⟩ := ih (acts.choice_of_mem List.mem_cons_self)
    obtain ⟨depth', computed'⟩ := ih' acts.others
    refine ⟨max depth depth', fun deeper le => ?_⟩
    obtain ⟨le, le'⟩ := Nat.max_le.1 le
    exact (advanceEach_of_ok (computed deeper le)).trans (congrArg _ (computed' deeper le'))
  | round_fails some_left _ ih =>
    obtain ⟨depth, computed⟩ := ih acts.round
    exact ⟨depth, fun deeper le => repetitionFrom_of_error some_left (computed deeper le)⟩
  | round some_left read more ih ih' =>
    obtain ⟨depth, computed⟩ := ih acts.round
    obtain ⟨depth', computed'⟩ := ih' acts
    refine ⟨max depth depth', fun deeper le => ?_⟩
    obtain ⟨le, le'⟩ := Nat.max_le.1 le
    have rest := computed' deeper le'
    have shorter := longest_kept_le acts.round (read.sound _ rfl)
    refine (repetitionFrom_of_round some_left (computed deeper le) shorter ?_).trans ?_
    · exact fun deep => more.ne_tooDeep (rest.symm.trans deep)
    · exact congrArg _ rest

theorem gives_iff_computed (acts : Acts Candidate.KeepsTokens book.rule rule) :
    Gives book.rule (.rule rule) cs result ↔ result ≠ .error .tooDeep ∧
      ∃ depth, ∀ deeper, depth ≤ deeper → rule.advance (book.enter deeper) cs = result := by
  constructor
  · intro given
    exact ⟨given.ne_tooDeep, exists_depth given acts⟩
  · rintro ⟨calm, depth, computed⟩
    have here := computed depth (Nat.le_refl _)
    rw [← here] at calm ⊢
    exact advance_computes (fun name => enter_computes depth name) rule cs calm

end Rulebook
end ActorScript
