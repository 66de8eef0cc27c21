import ActorScript.Proofs.Match.Unbounded

/-!
How deep named rules enter one another in a reading without bounds. A branch of it goes from a task
to one that has to be done for it, and so on; the named rules along it are counted. Between two of
them a token is taken, unless the rules lead from the one to the other without one. Where the names
that can follow one another so fall in rank, the tokens that are left bound the depth.
-/
namespace ActorScript

variable {τ ι ρ : Type}

namespace Rule

/-- A branch of the unbounded reading: it comes from a task to the goal, by way of so many named
rules. The tasks along it are those that a reading does, with the candidates that it has for them.
-/
inductive Comes (rules : ρ → Rule τ ι ρ) (goal : Task τ ι ρ) (pool : Pool τ ι) :
    Nat → Task τ ι ρ → Pool τ ι → Prop where
  | here : Comes rules goal pool 0 goal pool
  | sequence {k parts cs} (on : Comes rules goal pool k (.parts false parts) cs) :
      Comes rules goal pool k (.rule (.sequence parts)) cs
  | alternation {k choices cs} (on : Comes rules goal pool k (.each choices) cs) :
      Comes rules goal pool k (.rule (.alternation choices)) cs
  | repetition {k inner cs} (on : Comes rules goal pool k (.rounds inner) cs) :
      Comes rules goal pool k (.rule (.repetition inner)) cs
  | named {k name cs} (on : Comes rules goal pool k (.rule (rules name)) cs) :
      Comes rules goal pool (k + 1) (.rule (.deferred name)) cs
  | built {k action inner cs} (on : Comes rules goal pool k (.rule inner) cs) :
      Comes rules goal pool k (.rule (.build action inner)) cs
  | part {k begun part parts cs} (on : Comes rules goal pool k (.rule part) cs) :
      Comes rules goal pool k (.parts begun (part :: parts)) cs
  | parts {k begun part parts cs next} (read : Gives rules (.rule part) cs (.ok next))
      (some_left : next ≠ []) (on : Comes rules goal pool k (.parts true parts) next) :
      Comes rules goal pool k (.parts begun (part :: parts)) cs
  | choice {k choice choices cs} (on : Comes rules goal pool k (.rule choice) cs) :
      Comes rules goal pool k (.each (choice :: choices)) cs
  | others {k choice choices cs outs} (read : Gives rules (.rule choice) cs (.ok outs))
      (on : Comes rules goal pool k (.each choices) cs) :
      Comes rules goal pool k (.each (choice :: choices)) cs
  | round {k inner cs} (some_left : cs ≠ []) (on : Comes rules goal pool k (.rule inner) cs) :
      Comes rules goal pool k (.rounds inner) cs
  | rounds {k inner cs outs} (some_left : cs ≠ [])
      (read : Gives rules (.rule inner) cs (.ok outs))
      (on : Comes rules goal pool k (.rounds inner) (kept cs outs)) :
      Comes rules goal pool k (.rounds inner) cs

variable {rules : ρ → Rule τ ι ρ} {task goal : Task τ ι ρ} {rule part inner : Rule τ ι ρ}
  {cs pool outs : Pool τ ι} {name : ρ} {k : Nat}

theorem Comes.forward (comes : Comes rules goal pool k task cs)
    (acts : Acts Candidate.KeepsPlace rules task.toRule) :
    ∀ d ∈ pool, ∃ c ∈ cs, d.tokens = c.tokens ∧ c.index ≤ d.index := by
  have on {cs next : Pool τ ι} {rule : Rule τ ι ρ} (keeps : Acts Candidate.KeepsPlace rules rule)
      (derived : ∀ d ∈ next, ∃ c ∈ cs, Derives rules AnyRound rule c d)
      (ih : ∀ d ∈ pool, ∃ c ∈ next, d.tokens = c.tokens ∧ c.index ≤ d.index) :
      ∀ d ∈ pool, ∃ c ∈ cs, d.tokens = c.tokens ∧ c.index ≤ d.index := by
    intro d mem
    obtain ⟨b, between, same, le⟩ := ih d mem
    obtain ⟨c, given, from_c⟩ := derived b between
    obtain ⟨same', le'⟩ := from_c.within keeps
    exact ⟨c, given, same.trans same', Nat.le_trans le' le⟩
  induction comes with
  | here => exact fun d mem => ⟨d, mem, rfl, Nat.le_refl _⟩
  | sequence _ ih | alternation _ ih | repetition _ ih => exact ih acts
  | named _ ih => exact ih acts.entered
  | built _ ih => exact ih acts.inside
  | part _ ih => exact ih acts.first
  | choice _ ih => exact ih (acts.choice_of_mem List.mem_cons_self)
  | others _ _ ih => exact ih acts.others
  | round _ _ ih => exact ih acts.round
  | parts read _ _ ih => exact on acts.first (read.sound _ rfl) (ih acts.later)
  | rounds _ read _ ih =>
    refine on acts.round (fun b between => ?_) (ih acts)
    exact read.sound _ rfl b (List.mem_filter.1 between).1

theorem Comes.ne_nil (comes : Comes rules (.rule rule) pool k task cs)
    (some_left : cs ≠ [] ∨ ∃ inner, task = .rounds inner) : pool ≠ [] := by
  generalize reached : Task.rule rule = goal at comes
  induction comes with
  | here =>
    rcases some_left with some_left | ⟨inner, rfl⟩
    · exact some_left
    · cases reached
  | sequence _ ih | alternation _ ih | named _ ih | built _ ih | part _ ih | choice _ ih
  | others _ _ ih =>
    rcases some_left with some_left | ⟨inner, impossible⟩
    · exact ih (.inl some_left)
    · cases impossible
  | repetition _ ih => exact ih (.inr ⟨_, rfl⟩)
  | parts _ some_next _ ih => exact ih (.inl some_next)
  | round some_there _ ih => exact ih (.inl some_there)
  | rounds _ _ _ ih => exact ih (.inr ⟨_, rfl⟩)

theorem Comes.taken (comes : Comes rules (.rule (.deferred name)) pool 0 task cs)
    (acts : Acts Candidate.KeepsPlace rules task.toRule) (apart : ¬Enters rules task.toRule name) :
    pool ≠ [] ∧ ∀ d ∈ pool, ∃ c ∈ cs, d.tokens = c.tokens ∧ c.index < d.index := by
  generalize reached : Task.rule (.deferred name) = goal at comes
  generalize none_named : 0 = k at comes
  induction comes with
  | here =>
    subst reached
    exact absurd .named apart
  | sequence _ ih => exact ih acts apart none_named
  | alternation _ ih => exact ih acts apart none_named
  | repetition _ ih => exact ih acts apart none_named
  | named => cases none_named
  | built _ ih => exact ih acts.inside (fun entered => apart (.built entered)) none_named
  | part _ ih => exact ih acts.first (fun entered => apart (.first entered)) none_named
  | @parts _ _ part parts cs next read some_left on ih =>
    subst reached
    by_cases idle : Idle rules part
    · obtain ⟨some_there, further⟩ :=
        ih acts.later (fun entered => apart (.later idle entered)) none_named
      refine ⟨some_there, fun d mem => ?_⟩
      obtain ⟨b, between, same, lt⟩ := further d mem
      obtain ⟨c, given, derived⟩ := read.sound _ rfl b between
      obtain ⟨same', le⟩ := derived.within acts.first
      exact ⟨c, given, same.trans same', Nat.lt_of_le_of_lt le lt⟩
    · refine ⟨on.ne_nil (.inl some_left), fun d mem => ?_⟩
      obtain ⟨b, between, same, le⟩ := on.forward acts.later d mem
      obtain ⟨c, given, derived⟩ := read.sound _ rfl b between
      obtain ⟨same', le'⟩ := derived.within acts.first
      have taken : b.index ≠ c.index := fun same_index => idle ⟨c, b, derived, same_index⟩
      exact ⟨c, given, same.trans same', by omega⟩
  | choice _ ih =>
    exact ih (acts.choice_of_mem List.mem_cons_self)
      (fun entered => apart (.choice List.mem_cons_self entered)) none_named
  | others _ _ ih =>
    refine ih acts.others (fun entered => apart ?_) none_named
    cases entered with
    | choice among chosen => exact .choice (List.mem_cons_of_mem _ among) chosen
  | round _ _ ih => exact ih acts.round (fun entered => apart (.round entered)) none_named
  | rounds _ read _ ih =>
    obtain ⟨some_there, further⟩ := ih acts apart none_named
    refine ⟨some_there, fun d mem => ?_⟩
    obtain ⟨b, between, same, lt⟩ := further d mem
    obtain ⟨c, given, derived⟩ := read.sound _ rfl b (List.mem_filter.1 between).1
    obtain ⟨same', le⟩ := derived.within acts.round
    exact ⟨c, given, same.trans same', Nat.lt_of_le_of_lt le lt⟩

end Rule

namespace Rulebook

open Rule

variable {book : Rulebook τ ι ρ} {rank : ρ → Nat} {goal task : Task τ ι ρ} {cs pool : Pool τ ι}
  {k : Nat}

/-- Along a branch no more named rules enter one another than the tokens left allow, each of them
for as many as the book chains, and the names that can come first. -/
theorem Guarded.depth_le (guarded : book.Guarded rank) (comes : Comes book.rule goal pool k task cs)
    (acts : Acts Candidate.KeepsPlace book.rule task.toRule) {room first : Nat}
    (within : cs.Within room)
    (low : ∀ name, Enters book.rule task.toRule name → rank name < first) :
    k ≤ room * book.chain + first := by
  induction comes generalizing room first with
  | here => exact Nat.zero_le _
  | sequence _ ih | alternation _ ih | repetition _ ih => exact ih acts within low
  | @named k name cs _ ih =>
    have := ih acts.entered within fun inner entered => guarded.falls entered
    have := low name .named
    omega
  | built _ ih => exact ih acts.inside within fun name entered => low name (.built entered)
  | part _ ih => exact ih acts.first within fun name entered => low name (.first entered)
  | @parts _ _ part parts cs next read some_left _ ih =>
    by_cases idle : Idle book.rule part
    · exact ih acts.later (within_of_derived acts.first (read.sound _ rfl) within)
        fun name entered => low name (.later idle entered)
    · obtain ⟨less, lt, fewer⟩ :=
        within_less_of_derived acts.first (read.sound _ rfl) within idle some_left
      have := ih acts.later fewer fun name _ => guarded.lt_chain name
      have : (less + 1) * book.chain ≤ room * book.chain := Nat.mul_le_mul_right _ lt
      rw [Nat.succ_mul] at this
      omega
  | choice _ ih =>
    exact ih (acts.choice_of_mem List.mem_cons_self) within fun name entered =>
      low name (.choice List.mem_cons_self entered)
  | others _ _ ih =>
    refine ih acts.others within fun name entered => low name ?_
    cases entered with
    | choice among chosen => exact .choice (List.mem_cons_of_mem _ among) chosen
  | round _ _ ih => exact ih acts.round within fun name entered => low name (.round entered)
  | rounds _ read _ ih =>
    refine ih acts (fun b between => ?_) low
    exact within_of_derived acts.round (read.sound _ rfl) within b (List.mem_filter.1 between).1

end Rulebook
end ActorScript
