import ActorScript.Proofs.Match.Starving

/-!
Which tokens a failed reading can blame: one that some candidate has not taken, and where a rule
begins with a token, one behind it.
-/
namespace ActorScript

variable {τ ι ρ : Type}

open Rule

/-- A reading that fails blames a token that some candidate has not taken. -/
def Blames (reading : Pool τ ι → Reading τ (Pool τ ι)) : Prop :=
  ∀ cs t, reading cs = .error (.unexpected t) → ∃ c ∈ cs, t ∈ c.rest

section Errors

variable {ε α β : Type} {x : Except ε α} {e : ε}

theorem bind_eq_error {f : α → Except ε β} :
    (x >>= f) = .error e ↔ x = .error e ∨ ∃ a, x = .ok a ∧ f a = .error e := by
  cases x with
  | error e' => simp [bind, Except.bind]
  | ok a => simp [bind, Except.bind]

theorem bind_pure_eq_error {f : α → β} : (x >>= fun a => pure (f a)) = .error e ↔ x = .error e := by
  rw [bind_eq_error]
  simp [pure, Except.pure]

end Errors

section Rest

variable {rules : ρ → Rule τ ι ρ} {round : Candidate τ ι → Candidate τ ι → Prop}
  {rule : Rule τ ι ρ} {accepts : τ → Bool} {cs : Pool τ ι} {c d : Candidate τ ι} {t : τ}

theorem Rule.Derives.rest_suffix (derived : Derives rules round rule c d)
    (acts : Acts Candidate.KeepsPlace rules rule) : d.rest <:+ c.rest := by
  obtain ⟨same, forward⟩ := derived.within acts
  rw [Candidate.rest, Candidate.rest, same]
  exact List.drop_suffix_drop_left c.tokens forward

theorem Rule.Opens.rest_suffix (opens : Opens accepts rule)
    (acts : Acts Candidate.KeepsPlace rules rule) (derived : Derives rules round rule c d) :
    d.rest <:+ c.rest.tail := by
  induction opens generalizing d with
  | terminal =>
    cases derived with
    | terminal taken =>
      obtain ⟨t, r, next, -, rfl⟩ := Candidate.take?_iff.1 taken
      rw [(Candidate.takes_skip next _).rest_eq next, next]
      exact List.suffix_refl r
  | sequence _ ih =>
    cases derived with
    | cons first rest => exact (rest.rest_suffix acts.later).trans (ih acts.first first)
  | build _ ih =>
    cases derived with
    | @built action _ _ b part =>
      have behind := ih acts.inside part
      obtain ⟨same, level⟩ := acts.built b
      rwa [Candidate.rest, same, level]

theorem mem_of_nextTokenError (blamed : nextTokenError cs = .unexpected t) :
    ∃ c ∈ cs, t ∈ c.rest := by
  unfold nextTokenError at blamed
  cases found : Pool.furthest? cs with
  | none => simp [found] at blamed
  | some c =>
    rw [found, Option.bind_some, peek?_eq_head?] at blamed
    cases next : c.rest.head? with
    | none => simp [next] at blamed
    | some u =>
      rw [next] at blamed
      obtain rfl := MatchError.unexpected.inj blamed
      exact ⟨c, (Pool.furthest?_spec found).1, List.mem_of_head? next⟩

end Rest

section Repetition

variable {rules : ρ → Rule τ ι ρ} {inner : Rule τ ι ρ}
  {reading : Pool τ ι → Reading τ (Pool τ ι)}

theorem Blames.repetitionFrom (blames : Blames reading)
    (sound : Sound (Derives rules AnyRound inner) reading)
    (acts : Acts Candidate.KeepsPlace rules inner) (rounds : Nat) :
    Blames (repetitionFrom reading rounds) := by
  induction rounds with
  | zero =>
    intro cs t failed
    unfold ActorScript.repetitionFrom at failed
    split at failed <;> cases failed
  | succ rounds ih =>
    intro cs t failed
    unfold ActorScript.repetitionFrom at failed
    split at failed
    · cases failed
    · rcases bind_eq_error.1 failed with first | ⟨next, round, later⟩
      · exact blames cs t (bind_pure_eq_error.1 first)
      · obtain ⟨d, mem, left⟩ := ih next t (bind_pure_eq_error.1 later)
        obtain ⟨outs, read, rfl⟩ := repetitionRound_eq_ok.1 round
        obtain ⟨c, given, once⟩ := sound cs outs read d (List.mem_filter.1 mem).1
        exact ⟨c, given, (once.rest_suffix acts).mem left⟩

end Repetition

namespace Rule

variable {rules : ρ → Rule τ ι ρ} {enter : ρ → Pool τ ι → Reading τ (Pool τ ι)}

section Unfolding

variable {parts choices : List (Rule τ ι ρ)} {part inner : Rule τ ι ρ} {cs outs : Pool τ ι}
  {e : MatchError τ}

theorem advanceFirst_cons_eq_error (failed : advanceFirst enter (part :: parts) cs = .error e) :
    advance enter part cs = .error e ∨
      ∃ next, advance enter part cs = .ok next ∧ advanceRest enter parts next = .error e := by
  rw [advanceFirst] at failed
  refine (bind_eq_error.1 failed).imp_right ?_
  rintro ⟨next, read, later⟩
  split at later
  · cases later
  · exact ⟨next, read, later⟩

theorem advanceRest_cons_eq_error (failed : advanceRest enter (part :: parts) cs = .error e) :
    advance enter part cs = .error e ∨ e = nextTokenError cs ∨
      ∃ next, advance enter part cs = .ok next ∧ advanceRest enter parts next = .error e := by
  rw [advanceRest] at failed
  refine (bind_eq_error.1 failed).imp_right ?_
  rintro ⟨next, read, later⟩
  split at later
  · exact .inl (Except.error.inj later).symm
  · exact .inr ⟨next, read, later⟩

theorem advanceEach_cons_eq_error (failed : advanceEach enter (part :: choices) cs = .error e) :
    advance enter part cs = .error e ∨ advanceEach enter choices cs = .error e := by
  rw [advanceEach] at failed
  refine (bind_eq_error.1 failed).imp_right ?_
  rintro ⟨outs, -, later⟩
  exact bind_pure_eq_error.1 later

theorem advance_build_eq_error {action : Candidate τ ι → Candidate τ ι}
    (failed : advance enter (.build action inner) cs = .error e) :
    advance enter inner cs = .error e := by
  rw [advance] at failed
  exact bind_pure_eq_error.1 failed

theorem advance_repetition_eq_error (failed : advance enter (.repetition inner) cs = .error e) :
    repetitionFrom (advance enter inner) (repetitionRounds cs) cs = .error e := by
  rw [advance] at failed
  exact bind_pure_eq_error.1 failed

end Unfolding

mutual

theorem advance_blames (sound : ∀ name, Sound (Derives rules AnyRound (rules name)) (enter name))
    (entered : ∀ name, Blames (enter name)) (rule : Rule τ ι ρ)
    (acts : Acts Candidate.KeepsPlace rules rule) : Blames (advance enter rule) := by
  intro cs t failed
  cases rule with
  | terminal accepts item =>
    rw [advance] at failed
    cases failed
  | sequence parts =>
    rw [advance] at failed
    exact advanceFirst_blames sound entered parts acts cs t failed
  | alternation choices =>
    rw [advance] at failed
    exact advanceEach_blames sound entered choices acts cs t failed
  | repetition inner =>
    exact (advance_blames sound entered inner acts.round).repetitionFrom
      (advance_sound sound inner) acts.round _ cs t (advance_repetition_eq_error failed)
  | empty =>
    rw [advance] at failed
    cases failed
  | deferred name =>
    rw [advance] at failed
    exact entered name cs t failed
  | build action inner =>
    exact advance_blames sound entered inner acts.inside cs t (advance_build_eq_error failed)

theorem advanceFirst_blames
    (sound : ∀ name, Sound (Derives rules AnyRound (rules name)) (enter name))
    (entered : ∀ name, Blames (enter name)) (parts : List (Rule τ ι ρ))
    (acts : Acts Candidate.KeepsPlace rules (.sequence parts)) :
    Blames (advanceFirst enter parts) := by
  intro cs t failed
  cases parts with
  | nil => cases failed
  | cons part parts =>
    rcases advanceFirst_cons_eq_error failed with first | ⟨next, read, later⟩
    · exact advance_blames sound entered part acts.first cs t first
    · obtain ⟨d, mem, left⟩ := advanceRest_blames sound entered parts acts.later next t later
      obtain ⟨c, given, derived⟩ := advance_sound sound part cs next read d mem
      exact ⟨c, given, (derived.rest_suffix acts.first).mem left⟩

theorem advanceRest_blames
    (sound : ∀ name, Sound (Derives rules AnyRound (rules name)) (enter name))
    (entered : ∀ name, Blames (enter name)) (parts : List (Rule τ ι ρ))
    (acts : Acts Candidate.KeepsPlace rules (.sequence parts)) :
    Blames (advanceRest enter parts) := by
  intro cs t failed
  cases parts with
  | nil => cases failed
  | cons part parts =>
    rcases advanceRest_cons_eq_error failed with first | stuck | ⟨next, read, later⟩
    · exact advance_blames sound entered part acts.first cs t first
    · exact mem_of_nextTokenError stuck.symm
    · obtain ⟨d, mem, left⟩ := advanceRest_blames sound entered parts acts.later next t later
      obtain ⟨c, given, derived⟩ := advance_sound sound part cs next read d mem
      exact ⟨c, given, (derived.rest_suffix acts.first).mem left⟩

theorem advanceEach_blames
    (sound : ∀ name, Sound (Derives rules AnyRound (rules name)) (enter name))
    (entered : ∀ name, Blames (enter name)) (choices : List (Rule τ ι ρ))
    (acts : Acts Candidate.KeepsPlace rules (.alternation choices)) :
    Blames (advanceEach enter choices) := by
  intro cs t failed
  cases choices with
  | nil => cases failed
  | cons choice choices =>
    rcases advanceEach_cons_eq_error failed with first | others
    · exact advance_blames sound entered choice (acts.choice_of_mem List.mem_cons_self) cs t first
    · exact advanceEach_blames sound entered choices acts.others cs t others

end

section Opens

variable {rule : Rule τ ι ρ} {accepts : τ → Bool} {cs outs : Pool τ ι} {c : Candidate τ ι} {t : τ}
  {parts : List (Rule τ ι ρ)} {r : List τ}

theorem Opens.blames_behind (opens : Opens accepts rule)
    (acts : Acts Candidate.KeepsPlace rules rule)
    (sound : ∀ name, Sound (Derives rules AnyRound (rules name)) (enter name))
    (entered : ∀ name, Blames (enter name))
    (failed : advance enter rule cs = .error (.unexpected t)) : ∃ c ∈ cs, t ∈ c.rest.tail := by
  induction opens with
  | terminal =>
    rw [advance] at failed
    cases failed
  | @sequence part parts first ih =>
    rw [advance] at failed
    rcases advanceFirst_cons_eq_error failed with at_first | ⟨next, read, later⟩
    · exact ih acts.first at_first
    · obtain ⟨d, mem, left⟩ := advanceRest_blames sound entered parts acts.later next t later
      obtain ⟨c, given, derived⟩ := advance_sound sound part cs next read d mem
      exact ⟨c, given, (first.rest_suffix acts.first derived).mem left⟩
  | build _ ih => exact ih acts.inside (advance_build_eq_error failed)

theorem advanceRest_ne_nil (some_left : cs ≠ []) (read : advanceRest enter parts cs = .ok outs) :
    outs ≠ [] := by
  induction parts generalizing cs with
  | nil =>
    obtain rfl := Except.ok.inj read
    exact some_left
  | cons part parts ih =>
    obtain ⟨next, -, some_next, later⟩ := advanceRest_cons_eq_ok.1 read
    exact ih some_next later

theorem Opens.ne_nil (opens : Opens accepts rule) (next : c.rest = t :: r)
    (accepted : accepts t = true) (read : advance enter rule [c] = .ok outs) : outs ≠ [] := by
  induction opens generalizing outs with
  | @terminal item =>
    rw [advance_terminal_of_rest next accepted] at read
    obtain rfl := Except.ok.inj read
    exact List.cons_ne_nil _ []
  | sequence _ ih =>
    rw [advance] at read
    obtain ⟨first, once, ⟨none_left, -⟩ | ⟨some_left, later⟩⟩ := advanceFirst_cons_eq_ok.1 read
    · exact absurd none_left (ih once)
    · exact advanceRest_ne_nil some_left later
  | build _ ih =>
    obtain ⟨made, once, rfl⟩ := advance_build_eq_ok.1 read
    intro nothing
    exact ih once (List.map_eq_nil_iff.1 nothing)

end Opens

end Rule

namespace Rulebook

variable (book : Rulebook τ ι ρ) {rule : Rule τ ι ρ} {start d : Candidate τ ι} {outs : Pool τ ι}
  {e : MatchError τ} {t : τ}

theorem enter_blames (keeps : ∀ name, ∀ action ∈ (book.rule name).actions,
    Candidate.KeepsPlace action) (depth : Nat) (name : ρ) : Blames (book.enter depth name) := by
  induction depth generalizing name with
  | zero =>
    intro cs t failed
    cases failed
  | succ depth ih =>
    exact advance_blames (book.enter_sound depth) ih (book.rule name) ⟨keeps name, keeps⟩

theorem complete_eq_error (failed : book.complete rule start = .error e) :
    book.read rule [start] = .error e ∨ ∃ outs, book.read rule [start] = .ok outs ∧
      e = nextTokenError ((Pool.furthest? outs).getD start :: []) := by
  rw [complete, best, bind_assoc] at failed
  refine (bind_eq_error.1 failed).imp_right ?_
  rintro ⟨outs, read, later⟩
  refine ⟨outs, read, ?_⟩
  rw [pure_bind] at later
  cases found : Pool.furthest? outs with
  | none =>
    rw [found] at later
    exact (Except.error.inj later).symm
  | some c =>
    rw [found] at later
    dsimp only at later
    split at later
    · cases later
    · exact (Except.error.inj later).symm

theorem mem_of_complete (acts : Acts Candidate.KeepsPlace book.rule rule)
    (failed : book.complete rule start = .error (.unexpected t)) : t ∈ start.rest := by
  rcases book.complete_eq_error failed with failed | ⟨outs, read, stuck⟩
  · obtain ⟨c, given, left⟩ :=
      advance_blames (book.enter_sound _) (book.enter_blames acts.named _) rule acts _ t failed
    obtain rfl := List.mem_singleton.1 given
    exact left
  · obtain ⟨d, given, left⟩ := mem_of_nextTokenError stuck.symm
    obtain rfl := List.mem_singleton.1 given
    cases found : Pool.furthest? outs with
    | none =>
      rw [found] at left
      exact left
    | some c =>
      rw [found] at left
      have derived := (book.read_sound rule).of_singleton read (Pool.furthest?_spec found).1
      exact (derived.rest_suffix acts).mem left

end Rulebook
end ActorScript
