import ActorScript.Proofs.Match.Passing

/-!
Readings that fail where the tokens end. A pool with a candidate that has taken all tokens blames
none of them; a sequence starves with its first part that does, and an alternation whose choices
begin with different tokens starves with the choice that the next token belongs to.
-/
namespace ActorScript

variable {τ ι ρ : Type}

section Blame

variable {cs : Pool τ ι} {c d : Candidate τ ι}

theorem peek?_eq_head? (c : Candidate τ ι) : c.peek? = c.rest.head? := by
  rw [Candidate.peek?, Candidate.rest, List.head?_drop]

theorem nextTokenError_of_all_ended (ended : ∀ c ∈ cs, c.rest = []) :
    nextTokenError cs = .exhausted := by
  rw [nextTokenError]
  cases found : Pool.furthest? cs with
  | none => rfl
  | some d =>
    have nothing := ended d (Pool.furthest?_spec found).1
    rw [Option.bind_some, peek?_eq_head?, nothing]
    rfl

theorem nextTokenError_of_ended (given : c ∈ cs) (ended : c.rest = [])
    (same : ∀ d ∈ cs, d.tokens = c.tokens) : nextTokenError cs = .exhausted := by
  rw [nextTokenError]
  cases found : Pool.furthest? cs with
  | none => rfl
  | some d =>
    obtain ⟨among, most⟩ := Pool.furthest?_spec found
    have farthest := most c given
    have all_taken : c.tokens.length ≤ c.index := List.drop_eq_nil_iff.1 ended
    have nothing : d.rest = [] := by
      apply List.drop_eq_nil_iff.2
      rw [same d among]
      omega
    rw [Option.bind_some, peek?_eq_head?, nothing]
    rfl

theorem nextTokenError_singleton {t : τ} {r : List τ} (next : c.rest = t :: r) :
    nextTokenError [c] = .unexpected t := by
  rw [nextTokenError, Pool.furthest?, Pool.furthest?, Option.bind_some, peek?_eq_head?, next]
  rfl

end Blame

section Repetition

variable {reading : Pool τ ι → Reading τ (Pool τ ι)} {rounds : Nat} {cs : Pool τ ι}
  {c d : Candidate τ ι} {error : MatchError τ}

theorem repetitionFrom_of_error (some_left : cs ≠ []) (failed : reading cs = .error error) :
    repetitionFrom reading (rounds + 1) cs = .error error := by
  rw [repetitionFrom, if_neg (by simpa using some_left), repetitionRound, failed]
  rfl

theorem repetitionFrom_of_later_error (read : reading [c] = .ok [d]) (farther : c.index < d.index)
    (failed : repetitionFrom reading rounds [d] = .error error) :
    repetitionFrom reading (rounds + 1) [c] = .error error := by
  have round : repetitionRound reading [c] = .ok [d] := by
    refine repetitionRound_eq_ok.2 ⟨[d], read, ?_⟩
    rw [List.filter_cons_of_pos (by exact decide_eq_true farther), List.filter_nil]
  rw [repetitionFrom, if_neg (by simp), round]
  show (repetitionFrom reading rounds [d] >>= _) = _
  rw [failed]
  rfl

end Repetition

namespace Rule

variable {enter : ρ → Pool τ ι → Reading τ (Pool τ ι)} {part inner rule : Rule τ ι ρ}
  {parts choices : List (Rule τ ι ρ)} {cs next : Pool τ ι} {c : Candidate τ ι}
  {accepts : τ → Bool} {item : Option (τ → ι)} {t : τ} {r : List τ} {error : MatchError τ}

section Sequence

theorem advanceRest_of_error (failed : advance enter part cs = .error error) :
    advanceRest enter (part :: parts) cs = .error error := by
  rw [advanceRest, failed]
  rfl

theorem advanceRest_of_nil (read : advance enter part cs = .ok []) :
    advanceRest enter (part :: parts) cs = .error (nextTokenError cs) := by
  rw [advanceRest, read]
  rfl

theorem advanceRest_of_ok (read : advance enter part cs = .ok next) (some_left : next ≠ []) :
    advanceRest enter (part :: parts) cs = advanceRest enter parts next := by
  rw [advanceRest, read]
  exact if_neg (by simpa using some_left)

theorem advanceRest_terminal (follows : c.rest = t :: r) (accepted : accepts t = true) :
    advanceRest enter (.terminal accepts item :: parts) [c] =
      advanceRest enter parts [c.skip item t] :=
  advanceRest_of_ok (advance_terminal_of_rest follows accepted) (List.cons_ne_nil _ _)

theorem advance_lead (follows : c.rest = t :: r) (accepted : accepts t = true) :
    advance enter (.sequence (.terminal accepts item :: parts)) [c] =
      advanceRest enter parts [c.skip item t] := by
  rw [advance, advanceFirst, advance_terminal_of_rest follows accepted]
  rfl

theorem advanceRest_append (others : List (Rule τ ι ρ)) (cs : Pool τ ι) :
    advanceRest enter (parts ++ others) cs =
      (do advanceRest enter others (← advanceRest enter parts cs)) := by
  induction parts generalizing cs with
  | nil => rfl
  | cons part parts ih =>
    rw [List.cons_append]
    cases read : advance enter part cs with
    | error error =>
      rw [advanceRest_of_error read, advanceRest_of_error read]
      rfl
    | ok next =>
      by_cases none_left : next = []
      · subst none_left
        rw [advanceRest_of_nil read, advanceRest_of_nil read]
        rfl
      · rw [advanceRest_of_ok read none_left, advanceRest_of_ok read none_left, ih]

theorem advance_build_of_error {action : Candidate τ ι → Candidate τ ι}
    (failed : advance enter inner cs = .error error) :
    advance enter (.build action inner) cs = .error error := by
  rw [advance, failed]
  rfl

end Sequence

section Alternation

theorem Opens.unique {accepts' : τ → Bool} (first : Opens accepts rule)
    (second : Opens accepts' rule) : accepts = accepts' := by
  induction first with
  | terminal => cases second; rfl
  | sequence _ ih => cases second with | sequence second => exact ih second
  | build _ ih => cases second with | build second => exact ih second

theorem advanceEach_of_closed {openings : List (τ → Bool)}
    (opens : List.Forall₂ Opens openings choices)
    (closed : ∀ opening ∈ openings, ∀ t ∈ c.rest.head?, opening t = false) :
    advanceEach enter choices [c] = .ok [] := by
  induction opens with
  | nil => rfl
  | cons first _ ih =>
    obtain ⟨shut, others⟩ := List.forall_mem_cons.1 closed
    rw [advanceEach, first.advance_eq shut, ih others]
    rfl

/-- Where no two choices begin with the same token, reading them all is reading the one that the
next token belongs to. -/
theorem advanceEach_of_exclusive {openings : List (τ → Bool)}
    (opens : List.Forall₂ Opens openings choices)
    (exclusive : openings.Pairwise fun first second => ∀ t, first t = true → second t = false)
    (among : rule ∈ choices) (begins : Opens accepts rule) (follows : c.rest = t :: r)
    (accepted : accepts t = true) :
    advanceEach enter choices [c] = advance enter rule [c] := by
  have head {accepts' : τ → Bool} (rejected : accepts' t = false) :
      ∀ u ∈ c.rest.head?, accepts' u = false := by
    intro u next
    rw [follows] at next
    obtain rfl := Option.some.inj next
    exact rejected
  induction opens with
  | nil => simp at among
  | @cons opening choice openings choices first others ih =>
    obtain ⟨apart, exclusive⟩ := List.pairwise_cons.1 exclusive
    rcases List.mem_cons.1 among with rfl | among
    · obtain rfl := first.unique begins
      rw [advanceEach,
        advanceEach_of_closed others fun other mem => head (apart other mem t accepted)]
      cases advance enter rule [c] with
      | error error => rfl
      | ok outs =>
        show Except.ok (outs ++ []) = _
        rw [List.append_nil]
    · obtain ⟨opening', mem, begins'⟩ := exists_of_forall₂ others among
      obtain rfl := begins'.unique begins
      have shut : opening t = false := by
        rw [Bool.eq_false_iff]
        intro also
        simp [apart _ mem t also] at accepted
      rw [advanceEach, first.advance_eq (head shut), ih exclusive among]
      cases advance enter rule [c] <;> rfl

theorem advanceEach_append (others : List (Rule τ ι ρ)) (cs : Pool τ ι) :
    advanceEach enter (choices ++ others) cs = (do
      let outs ← advanceEach enter choices cs
      let more ← advanceEach enter others cs
      return outs ++ more) := by
  induction choices with
  | nil =>
    rw [List.nil_append]
    cases advanceEach enter others cs <;> rfl
  | cons choice choices ih =>
    rw [List.cons_append, advanceEach, advanceEach, ih]
    cases advance enter choice cs with
    | error error => rfl
    | ok outs =>
      cases advanceEach enter choices cs with
      | error error => rfl
      | ok more =>
        cases advanceEach enter others cs with
        | error error => rfl
        | ok last =>
          show Except.ok (outs ++ (more ++ last)) = Except.ok (outs ++ more ++ last)
          rw [List.append_assoc]

end Alternation

end Rule

theorem Rulebook.complete_of_stuck (book : Rulebook τ ι ρ) {rule : Rule τ ι ρ}
    {start d : Candidate τ ι} {outs : Pool τ ι} {t : τ} {r : List τ}
    (read : book.read rule [start] = .ok outs) (furthest : Pool.furthest? outs = some d)
    (next : d.rest = t :: r) : book.complete rule start = .error (.unexpected t) := by
  have not_done : d.isDone = false := by
    rw [Bool.eq_false_iff]
    intro done
    rw [Candidate.isDone_iff.1 done] at next
    exact List.cons_ne_nil t r next.symm
  have best : book.best rule start = .ok (some d) := by
    rw [Rulebook.best, read]
    exact congrArg Except.ok furthest
  rw [complete, best]
  show (if d.isDone then _ else Except.error (nextTokenError [d])) = _
  rw [if_neg (by simp [not_done]), nextTokenError_singleton next]

end ActorScript
