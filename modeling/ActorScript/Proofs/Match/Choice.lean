import ActorScript.Proofs.Match.Blame

/-!
What a reading settles on. Of the candidates that a rule leads to, the first of those that took the
most tokens counts. Where all of them share their tokens, this is the first that took all tokens,
wherever one did; where none did, the token is blamed that no candidate got past.
-/
namespace ActorScript

variable {τ ι ρ : Type}

namespace Pool

variable {cs : Pool τ ι} {d : Candidate τ ι}

theorem furthest?_eq_some : furthest? cs = some d ↔ ∃ before after, cs = before ++ d :: after ∧
    (∀ c ∈ before, c.index < d.index) ∧ ∀ c ∈ after, c.index ≤ d.index := by
  constructor
  · intro found
    induction cs with
    | nil => simp [furthest?] at found
    | cons c cs ih =>
      rw [furthest?] at found
      cases later : furthest? cs with
      | none =>
        obtain rfl := furthest?_eq_none.1 later
        obtain rfl : c = d := by simpa [later] using found
        exact ⟨[], [], rfl, by simp, by simp⟩
      | some b =>
        rw [later] at found
        dsimp only at found
        split at found
        · rename_i overtaken
          obtain rfl := Option.some.inj found
          obtain ⟨before, after, rfl, fewer, no_more⟩ := ih later
          exact ⟨c :: before, after, rfl, List.forall_mem_cons.2 ⟨overtaken, fewer⟩, no_more⟩
        · rename_i not_overtaken
          obtain rfl := Option.some.inj found
          refine ⟨[], cs, rfl, by simp, fun a mem => ?_⟩
          exact Nat.le_trans ((furthest?_spec later).2 a mem) (Nat.le_of_not_lt not_overtaken)
  · rintro ⟨before, after, rfl, fewer, no_more⟩
    induction before with
    | nil =>
      rw [List.nil_append, furthest?]
      cases later : furthest? after with
      | none => rfl
      | some b => exact if_neg (Nat.not_lt_of_le (no_more b (furthest?_spec later).1))
    | cons c before ih =>
      obtain ⟨overtaken, fewer⟩ := List.forall_mem_cons.1 fewer
      rw [List.cons_append, furthest?, ih fewer]
      exact if_pos overtaken

/-- How far a reading from `start` got: to the largest index among its candidates, or nowhere. -/
inductive Reaches (start : Candidate τ ι) : Pool τ ι → Nat → Prop where
  | nowhere : Reaches start [] start.index
  | furthest {outs : Pool τ ι} {c : Candidate τ ι} (among : c ∈ outs)
      (most : ∀ d ∈ outs, d.index ≤ c.index) : Reaches start outs c.index

end Pool

theorem nextTokenError_eq_elim (c : Candidate τ ι) :
    nextTokenError [c] = c.tokens[c.index]?.elim .exhausted .unexpected := by
  rw [nextTokenError, Pool.furthest?, Pool.furthest?, Option.bind_some, Candidate.peek?]
  cases c.tokens[c.index]? <;> rfl

namespace Rulebook

open Rule

variable (book : Rulebook τ ι ρ) {rule : Rule τ ι ρ} {start c d : Candidate τ ι} {outs : Pool τ ι}

section Furthest

theorem complete_of_error {e : MatchError τ} (failed : book.read rule [start] = .error e) :
    book.complete rule start = .error e := by
  rw [complete, best, failed]
  rfl

theorem complete_of_nil (read : book.read rule [start] = .ok []) :
    book.complete rule start =
      .error (start.tokens[start.index]?.elim .exhausted .unexpected) := by
  rw [complete, best, read]
  exact congrArg Except.error (nextTokenError_eq_elim start)

theorem complete_of_furthest (read : book.read rule [start] = .ok outs)
    (furthest : Pool.furthest? outs = some c) : book.complete rule start =
      if c.isDone then .ok c else .error (c.tokens[c.index]?.elim .exhausted .unexpected) := by
  rw [complete, best, read, ← nextTokenError_eq_elim]
  simp only [bind, Except.bind, pure, Except.pure, furthest]

end Furthest

section Shared

variable (acts : Acts Candidate.KeepsTokens book.rule rule)

include acts

theorem index_lt_of_done (read : book.read rule [start] = .ok outs) (among : c ∈ outs)
    (done : c.isDone = true) (mem : d ∈ outs) (not_done : d.isDone = false) :
    d.index < c.index := by
  rw [Candidate.isDone, decide_eq_true_eq, book.tokens_of_read acts read among] at done
  rw [Candidate.isDone, decide_eq_false_iff_not, book.tokens_of_read acts read mem] at not_done
  omega

theorem complete_eq_ok_iff : book.complete rule start = .ok c ↔ ∃ before after,
    book.read rule [start] = .ok (before ++ c :: after) ∧ c.isDone = true ∧
      ∀ d ∈ before, d.isDone = false := by
  rw [complete_iff]
  constructor
  · rintro ⟨outs, read, furthest, done⟩
    obtain ⟨before, after, rfl, fewer, -⟩ := Pool.furthest?_eq_some.1 furthest
    refine ⟨before, after, read, done, fun d mem => ?_⟩
    rw [Bool.eq_false_iff]
    intro also
    have := fewer d mem
    have := book.index_le_of_done acts read (List.mem_append_left _ mem) also (d := c) (by simp)
    omega
  · rintro ⟨before, after, read, done, none_before⟩
    refine ⟨_, read, Pool.furthest?_eq_some.2 ⟨before, after, rfl, fun d mem => ?_,
      fun d mem => ?_⟩, done⟩
    · exact book.index_lt_of_done acts read (by simp) done (List.mem_append_left _ mem)
        (none_before d mem)
    · exact book.index_le_of_done acts read (by simp) done (by simp [mem])

theorem complete_of_none_done (read : book.read rule [start] = .ok outs)
    (none_done : ∀ d ∈ outs, d.isDone = false) : ∃ n, Pool.Reaches start outs n ∧
      book.complete rule start = .error (start.tokens[n]?.elim .exhausted .unexpected) := by
  cases found : Pool.furthest? outs with
  | none =>
    obtain rfl := Pool.furthest?_eq_none.1 found
    exact ⟨start.index, .nowhere, book.complete_of_nil read⟩
  | some c =>
    obtain ⟨among, most⟩ := Pool.furthest?_spec found
    refine ⟨c.index, .furthest among most, ?_⟩
    rw [book.complete_of_furthest read found, none_done c among,
      book.tokens_of_read acts read among]
    rfl

end Shared

end Rulebook
end ActorScript
