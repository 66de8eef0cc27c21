import ActorScript.Proofs.Match.Derivation
import Mathlib.Logic.Relation

/-!
What a repetition drops. It goes on in rounds, and of what a round makes it keeps what stands beyond
the smallest index that the round began with. A match that takes no token is dropped at that index;
where another candidate of its round stands behind it, it is kept.
-/
namespace ActorScript

open Relation Rule

variable {τ ι ρ : Type}

namespace Pool

theorem smallestIndex_lt_iff {cs : Pool τ ι} (some_left : cs ≠ []) {n : Nat} :
    smallestIndex cs < n ↔ ∃ b ∈ cs, b.index < n := by
  constructor
  · intro beyond
    obtain ⟨b, mem, smallest⟩ := exists_smallestIndex some_left
    exact ⟨b, mem, by omega⟩
  · rintro ⟨b, mem, behind⟩
    exact Nat.lt_of_le_of_lt (smallestIndex_le mem) behind

end Pool

section Rounds

variable {rules : ρ → Rule τ ι ρ} {inner : Rule τ ι ρ}
  {reading : Pool τ ι → Reading τ (Pool τ ι)} {cs before after pool made : Pool τ ι}
  {c d : Candidate τ ι}

/-- A round begins with `before`, and the next with what it keeps. -/
def NextPool (reading : Pool τ ι → Reading τ (Pool τ ι)) (before after : Pool τ ι) : Prop :=
  before ≠ [] ∧ repetitionRound reading before = .ok after

/-- A round begins with `pool` in the repetition of `cs`. -/
abbrev BeginsRound (reading : Pool τ ι → Reading τ (Pool τ ι)) (pool cs : Pool τ ι) : Prop :=
  ReflTransGen (NextPool reading) cs pool

/-- The rounds of a repetition of `cs` make the candidate, while another stands behind it. -/
def MadeBeyond (reading : Pool τ ι → Reading τ (Pool τ ι)) (cs : Pool τ ι) (d : Candidate τ ι) :
    Prop :=
  ∃ pool made, BeginsRound reading pool cs ∧ reading pool = .ok made ∧ d ∈ made ∧
    ∃ b ∈ pool, b.index < d.index

/-- A match of the inner rule that takes a token. -/
def TakingMatch (rules : ρ → Rule τ ι ρ) (inner : Rule τ ι ρ) (c d : Candidate τ ι) : Prop :=
  Derives rules AnyRound inner c d ∧ c.index < d.index

/-- A match of the inner rule that takes a token, or begins where another candidate of the same
round stands behind. -/
def KeptMatch (rules : ρ → Rule τ ι ρ) (inner : Rule τ ι ρ)
    (reading : Pool τ ι → Reading τ (Pool τ ι)) (cs : Pool τ ι) (c d : Candidate τ ι) : Prop :=
  Derives rules AnyRound inner c d ∧ (c.index < d.index ∨
    ∃ pool, BeginsRound reading pool cs ∧ c ∈ pool ∧ ∃ b ∈ pool, b.index < c.index)

theorem NextPool.mem_iff (next : NextPool reading before after) :
    d ∈ after ↔ ∃ made, reading before = .ok made ∧ d ∈ made ∧ ∃ b ∈ before, b.index < d.index := by
  obtain ⟨some_left, round⟩ := next
  obtain ⟨made, read, rfl⟩ := repetitionRound_eq_ok.1 round
  rw [List.mem_filter, decide_eq_true_eq, Pool.smallestIndex_lt_iff some_left]
  constructor
  · rintro ⟨mem, behind⟩
    exact ⟨made, read, mem, behind⟩
  · rintro ⟨made', read', mem, behind⟩
    obtain rfl := Except.ok.inj (read.symm.trans read')
    exact ⟨mem, behind⟩

/-- What a repetition that comes to its end has found besides its inputs is what its rounds make. -/
theorem mem_repetitionFrom_iff {rounds : Nat} {more : Pool τ ι}
    (read : repetitionFrom reading rounds cs = .ok more) :
    d ∈ more ↔ MadeBeyond reading cs d := by
  refine repetitionFrom_cases (motive := fun cs more => d ∈ more ↔ MadeBeyond reading cs d) ?_
    (fun {cs next rest} some_left round ih => ?_) read
  · refine ⟨fun mem => absurd mem List.not_mem_nil, ?_⟩
    rintro ⟨pool, made, begins, -, -, b, standing, -⟩
    rcases begins.cases_head with rfl | ⟨next, follows, -⟩
    · exact absurd standing List.not_mem_nil
    · exact absurd rfl follows.1
  · have follows : NextPool reading cs next := ⟨some_left, round⟩
    rw [List.mem_append, ih]
    constructor
    · rintro (here | ⟨pool, made, begins, read_pool, among, behind⟩)
      · obtain ⟨made, read_cs, among, behind⟩ := follows.mem_iff.1 here
        exact ⟨cs, made, .refl, read_cs, among, behind⟩
      · exact ⟨pool, made, .head follows begins, read_pool, among, behind⟩
    · rintro ⟨pool, made, begins, read_pool, among, behind⟩
      rcases begins.cases_head with rfl | ⟨next', follows', begins'⟩
      · exact .inl (follows.mem_iff.2 ⟨made, read_pool, among, behind⟩)
      · obtain rfl := Except.ok.inj (round.symm.trans follows'.2)
        exact .inr ⟨pool, made, begins', read_pool, among, behind⟩

/-- Each candidate with which a round begins is one of those given, or ends a chain of matches that
the rounds kept. -/
theorem chain_of_beginsRound (sound : Sound (Derives rules AnyRound inner) reading)
    (begins : BeginsRound reading pool cs) (mem : d ∈ pool) :
    d ∈ cs ∨ ∃ c ∈ cs, TransGen (KeptMatch rules inner reading cs) c d := by
  induction begins generalizing d with
  | refl => exact .inl mem
  | @tail pool next begins follows ih =>
    obtain ⟨made, read, among, b, standing, behind⟩ := follows.mem_iff.1 mem
    obtain ⟨c, given, derived⟩ := sound pool made read d among
    have kept : KeptMatch rules inner reading cs c d := by
      refine ⟨derived, ?_⟩
      by_cases takes : c.index < d.index
      · exact .inl takes
      · exact .inr ⟨pool, begins, given, b, standing, by omega⟩
    rcases ih given with input | ⟨first, input, chain⟩
    · exact .inr ⟨c, input, .single kept⟩
    · exact .inr ⟨first, input, .tail chain kept⟩

end Rounds

namespace Rulebook

/-- Besides its inputs, a repetition yields exactly what its rounds make beyond the smallest index
that each begins with. So it yields nothing but ends of chains of matches, of which each takes a
token or begins where another candidate of its round stands behind; and where the inner rule cannot
match without a token, or all candidates of a round stand level, each takes a token. -/
theorem repetition_drops_at_smallest_index (book : Rulebook τ ι ρ) (inner : Rule τ ι ρ)
    {cs outs : Pool τ ι} (read : book.read (.repetition inner) cs = .ok outs) :
    let reading := inner.advance (book.enter (book.depth cs))
    (∀ d, d ∈ outs ↔ d ∈ cs ∨ MadeBeyond reading cs d) ∧
    (∀ d ∈ outs, d ∈ cs ∨ ∃ c ∈ cs, TransGen (KeptMatch book.rule inner reading cs) c d) ∧
    ((∀ c d, Derives book.rule AnyRound inner c d → c.index < d.index) ∨
      (∀ pool, BeginsRound reading pool cs → ∀ a ∈ pool, ∀ b ∈ pool, a.index = b.index) →
        ∀ d ∈ outs, d ∈ cs ∨ ∃ c ∈ cs, TransGen (TakingMatch book.rule inner) c d) := by
  intro reading
  have sound : Sound (Derives book.rule AnyRound inner) reading :=
    advance_sound (book.enter_sound _) inner
  obtain ⟨more, rounds, rfl⟩ := advance_repetition_eq_ok.1 read
  have yields (d : Candidate τ ι) : d ∈ cs ++ more ↔ d ∈ cs ∨ MadeBeyond reading cs d := by
    rw [List.mem_append, mem_repetitionFrom_iff rounds]
  have chained : ∀ d ∈ cs ++ more,
      d ∈ cs ∨ ∃ c ∈ cs, TransGen (KeptMatch book.rule inner reading cs) c d := by
    intro d mem
    rcases (yields d).1 mem with input | ⟨pool, made, begins, read_pool, among, behind⟩
    · exact .inl input
    · have next : NextPool reading pool (made.filter fun c => pool.smallestIndex < c.index) :=
        ⟨List.ne_nil_of_mem behind.choose_spec.1, repetitionRound_eq_ok.2 ⟨made, read_pool, rfl⟩⟩
      exact chain_of_beginsRound sound (.tail begins next)
        (next.mem_iff.2 ⟨made, read_pool, among, behind⟩)
  refine ⟨yields, chained, fun even d mem => (chained d mem).imp_right ?_⟩
  have takes {a b : Candidate τ ι} (kept : KeptMatch book.rule inner reading cs a b) :
      TakingMatch book.rule inner a b := by
    refine ⟨kept.1, ?_⟩
    rcases even with always | level
    · exact always a b kept.1
    · rcases kept.2 with forward | ⟨pool, begins, here, other, there, behind⟩
      · exact forward
      · have := level pool begins a here other there
        omega
  rintro ⟨c, input, chain⟩
  exact ⟨c, input, TransGen.mono (fun _ _ => takes) c d chain⟩

/-- A rule that takes no token and leaves a mark is repeated where one candidate has taken the only
token and one has not. The mark is found once on the one and never on the other. -/
theorem mark_kept_ahead :
    let mark : Rule Char Char Unit := .build (.rework fun c => '*' :: c.stack) .empty
    let book : Rulebook Char Char Unit := ⟨fun _ => .empty, 1⟩
    let ahead : Candidate Char Char := ⟨['a'], 1, ['a'], by decide⟩
    let behind : Candidate Char Char := .start ['a']
    let outs : Pool Char Char := [ahead, behind, ⟨['a'], 1, ['*', 'a'], by decide⟩]
    book.read (.repetition mark) [ahead, behind] = .ok outs ∧
      MadeBeyond (mark.advance (book.enter (book.depth [ahead, behind]))) [ahead, behind]
        ⟨['a'], 1, ['*', 'a'], by decide⟩ ∧
      ¬ MadeBeyond (mark.advance (book.enter (book.depth [ahead, behind]))) [ahead, behind]
        ⟨['a'], 0, ['*'], by decide⟩ := by
  intro mark book ahead behind outs
  have read : book.read (.repetition mark) [ahead, behind] = .ok outs := rfl
  obtain ⟨yields, -⟩ := repetition_drops_at_smallest_index book mark read
  have kept := (yields ⟨['a'], 1, ['*', 'a'], by decide⟩).1 (by decide)
  refine ⟨read, kept.resolve_left (by decide), fun beyond => ?_⟩
  have among := (yields ⟨['a'], 0, ['*'], by decide⟩).2 (.inr beyond)
  exact absurd among (by decide)

/-- What is yielded there with the mark is no input, and no chain of matches that take a token ends
in it, since the mark takes none. -/
theorem mark_not_taken :
    let mark : Rule Char Char Unit := .build (.rework fun c => '*' :: c.stack) .empty
    let book : Rulebook Char Char Unit := ⟨fun _ => .empty, 1⟩
    let cs : Pool Char Char := [⟨['a'], 1, ['a'], by decide⟩, .start ['a']]
    ∃ outs, book.read (.repetition mark) cs = .ok outs ∧
      ∃ d ∈ outs, ¬ (d ∈ cs ∨ ∃ c ∈ cs, TransGen (TakingMatch book.rule mark) c d) := by
  intro mark book cs
  have none_taken {c d : Candidate Char Char} : ¬ TakingMatch book.rule mark c d := by
    rintro ⟨derived, takes⟩
    unfold mark at derived
    cases derived with
    | built part =>
      cases part with
      | empty => exact Nat.lt_irrefl _ takes
  let marked : Candidate Char Char := ⟨['a'], 1, ['*', 'a'], by decide⟩
  refine ⟨cs ++ [marked], rfl, marked, by decide, ?_⟩
  rintro (input | ⟨c, -, chain⟩)
  · exact absurd input (by decide)
  · cases chain with
    | single last => exact none_taken last
    | tail _ last => exact none_taken last

end Rulebook
end ActorScript
