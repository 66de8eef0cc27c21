import ActorScript.Proofs.Match.Language

/-!
Readings that go through. One branch that commits itself and then finds no way on is an error for
all others, so that a reading may fail although there is a derivation. Some rules never fail, others
not where some candidate leads on, and others only where that candidate is alone. Of choices that
begin with different tokens, a lone candidate enters only the one that its next token belongs to.
-/
namespace ActorScript

variable {τ ι ρ : Type}

namespace Rule

variable {rules : ρ → Rule τ ι ρ} {enter : ρ → Pool τ ι → Reading τ (Pool τ ι)}
  {rule part inner : Rule τ ι ρ} {parts choices : List (Rule τ ι ρ)}
  {c d e : Candidate τ ι} {accepts : τ → Bool} {item : Option (τ → ι)}

/-- The rule can be read whatever the candidates are. -/
def Tame (enter : ρ → Pool τ ι → Reading τ (Pool τ ι)) (rule : Rule τ ι ρ) : Prop :=
  ∀ cs, ∃ outs, advance enter rule cs = .ok outs

/-- The rule can be read if it leads on from one of the candidates. -/
def Forgiving (rules : ρ → Rule τ ι ρ) (enter : ρ → Pool τ ι → Reading τ (Pool τ ι))
    (rule : Rule τ ι ρ) : Prop :=
  ∀ cs, ∀ c ∈ cs, ∀ d, Derives rules TakingRound rule c d → ∃ outs, advance enter rule cs = .ok outs

/-- The rule can be read from one candidate alone. -/
def Passes (enter : ρ → Pool τ ι → Reading τ (Pool τ ι)) (rule : Rule τ ι ρ)
    (c : Candidate τ ι) : Prop :=
  ∃ outs, advance enter rule [c] = .ok outs

theorem Tame.forgiving (tame : Tame enter rule) : Forgiving rules enter rule :=
  fun cs _ _ _ _ => tame cs

theorem Tame.passes (tame : Tame enter rule) (c : Candidate τ ι) : Passes enter rule c := tame [c]

theorem tame_terminal : Tame enter (.terminal accepts item) :=
  fun cs => ⟨cs.filterMap (Candidate.take? accepts item), by rw [advance]⟩

theorem tame_empty : Tame enter .empty := fun cs => ⟨cs, by rw [advance]⟩

theorem Tame.build (tame : Tame enter inner) (action : Candidate τ ι → Candidate τ ι) :
    Tame enter (.build action inner) := by
  intro cs
  obtain ⟨outs, read⟩ := tame cs
  exact ⟨_, advance_build_eq_ok.2 ⟨outs, read, rfl⟩⟩

theorem advanceEach_ok_iff {cs : Pool τ ι} :
    (∃ outs, advanceEach enter choices cs = .ok outs) ↔
      ∀ choice ∈ choices, ∃ outs, advance enter choice cs = .ok outs := by
  induction choices with
  | nil => simp [advanceEach]
  | cons choice choices ih =>
    rw [List.forall_mem_cons, ← ih]
    constructor
    · rintro ⟨_, read⟩
      obtain ⟨first, more, read_first, read_more, -⟩ := advanceEach_cons_eq_ok.1 read
      exact ⟨⟨first, read_first⟩, more, read_more⟩
    · rintro ⟨⟨first, read_first⟩, more, read_more⟩
      exact ⟨_, advanceEach_cons_eq_ok.2 ⟨first, more, read_first, read_more, rfl⟩⟩

theorem passes_alternation :
    Passes enter (.alternation choices) c ↔ ∀ choice ∈ choices, Passes enter choice c := by
  rw [Passes, advance]
  exact advanceEach_ok_iff

theorem tame_alternation (each : ∀ choice ∈ choices, Tame enter choice) :
    Tame enter (.alternation choices) := by
  intro cs
  rw [advance]
  exact advanceEach_ok_iff.2 fun choice among => each choice among cs

theorem Tame.optional (tame : Tame enter inner) : Tame enter (.optional inner) := by
  apply tame_alternation
  intro choice among
  rcases List.mem_cons.1 among with rfl | among
  · exact tame
  · obtain rfl := List.mem_singleton.1 among
    exact tame_empty

section Sequence

variable (entered : ∀ name, Complete (Derives rules TakingRound (rules name)) (enter name))

include entered

theorem advanceRest_of_forgiving (forgiving : ∀ part ∈ parts, Forgiving rules enter part)
    {cs : Pool τ ι} (given : c ∈ cs) (derived : Derives rules TakingRound (.sequence parts) c d) :
    ∃ outs, advanceRest enter parts cs = .ok outs := by
  induction parts generalizing c cs with
  | nil => exact ⟨cs, rfl⟩
  | cons part parts ih =>
    cases derived with
    | @cons _ _ _ b _ first rest =>
      obtain ⟨next, read⟩ := forgiving part List.mem_cons_self cs c given b first
      have between := advance_complete entered part cs next read c given b first
      obtain ⟨outs, later⟩ :=
        ih (fun other mem => forgiving other (List.mem_cons_of_mem part mem)) between rest
      exact ⟨outs, advanceRest_cons_eq_ok.2 ⟨next, read, List.ne_nil_of_mem between, later⟩⟩

theorem forgiving_sequence (forgiving : ∀ part ∈ parts, Forgiving rules enter part) :
    Forgiving rules enter (.sequence parts) := by
  intro cs c given d derived
  cases derived with
  | nil => exact ⟨cs, by rw [advance, advanceFirst]⟩
  | @cons part parts _ b _ first rest =>
    obtain ⟨next, read⟩ := forgiving part List.mem_cons_self cs c given b first
    have between := advance_complete entered part cs next read c given b first
    obtain ⟨outs, later⟩ := advanceRest_of_forgiving entered
      (fun other mem => forgiving other (List.mem_cons_of_mem part mem)) between rest
    refine ⟨outs, ?_⟩
    rw [advance]
    exact advanceFirst_cons_eq_ok.2 ⟨next, read, .inr ⟨List.ne_nil_of_mem between, later⟩⟩

theorem advanceRest_of_passes (passes : Passes enter part c)
    (forgiving : ∀ part ∈ parts, Forgiving rules enter part)
    (first : Derives rules TakingRound part c d)
    (rest : Derives rules TakingRound (.sequence parts) d e) :
    ∃ outs, advanceRest enter (part :: parts) [c] = .ok outs := by
  obtain ⟨next, read⟩ := passes
  have between := (advance_complete entered part).of_singleton read first
  obtain ⟨outs, later⟩ := advanceRest_of_forgiving entered forgiving between rest
  exact ⟨outs, advanceRest_cons_eq_ok.2 ⟨next, read, List.ne_nil_of_mem between, later⟩⟩

end Sequence

theorem Forgiving.build (forgiving : Forgiving rules enter inner)
    (action : Candidate τ ι → Candidate τ ι) : Forgiving rules enter (.build action inner) := by
  intro cs c given d derived
  cases derived with
  | built part =>
    obtain ⟨outs, read⟩ := forgiving cs c given _ part
    exact ⟨_, advance_build_eq_ok.2 ⟨outs, read, rfl⟩⟩

theorem passes_build {action : Candidate τ ι → Candidate τ ι} :
    Passes enter (.build action inner) c ↔ Passes enter inner c := by
  constructor
  · rintro ⟨_, read⟩
    obtain ⟨outs, read, -⟩ := advance_build_eq_ok.1 read
    exact ⟨outs, read⟩
  · rintro ⟨outs, read⟩
    exact ⟨_, advance_build_eq_ok.2 ⟨outs, read, rfl⟩⟩

theorem advance_terminal_singleton :
    advance enter (.terminal accepts item) [c] = .ok (c.take? accepts item).toList := by
  rw [advance, List.filterMap_cons]
  cases c.take? accepts item <;> rfl

theorem advance_terminal_of_rest {t : τ} {r : List τ} (next : c.rest = t :: r)
    (accepted : accepts t = true) :
    advance enter (.terminal accepts item) [c] = .ok [c.skip item t] := by
  rw [advance_terminal_singleton, Candidate.take?_of_rest next accepted]
  rfl

theorem passes_lead :
    Passes enter (.sequence (.terminal accepts item :: parts)) c ↔
      ∀ d, c.take? accepts item = some d → ∃ outs, advanceRest enter parts [d] = .ok outs := by
  rw [Passes, advance]
  constructor
  · rintro ⟨outs, read⟩ d taken
    obtain ⟨next, first, later⟩ := advanceFirst_cons_eq_ok.1 read
    rw [advance_terminal_singleton, taken] at first
    obtain rfl := Except.ok.inj first
    obtain ⟨none_left, -⟩ | ⟨-, later⟩ := later
    · simp at none_left
    · exact ⟨outs, later⟩
  · intro behind
    cases taken : c.take? accepts item with
    | none =>
      refine ⟨[], advanceFirst_cons_eq_ok.2 ⟨[], ?_, .inl ⟨rfl, rfl⟩⟩⟩
      rw [advance_terminal_singleton, taken]
      rfl
    | some d =>
      obtain ⟨outs, later⟩ := behind d taken
      refine ⟨outs, advanceFirst_cons_eq_ok.2 ⟨[d], ?_, .inr ⟨List.cons_ne_nil d [], later⟩⟩⟩
      rw [advance_terminal_singleton, taken]
      rfl

/-- A rule that first takes a token which passes a test. -/
inductive Opens (accepts : τ → Bool) : Rule τ ι ρ → Prop where
  | terminal {item : Option (τ → ι)} : Opens accepts (.terminal accepts item)
  | sequence {part : Rule τ ι ρ} {parts : List (Rule τ ι ρ)} (first : Opens accepts part) :
      Opens accepts (.sequence (part :: parts))
  | build {action : Candidate τ ι → Candidate τ ι} {inner : Rule τ ι ρ}
      (opens : Opens accepts inner) :
      Opens accepts (.build action inner)

namespace Opens

theorem advance_eq (opens : Opens accepts rule) (rejected : ∀ t ∈ c.rest.head?, accepts t = false) :
    advance enter rule [c] = .ok [] := by
  induction opens with
  | terminal =>
    rw [advance_terminal_singleton, Candidate.take?_eq_none rejected, Option.toList_none]
  | sequence _ ih =>
    rw [advance]
    exact advanceFirst_cons_eq_ok.2 ⟨[], ih, .inl ⟨rfl, rfl⟩⟩
  | build _ ih => exact advance_build_eq_ok.2 ⟨[], ih, rfl⟩

theorem head (opens : Opens accepts rule) {round : Candidate τ ι → Candidate τ ι → Prop}
    (derived : Derives rules round rule c d) : ∃ t ∈ c.rest.head?, accepts t = true := by
  induction opens generalizing d with
  | terminal =>
    cases derived with
    | terminal taken =>
      obtain ⟨t, r, next, accepted, -⟩ := Candidate.take?_iff.1 taken
      exact ⟨t, by rw [next]; rfl, accepted⟩
  | sequence _ ih =>
    cases derived with
    | cons first _ => exact ih first
  | build _ ih =>
    cases derived with
    | built part => exact ih part

end Opens

theorem exists_of_forall₂ {α β : Type} {r : α → β → Prop} {as : List α} {bs : List β}
    (each : List.Forall₂ r as bs) {b : β} (among : b ∈ bs) : ∃ a ∈ as, r a b := by
  induction each with
  | nil => simp at among
  | @cons a _ as _ first _ ih =>
    rcases List.mem_cons.1 among with rfl | among
    · exact ⟨a, List.mem_cons_self, first⟩
    · obtain ⟨other, mem, related⟩ := ih among
      exact ⟨other, List.mem_cons_of_mem a mem, related⟩

/-- Where no two choices begin with the same token, only the one chosen is entered. -/
theorem passes_of_exclusive {openings : List (τ → Bool)}
    (opens : List.Forall₂ Opens openings choices)
    (exclusive : openings.Pairwise fun first second => ∀ t, first t = true → second t = false)
    (among : rule ∈ choices) (derived : Derives rules TakingRound rule c d)
    (passes : Passes enter rule c) : ∀ choice ∈ choices, Passes enter choice c := by
  induction opens with
  | nil => simp at among
  | @cons opening choice openings choices first others ih =>
    obtain ⟨apart, exclusive⟩ := List.pairwise_cons.1 exclusive
    rw [List.forall_mem_cons]
    rcases List.mem_cons.1 among with rfl | among
    · obtain ⟨t, next, accepted⟩ := first.head derived
      refine ⟨passes, fun other mem => ?_⟩
      obtain ⟨opening', mem', opens'⟩ := exists_of_forall₂ others mem
      refine ⟨[], opens'.advance_eq fun u next' => ?_⟩
      obtain rfl : t = u := Option.some.inj (next.symm.trans next')
      exact apart opening' mem' t accepted
    · obtain ⟨opening', mem', opens'⟩ := exists_of_forall₂ others among
      obtain ⟨t, next, accepted⟩ := opens'.head derived
      refine ⟨⟨[], first.advance_eq fun u next' => ?_⟩, ih exclusive among⟩
      obtain rfl : t = u := Option.some.inj (next.symm.trans next')
      rw [Bool.eq_false_iff]
      intro also
      simp [apart opening' mem' t also] at accepted

end Rule

namespace Pool

theorem furthest?_eq_none {cs : Pool τ ι} : furthest? cs = none ↔ cs = [] := by
  cases cs with
  | nil => simp [furthest?]
  | cons c cs =>
    rw [furthest?]
    cases furthest? cs with
    | none => simp
    | some d => by_cases farther : c.index < d.index <;> simp [farther]

theorem furthest?_spec {cs : Pool τ ι} {d : Candidate τ ι} (h : furthest? cs = some d) :
    d ∈ cs ∧ ∀ c ∈ cs, c.index ≤ d.index := by
  induction cs generalizing d with
  | nil => simp [furthest?] at h
  | cons c cs ih =>
    rw [furthest?] at h
    cases later : furthest? cs with
    | none =>
      obtain rfl := furthest?_eq_none.1 later
      rw [later] at h
      obtain rfl := Option.some.inj h
      simp
    | some b =>
      obtain ⟨mem, most⟩ := ih later
      rw [later] at h
      dsimp only at h
      split at h
      · rename_i farther
        obtain rfl := Option.some.inj h
        exact ⟨List.mem_cons_of_mem c mem, List.forall_mem_cons.2 ⟨Nat.le_of_lt farther, most⟩⟩
      · rename_i not_farther
        obtain rfl := Option.some.inj h
        refine ⟨List.mem_cons_self, List.forall_mem_cons.2 ⟨Nat.le_refl _, fun e also => ?_⟩⟩
        exact Nat.le_trans (most e also) (Nat.le_of_not_lt not_farther)

theorem mem_of_furthest?_append {cs later : Pool τ ι} {c d : Candidate τ ι} (among : c ∈ cs)
    (most : ∀ b ∈ later, b.index ≤ c.index) (found : furthest? (cs ++ later) = some d) :
    d ∈ cs := by
  induction cs generalizing d with
  | nil => simp at among
  | cons a cs ih =>
    rw [List.cons_append, furthest?] at found
    cases behind : furthest? (cs ++ later) with
    | none =>
      rw [behind] at found
      obtain rfl := Option.some.inj found
      exact List.mem_cons_self
    | some b =>
      rw [behind] at found
      dsimp only at found
      split at found
      · rename_i farther
        obtain rfl := Option.some.inj found
        rcases List.mem_cons.1 among with rfl | among
        · -- The first is overtaken, which nothing that comes later does.
          rcases List.mem_append.1 (furthest?_spec behind).1 with mem | mem
          · exact List.mem_cons_of_mem c mem
          · exact absurd farther (Nat.not_lt_of_le (most b mem))
        · exact List.mem_cons_of_mem a (ih among behind)
      · obtain rfl := Option.some.inj found
        exact List.mem_cons_self

end Pool

namespace Rulebook

open Rule

variable (book : Rulebook τ ι ρ) {rule : Rule τ ι ρ} {start d : Candidate τ ι}

theorem complete_iff : book.complete rule start = .ok d ↔ ∃ outs,
    book.read rule [start] = .ok outs ∧ Pool.furthest? outs = some d ∧ d.isDone = true := by
  rw [complete, best, bind_assoc, bind_eq_ok]
  refine exists_congr fun outs => and_congr_right fun _ => ?_
  rw [pure_bind]
  cases Pool.furthest? outs with
  | none => simp
  | some b =>
    by_cases done : b.isDone = true
    · simp only [done, if_true, Option.some.injEq]
      constructor
      · intro found
        obtain rfl := Except.ok.inj found
        exact ⟨rfl, done⟩
      · rintro ⟨rfl, -⟩
        rfl
    · simp only [done, Bool.false_eq_true, if_false, Option.some.injEq]
      constructor
      · intro found
        cases found
      · rintro ⟨rfl, also⟩
        exact absurd also done

section Keeping

variable (acts : Acts Candidate.KeepsTokens book.rule rule)

include acts

theorem tokens_of_read {outs : Pool τ ι} (read : book.read rule [start] = .ok outs)
    (mem : d ∈ outs) : d.tokens = start.tokens :=
  ((book.read_sound rule).of_singleton read mem).tokens_eq acts

theorem index_le_of_done {outs : Pool τ ι} {c : Candidate τ ι}
    (read : book.read rule [start] = .ok outs) (among : c ∈ outs) (done : c.isDone = true)
    (mem : d ∈ outs) : d.index ≤ c.index := by
  have inside := d.inside
  rw [Candidate.isDone, decide_eq_true_eq, book.tokens_of_read acts read among] at done
  rw [book.tokens_of_read acts read mem] at inside
  exact Nat.le_trans inside done

theorem mem_of_complete_append {first later : Pool τ ι} {c : Candidate τ ι}
    (read : book.read rule [start] = .ok (first ++ later)) (among : c ∈ first)
    (done : c.isDone = true) (found : book.complete rule start = .ok d) : d ∈ first := by
  obtain ⟨outs, read', furthest, -⟩ := book.complete_iff.1 found
  obtain rfl := Except.ok.inj (read.symm.trans read')
  refine Pool.mem_of_furthest?_append among (fun b mem => ?_) furthest
  exact book.index_le_of_done acts read (List.mem_append_left _ among) done
    (List.mem_append_right _ mem)

/-- A reading that goes through finds a candidate that takes all tokens, if there is one. -/
theorem exists_complete (passes : Passes (book.enter (book.depth [start])) rule start)
    (derived : Derives book.rule TakingRound rule start d) (done : d.isDone = true) :
    ∃ b, book.complete rule start = .ok b := by
  obtain ⟨outs, read⟩ := passes
  have found := (book.read_complete rule).of_singleton read derived
  cases best : Pool.furthest? outs with
  | none =>
    rw [Pool.furthest?_eq_none.1 best] at found
    simp at found
  | some b =>
    obtain ⟨mem, most⟩ := Pool.furthest?_spec best
    have farthest := most d found
    have b_done : b.isDone = true := by
      simp only [Candidate.isDone, decide_eq_true_eq] at done ⊢
      rw [book.tokens_of_read acts read found] at done
      rw [book.tokens_of_read acts read mem]
      exact Nat.le_trans done farthest
    exact ⟨b, book.complete_iff.2 ⟨outs, read, best, b_done⟩⟩

end Keeping

theorem complete_eq_ok (h : book.complete rule start = .ok d) :
    Derives book.rule AnyRound rule start d ∧ d.isDone = true ∧
      Passes (book.enter (book.depth [start])) rule start := by
  obtain ⟨outs, read, furthest, done⟩ := book.complete_iff.1 h
  have derived := (book.read_sound rule).of_singleton read (Pool.furthest?_spec furthest).1
  exact ⟨derived, done, outs, read⟩

end Rulebook
end ActorScript
