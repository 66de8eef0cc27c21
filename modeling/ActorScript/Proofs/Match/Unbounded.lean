import ActorScript.Proofs.Match.Depth
import ActorScript.Proofs.Match.Rounds
import ActorScript.Proofs.Match.Starving

/-!
A reading without any bound: named rules are entered wherever they stand, and a repetition goes on
until no candidate is left. What such a reading gives is said by an inductive relation, so that it
ends if it gives anything; and it can give only one thing. Where rules take a token before they come
to themselves again it always ends, and gives what the bounded reading computes. How deep named
rules enter one another is counted along the branches of such a reading.
-/
namespace ActorScript

variable {τ ι ρ : Type}

namespace Rule

/-- What there is to read: a rule, or what is left of one that was begun. -/
inductive Task (τ ι ρ : Type) where
  | rule (rule : Rule τ ι ρ)
  /-- The parts of a sequence that are left, and whether one was read before them. -/
  | parts (begun : Bool) (parts : List (Rule τ ι ρ))
  | each (choices : List (Rule τ ι ρ))
  /-- The rounds of a repetition. -/
  | rounds (inner : Rule τ ι ρ)

/-- The rule that a task comes to. -/
def Task.toRule : Task τ ι ρ → Rule τ ι ρ
  | .rule r => r
  | .parts _ left => .sequence left
  | .each choices => .alternation choices
  | .rounds inner => .repetition inner

/-- The candidates that a round of a repetition keeps: those beyond the smallest index before it. -/
def kept (cs outs : Pool τ ι) : Pool τ ι := outs.filter fun c => cs.smallestIndex < c.index

/-- What comes of a task in the end, whatever number of rounds and of named rules that takes. -/
inductive Gives (rules : ρ → Rule τ ι ρ) :
    Task τ ι ρ → Pool τ ι → Reading τ (Pool τ ι) → Prop where
  | terminal {accepts item cs} :
      Gives rules (.rule (.terminal accepts item)) cs
        (.ok (cs.filterMap (Candidate.take? accepts item)))
  | sequence {parts cs result} (read : Gives rules (.parts false parts) cs result) :
      Gives rules (.rule (.sequence parts)) cs result
  | alternation {choices cs result} (read : Gives rules (.each choices) cs result) :
      Gives rules (.rule (.alternation choices)) cs result
  | repetition {inner cs result} (read : Gives rules (.rounds inner) cs result) :
      Gives rules (.rule (.repetition inner)) cs (result.map (cs ++ ·))
  | empty {cs} : Gives rules (.rule .empty) cs (.ok cs)
  | named {name cs result} (read : Gives rules (.rule (rules name)) cs result) :
      Gives rules (.rule (.deferred name)) cs result
  | built {action inner cs result} (read : Gives rules (.rule inner) cs result) :
      Gives rules (.rule (.build action inner)) cs
        (result.map (List.map action))
  | no_part {begun cs} : Gives rules (.parts begun []) cs (.ok cs)
  | part_fails {begun part parts cs e} (read : Gives rules (.rule part) cs (.error e)) :
      Gives rules (.parts begun (part :: parts)) cs (.error e)
  | first_none {part parts cs} (read : Gives rules (.rule part) cs (.ok [])) :
      Gives rules (.parts false (part :: parts)) cs (.ok [])
  | later_none {part parts cs} (read : Gives rules (.rule part) cs (.ok [])) :
      Gives rules (.parts true (part :: parts)) cs (.error (nextTokenError cs))
  | part {begun part parts cs next result} (read : Gives rules (.rule part) cs (.ok next))
      (some_left : next ≠ []) (later : Gives rules (.parts true parts) next result) :
      Gives rules (.parts begun (part :: parts)) cs result
  | no_choice {cs} : Gives rules (.each []) cs (.ok [])
  | choice_fails {choice choices cs e} (read : Gives rules (.rule choice) cs (.error e)) :
      Gives rules (.each (choice :: choices)) cs (.error e)
  | choice {choice choices cs outs result} (read : Gives rules (.rule choice) cs (.ok outs))
      (others : Gives rules (.each choices) cs result) :
      Gives rules (.each (choice :: choices)) cs (result.map (outs ++ ·))
  | no_round {inner} : Gives rules (.rounds inner) [] (.ok [])
  | round_fails {inner cs e} (some_left : cs ≠ [])
      (read : Gives rules (.rule inner) cs (.error e)) :
      Gives rules (.rounds inner) cs (.error e)
  | round {inner cs outs result} (some_left : cs ≠ [])
      (read : Gives rules (.rule inner) cs (.ok outs))
      (more : Gives rules (.rounds inner) (kept cs outs) result) :
      Gives rules (.rounds inner) cs (result.map (kept cs outs ++ ·))

variable {rules : ρ → Rule τ ι ρ} {enter : ρ → Pool τ ι → Reading τ (Pool τ ι)}
  {task goal : Task τ ι ρ} {rule part inner : Rule τ ι ρ} {parts choices : List (Rule τ ι ρ)}
  {cs pool outs : Pool τ ι} {result result' : Reading τ (Pool τ ι)} {name : ρ} {k : Nat}

theorem map_eq_ok {ε α β : Type} {x : Except ε α} {f : α → β} {b : β} :
    x.map f = .ok b ↔ ∃ a, x = .ok a ∧ f a = b := by
  cases x with
  | error e => simp [Except.map]
  | ok a => simp [Except.map]

theorem Gives.unique (given : Gives rules task cs result) (also : Gives rules task cs result') :
    result = result' := by
  induction given generalizing result' with
  | terminal | empty | no_part | no_choice =>
    cases also
    rfl
  | sequence _ ih =>
    cases also with
    | sequence also => exact ih also
  | alternation _ ih =>
    cases also with
    | alternation also => exact ih also
  | named _ ih =>
    cases also with
    | named also => exact ih also
  | repetition _ ih =>
    cases also with
    | repetition also => rw [ih also]
  | built _ ih =>
    cases also with
    | built also => rw [ih also]
  | part_fails _ ih =>
    cases also with
    | part_fails also => exact ih also
    | first_none also => cases ih also
    | later_none also => cases ih also
    | part also => cases ih also
  | first_none _ ih =>
    cases also with
    | part_fails also => cases ih also
    | first_none also => rfl
    | part also some_left => exact absurd (Except.ok.inj (ih also)).symm some_left
  | later_none _ ih =>
    cases also with
    | part_fails also => cases ih also
    | later_none also => rfl
    | part also some_left => exact absurd (Except.ok.inj (ih also)).symm some_left
  | part _ some_left _ ih ih' =>
    cases also with
    | part_fails also => cases ih also
    | first_none also => exact absurd (Except.ok.inj (ih also)) some_left
    | later_none also => exact absurd (Except.ok.inj (ih also)) some_left
    | part also _ later =>
      cases ih also
      exact ih' later
  | choice_fails _ ih =>
    cases also with
    | choice_fails also => exact ih also
    | choice also => cases ih also
  | choice _ _ ih ih' =>
    cases also with
    | choice_fails also => cases ih also
    | choice also others =>
      cases ih also
      rw [ih' others]
  | no_round =>
    cases also with
    | no_round => rfl
    | round_fails some_left => exact absurd rfl some_left
    | round some_left => exact absurd rfl some_left
  | round_fails some_left _ ih =>
    cases also with
    | no_round => exact absurd rfl some_left
    | round_fails _ also => exact ih also
    | round _ also => cases ih also
  | round some_left _ _ ih ih' =>
    cases also with
    | no_round => exact absurd rfl some_left
    | round_fails _ also => cases ih also
    | round _ also more =>
      cases ih also
      rw [ih' more]

theorem Gives.sound (given : Gives rules task cs result) :
    ∀ outs, result = .ok outs → ∀ d ∈ outs, ∃ c ∈ cs, Derives rules AnyRound task.toRule c d := by
  induction given with
  | terminal =>
    rintro _ ⟨⟩ d mem
    obtain ⟨c, given, taken⟩ := List.mem_filterMap.1 mem
    exact ⟨c, given, .terminal taken⟩
  | empty =>
    rintro _ ⟨⟩ d mem
    exact ⟨d, mem, .empty⟩
  | no_part =>
    rintro _ ⟨⟩ d mem
    exact ⟨d, mem, .nil⟩
  | sequence _ ih | alternation _ ih => exact ih
  | named _ ih =>
    intro outs ok d mem
    obtain ⟨c, given, derived⟩ := ih outs ok d mem
    exact ⟨c, given, .named derived⟩
  | repetition _ ih =>
    intro outs ok d mem
    obtain ⟨more, read, rfl⟩ := map_eq_ok.1 ok
    rcases List.mem_append.1 mem with mem | mem
    · exact ⟨d, mem, .done⟩
    · exact ih more read d mem
  | built _ ih =>
    intro outs ok d mem
    obtain ⟨made, read, rfl⟩ := map_eq_ok.1 ok
    obtain ⟨b, before, rfl⟩ := List.mem_map.1 mem
    obtain ⟨c, given, derived⟩ := ih made read b before
    exact ⟨c, given, .built derived⟩
  | part_fails | later_none | choice_fails | round_fails => rintro _ ⟨⟩
  | first_none | no_choice | no_round =>
    rintro _ ⟨⟩ d mem
    exact absurd mem List.not_mem_nil
  | part _ _ _ ih ih' =>
    intro outs ok d mem
    obtain ⟨b, between, rest⟩ := ih' outs ok d mem
    obtain ⟨c, given, first⟩ := ih _ rfl b between
    exact ⟨c, given, .cons first rest⟩
  | choice _ _ ih ih' =>
    intro outs ok d mem
    obtain ⟨more, read, rfl⟩ := map_eq_ok.1 ok
    rcases List.mem_append.1 mem with mem | mem
    · obtain ⟨c, given, chosen⟩ := ih _ rfl d mem
      exact ⟨c, given, .choice List.mem_cons_self chosen⟩
    · obtain ⟨c, given, derived⟩ := ih' more read d mem
      cases derived with
      | choice among chosen => exact ⟨c, given, .choice (List.mem_cons_of_mem _ among) chosen⟩
  | round _ _ _ ih ih' =>
    intro outs ok d mem
    obtain ⟨more, read, rfl⟩ := map_eq_ok.1 ok
    rcases List.mem_append.1 mem with mem | mem
    · obtain ⟨c, given, once⟩ := ih _ rfl d (List.mem_filter.1 mem).1
      exact ⟨c, given, .again once trivial .done⟩
    · obtain ⟨b, between, rounds⟩ := ih' more read d mem
      obtain ⟨c, given, once⟩ := ih _ rfl b (List.mem_filter.1 between).1
      exact ⟨c, given, .again once trivial rounds⟩

section Bounded

variable {reading : Pool τ ι → Reading τ (Pool τ ι)}

/-- Where the reading ends within its bounds, it computes what the unbounded one gives. -/
def Computes (rules : ρ → Rule τ ι ρ) (rule : Rule τ ι ρ)
    (reading : Pool τ ι → Reading τ (Pool τ ι)) : Prop :=
  ∀ cs : Pool τ ι, reading cs ≠ .error .tooDeep → Gives rules (.rule rule) cs (reading cs)

theorem bind_pure_eq_map {ε α β : Type} (x : Except ε α) (f : α → β) :
    (x >>= fun a => pure (f a)) = x.map f := by
  cases x <;> rfl

theorem map_ne_error {ε α β : Type} {x : Except ε α} {f : α → β} {e : ε}
    (calm : x.map f ≠ .error e) : x ≠ .error e := by
  rintro rfl
  exact calm rfl

theorem smallestIndex_lt_kept (some_left : kept cs outs ≠ []) :
    cs.smallestIndex < (kept cs outs).smallestIndex := by
  obtain ⟨d, mem, smallest⟩ := Pool.exists_smallestIndex some_left
  have beyond := (List.mem_filter.1 mem).2
  rw [decide_eq_true_eq] at beyond
  omega

theorem longest_kept_le (acts : Acts Candidate.KeepsTokens rules rule)
    (derived : ∀ d ∈ outs, ∃ c ∈ cs, Derives rules AnyRound rule c d) :
    (kept cs outs).longest ≤ cs.longest := by
  refine Pool.longest_le fun d mem => ?_
  obtain ⟨c, given, from_c⟩ := derived d (List.mem_filter.1 mem).1
  rw [from_c.tokens_eq acts]
  exact Pool.length_le_longest given

theorem repetitionFrom_of_ok (some_left : cs ≠ []) (read : reading cs = .ok outs) (rounds : Nat) :
    repetitionFrom reading (rounds + 1) cs =
      (repetitionFrom reading rounds (kept cs outs)).map (kept cs outs ++ ·) := by
  rw [repetitionFrom, if_neg (by simpa using some_left), repetitionRound, read]
  exact bind_pure_eq_map _ _

/-- One round at a time, as many as there can be: behind a round the bound is not felt either. -/
theorem repetitionFrom_of_round (some_left : cs ≠ []) (read : reading cs = .ok outs)
    (shorter : (kept cs outs).longest ≤ cs.longest)
    (calm : repetitionFrom reading (repetitionRounds (kept cs outs)) (kept cs outs) ≠
      .error .tooDeep) :
    repetitionFrom reading (repetitionRounds cs) cs =
      (repetitionFrom reading (repetitionRounds (kept cs outs)) (kept cs outs)).map
        (kept cs outs ++ ·) := by
  rw [show repetitionRounds cs = cs.longest - cs.smallestIndex + 1 from rfl,
    repetitionFrom_of_ok some_left read]
  by_cases ended : kept cs outs = []
  · rw [ended, repetitionFrom_nil, repetitionFrom_nil]
  · have moved := smallestIndex_lt_kept ended
    have below := (kept cs outs).smallestIndex_le_longest ended
    rw [repetitionFrom_of_le calm (by unfold repetitionRounds; omega)]

theorem gives_repetitionFrom (computes : Computes rules inner reading) {rounds : Nat}
    (calm : repetitionFrom reading rounds cs ≠ .error .tooDeep) :
    Gives rules (.rounds inner) cs (repetitionFrom reading rounds cs) := by
  induction rounds generalizing cs with
  | zero =>
    by_cases some_left : cs = []
    · rw [some_left, repetitionFrom_nil]
      exact .no_round
    · exact absurd (repetitionFrom_zero some_left) calm
  | succ rounds ih =>
    by_cases some_left : cs = []
    · rw [some_left, repetitionFrom_nil]
      exact .no_round
    have given := computes cs
    cases read : reading cs with
    | error e =>
      rw [repetitionFrom_of_error some_left read] at calm ⊢
      rw [read] at given
      exact .round_fails some_left (given calm)
    | ok outs =>
      rw [repetitionFrom_of_ok some_left read] at calm ⊢
      rw [read] at given
      exact .round some_left (given (pure_ne_tooDeep outs)) (ih (map_ne_error calm))

/-- The parts of a sequence that are left, read within bounds. -/
def advanceParts (enter : ρ → Pool τ ι → Reading τ (Pool τ ι)) (begun : Bool)
    (parts : List (Rule τ ι ρ)) (cs : Pool τ ι) : Reading τ (Pool τ ι) :=
  if begun then advanceRest enter parts cs else advanceFirst enter parts cs

theorem advanceParts_of_error {begun : Bool} {e : MatchError τ}
    (failed : advance enter part cs = .error e) :
    advanceParts enter begun (part :: parts) cs = .error e := by
  cases begun with
  | false =>
    show advanceFirst enter (part :: parts) cs = .error e
    rw [advanceFirst, failed]
    rfl
  | true => exact advanceRest_of_error failed

theorem advanceParts_of_ok {begun : Bool} {next : Pool τ ι}
    (read : advance enter part cs = .ok next) (some_left : next ≠ []) :
    advanceParts enter begun (part :: parts) cs = advanceParts enter true parts next := by
  cases begun with
  | false =>
    show advanceFirst enter (part :: parts) cs = advanceRest enter parts next
    rw [advanceFirst, read]
    exact if_neg (by simpa using some_left)
  | true => exact advanceRest_of_ok read some_left

theorem advanceFirst_of_nil (read : advance enter part cs = .ok []) :
    advanceFirst enter (part :: parts) cs = .ok [] := by
  rw [advanceFirst, read]
  rfl

theorem advanceEach_of_error {choice : Rule τ ι ρ} {e : MatchError τ}
    (failed : advance enter choice cs = .error e) :
    advanceEach enter (choice :: choices) cs = .error e := by
  rw [advanceEach, failed]
  rfl

theorem advanceEach_of_ok {choice : Rule τ ι ρ} (read : advance enter choice cs = .ok outs) :
    advanceEach enter (choice :: choices) cs =
      (advanceEach enter choices cs).map (outs ++ ·) := by
  rw [advanceEach, read]
  exact bind_pure_eq_map _ _

mutual

theorem advance_computes (computes : ∀ name, Computes rules (rules name) (enter name))
    (rule : Rule τ ι ρ) : Computes rules rule (advance enter rule) := by
  intro cs calm
  cases rule with
  | terminal accepts item =>
    rw [advance]
    exact .terminal
  | sequence parts =>
    rw [advance] at calm ⊢
    exact .sequence (advanceParts_computes computes false parts cs calm)
  | alternation choices =>
    rw [advance] at calm ⊢
    exact .alternation (advanceEach_computes computes choices cs calm)
  | repetition inner =>
    rw [advance, bind_pure_eq_map] at calm ⊢
    exact .repetition (gives_repetitionFrom (advance_computes computes inner) (map_ne_error calm))
  | empty =>
    rw [advance]
    exact .empty
  | deferred name =>
    rw [advance] at calm ⊢
    exact .named (computes name cs calm)
  | build action inner =>
    rw [advance, bind_pure_eq_map] at calm ⊢
    exact .built (advance_computes computes inner cs (map_ne_error calm))

theorem advanceParts_computes (computes : ∀ name, Computes rules (rules name) (enter name))
    (begun : Bool) (parts : List (Rule τ ι ρ)) (cs : Pool τ ι)
    (calm : advanceParts enter begun parts cs ≠ .error .tooDeep) :
    Gives rules (.parts begun parts) cs (advanceParts enter begun parts cs) := by
  cases parts with
  | nil => cases begun <;> exact .no_part
  | cons part parts =>
    have given := advance_computes computes part cs
    cases read : advance enter part cs with
    | error e =>
      rw [advanceParts_of_error read] at calm ⊢
      rw [read] at given
      exact .part_fails (given calm)
    | ok next =>
      rw [read] at given
      have given := given (by simp)
      by_cases some_left : next = []
      · subst some_left
        cases begun with
        | false =>
          rw [show advanceParts enter false (part :: parts) cs = .ok [] from
            advanceFirst_of_nil read]
          exact .first_none given
        | true =>
          rw [show advanceParts enter true (part :: parts) cs = .error (nextTokenError cs) from
            advanceRest_of_nil read]
          exact .later_none given
      · rw [advanceParts_of_ok read some_left] at calm ⊢
        exact .part given some_left (advanceParts_computes computes true parts next calm)

theorem advanceEach_computes (computes : ∀ name, Computes rules (rules name) (enter name))
    (choices : List (Rule τ ι ρ)) (cs : Pool τ ι)
    (calm : advanceEach enter choices cs ≠ .error .tooDeep) :
    Gives rules (.each choices) cs (advanceEach enter choices cs) := by
  cases choices with
  | nil => exact .no_choice
  | cons choice choices =>
    have given := advance_computes computes choice cs
    cases read : advance enter choice cs with
    | error e =>
      rw [advanceEach_of_error read] at calm ⊢
      rw [read] at given
      exact .choice_fails (given calm)
    | ok outs =>
      rw [advanceEach_of_ok read] at calm ⊢
      rw [read] at given
      exact .choice (given (by simp)) (advanceEach_computes computes choices cs (map_ne_error calm))

end

end Bounded

end Rule

namespace Rulebook

open Rule

variable {book : Rulebook τ ι ρ} {rank : ρ → Nat}

theorem enter_computes (depth : Nat) (name : ρ) :
    Computes book.rule (book.rule name) (book.enter depth name) := by
  induction depth generalizing name with
  | zero =>
    intro cs calm
    exact absurd rfl calm
  | succ depth ih => exact advance_computes ih (book.rule name)

/-- Where names fall in rank until a token is taken, the unbounded reading ends, and what the book
reads is the one thing that it gives. -/
theorem Guarded.gives_iff (guarded : book.Guarded rank) {rule : Rule τ ι ρ}
    (acts : Acts Candidate.KeepsPlace book.rule rule) {cs : Pool τ ι}
    {result : Reading τ (Pool τ ι)} :
    Gives book.rule (.rule rule) cs result ↔ result = book.read rule cs := by
  have calm := (guarded.read_agree rule acts cs (Nat.le_refl _)).2
  have given : Gives book.rule (.rule rule) cs (book.read rule cs) :=
    advance_computes (enter_computes _) rule cs calm
  constructor
  · intro also
    exact also.unique given
  · rintro rfl
    exact given

end Rulebook
end ActorScript
