import ActorScript.Proofs.Match.Passing
import Mathlib.Data.Fintype.Card
import Mathlib.Logic.Relation

/-!
Two bounds make every reading finite: one on the rounds of a repetition, one on the depth to which
named rules enter one another. Where actions work on the stack alone, the first is not felt, for
each round goes beyond the smallest index; and the second is not felt where a rule takes a token
before it comes to itself again: then the names that are entered fall in rank until a token is
taken.
-/
namespace ActorScript

variable {τ ι ρ : Type}

/-- Every candidate has at most so many tokens before it. -/
def Pool.Within (k : Nat) (cs : Pool τ ι) : Prop := ∀ c ∈ cs, c.tokens.length ≤ c.index + k

theorem Pool.within_longest (cs : Pool τ ι) : cs.Within cs.longest := by
  intro c given
  have := length_le_longest given
  omega

namespace Rule

/-- The rule can be passed without a token being taken. -/
def Idle (rules : ρ → Rule τ ι ρ) (rule : Rule τ ι ρ) : Prop :=
  ∃ c d, Derives rules AnyRound rule c d ∧ d.index = c.index

/-- The rule can come to a named rule before a token is taken. -/
inductive Enters (rules : ρ → Rule τ ι ρ) : Rule τ ι ρ → ρ → Prop where
  | named {name} : Enters rules (.deferred name) name
  | first {part parts name} (at_first : Enters rules part name) :
      Enters rules (.sequence (part :: parts)) name
  | later {part parts name} (idle : Idle rules part)
      (behind : Enters rules (.sequence parts) name) :
      Enters rules (.sequence (part :: parts)) name
  | choice {choice choices name} (among : choice ∈ choices) (chosen : Enters rules choice name) :
      Enters rules (.alternation choices) name
  | round {inner name} (inside : Enters rules inner name) : Enters rules (.repetition inner) name
  | built {action inner name} (inside : Enters rules inner name) :
      Enters rules (.build action inner) name

variable {rules : ρ → Rule τ ι ρ} {accepts : τ → Bool} {rule : Rule τ ι ρ}

theorem Opens.not_idle (opens : Opens accepts rule)
    (acts : Acts Candidate.KeepsPlace rules rule) : ¬Idle rules rule := by
  rintro ⟨c, d, derived, same⟩
  induction opens generalizing d with
  | terminal =>
    cases derived with
    | terminal taken =>
      obtain ⟨token, found, -, rfl⟩ := take?_eq_some.1 taken
      rw [index_skip found] at same
      exact absurd same (Nat.succ_ne_self _)
  | sequence _ ih =>
    cases derived with
    | @cons _ _ _ b _ first rest =>
      have := (first.within acts.first).2
      have := (rest.within acts.later).2
      exact ih acts.first b first (by omega)
  | build _ ih =>
    cases derived with
    | built part => exact ih acts.inside _ part ((acts.built _).2.symm.trans same)

theorem Opens.not_enters (opens : Opens accepts rule)
    (acts : Acts Candidate.KeepsPlace rules rule) {name : ρ} : ¬Enters rules rule name := by
  intro entered
  induction opens with
  | terminal => nomatch entered
  | sequence first ih =>
    cases entered with
    | first at_first => exact ih acts.first at_first
    | later idle _ => exact first.not_idle acts.first idle
  | build _ ih =>
    cases entered with
    | built inside => exact ih acts.inside inside

end Rule

open Rule

variable {rules : ρ → Rule τ ι ρ} {enter enter' : ρ → Pool τ ι → Reading τ (Pool τ ι)}
  {reading reading' : Pool τ ι → Reading τ (Pool τ ι)} {rule inner : Rule τ ι ρ}
  {cs outs : Pool τ ι} {k : Nat}

theorem within_of_derived (acts : Acts Candidate.KeepsPlace rules rule)
    (derived : ∀ d ∈ outs, ∃ c ∈ cs, Derives rules AnyRound rule c d) (within : cs.Within k) :
    outs.Within k := by
  intro d mem
  obtain ⟨c, given, from_c⟩ := derived d mem
  obtain ⟨same, forward⟩ := from_c.within acts
  have := within c given
  rw [same]
  omega

theorem within_less_of_derived (acts : Acts Candidate.KeepsPlace rules rule)
    (derived : ∀ d ∈ outs, ∃ c ∈ cs, Derives rules AnyRound rule c d) (within : cs.Within k)
    (busy : ¬Idle rules rule) (some_left : outs ≠ []) : ∃ j < k, outs.Within j := by
  have less : ∀ d ∈ outs, d.tokens.length < d.index + k := by
    intro d mem
    obtain ⟨c, given, from_c⟩ := derived d mem
    obtain ⟨same, forward⟩ := from_c.within acts
    have taken : d.index ≠ c.index := fun same_index => busy ⟨c, d, from_c, same_index⟩
    have := within c given
    rw [same]
    omega
  obtain ⟨d, mem⟩ := List.exists_mem_of_ne_nil outs some_left
  have := less d mem
  have := d.inside
  refine ⟨k - 1, by omega, fun e also => ?_⟩
  have := less e also
  omega

theorem Pool.smallestIndex_le_longest (cs : Pool τ ι) (some_left : cs ≠ []) :
    cs.smallestIndex ≤ cs.longest := by
  obtain ⟨c, given, smallest⟩ := exists_smallestIndex some_left
  rw [← smallest]
  exact Nat.le_trans c.inside (length_le_longest given)

theorem repetitionFrom_of_le {rounds more : Nat}
    (calm : repetitionFrom reading rounds cs ≠ .error .tooDeep) (le : rounds ≤ more) :
    repetitionFrom reading more cs = repetitionFrom reading rounds cs := by
  induction rounds generalizing cs more with
  | zero =>
    by_cases some_left : cs = []
    · rw [some_left, repetitionFrom_nil, repetitionFrom_nil]
    · exact absurd (repetitionFrom_zero some_left) calm
  | succ rounds ih =>
    obtain ⟨more, rfl⟩ := Nat.exists_eq_add_of_le' le
    rw [← Nat.add_assoc, repetitionFrom, repetitionFrom]
    rw [repetitionFrom] at calm
    by_cases none_left : cs.isEmpty
    · rw [if_pos none_left, if_pos none_left]
    · rw [if_neg none_left] at calm ⊢
      rw [if_neg none_left]
      cases round : repetitionRound reading cs with
      | error e => rfl
      | ok next =>
        rw [round] at calm
        have calm_next : repetitionFrom reading rounds next ≠ .error .tooDeep := by
          intro deep
          apply calm
          show (repetitionFrom reading rounds next >>= _) = _
          rw [deep]
          rfl
        show (repetitionFrom reading (more + rounds) next >>= _) = _
        rw [ih calm_next (Nat.le_add_left rounds more)]
        rfl

/-- On candidates with at most so many tokens before them both readings come to the same, and
neither goes too deep. -/
def Agree (k : Nat) (reading reading' : Pool τ ι → Reading τ (Pool τ ι)) : Prop :=
  ∀ cs : Pool τ ι, cs.Within k → reading cs = reading' cs ∧ reading cs ≠ .error .tooDeep

theorem pure_ne_tooDeep {α : Type} (a : α) : (pure a : Reading τ α) ≠ .error .tooDeep := by
  intro deep
  cases deep

theorem agree_bind {x x' : Reading τ (Pool τ ι)} {f f' : Pool τ ι → Reading τ (Pool τ ι)}
    (same : x = x' ∧ x ≠ .error .tooDeep)
    (later : ∀ outs, x = .ok outs → f outs = f' outs ∧ f outs ≠ .error .tooDeep) :
    (x >>= f) = (x' >>= f') ∧ (x >>= f) ≠ .error .tooDeep := by
  obtain ⟨rfl, calm⟩ := same
  cases x with
  | error e => exact ⟨rfl, calm⟩
  | ok outs => exact later outs rfl

/-- The rounds that a repetition is allowed are enough where they reach from the smallest index
beyond all tokens, since each round goes beyond the smallest index. -/
theorem repetitionFrom_agree (sound : Sound (Derives rules AnyRound inner) reading)
    (acts : Acts Candidate.KeepsPlace rules inner) (agree : Agree k reading reading')
    {rounds limit : Nat} (within : cs.Within k) (short : ∀ c ∈ cs, c.tokens.length ≤ limit)
    (enough : limit < cs.smallestIndex + rounds) :
    repetitionFrom reading rounds cs = repetitionFrom reading' rounds cs ∧
      repetitionFrom reading rounds cs ≠ .error .tooDeep := by
  induction rounds generalizing cs with
  | zero =>
    have none_left : cs = [] := by
      by_contra some_left
      have := cs.smallestIndex_le_longest some_left
      have := Pool.longest_le short
      omega
    rw [none_left, repetitionFrom_nil, repetitionFrom_nil]
    exact ⟨rfl, pure_ne_tooDeep _⟩
  | succ rounds ih =>
    by_cases none_left : cs.isEmpty
    · rw [repetitionFrom, repetitionFrom, if_pos none_left, if_pos none_left]
      exact ⟨rfl, pure_ne_tooDeep _⟩
    · rw [repetitionFrom, repetitionFrom, if_neg none_left, if_neg none_left]
      refine agree_bind (agree_bind (agree cs within) fun outs _ => ⟨rfl, pure_ne_tooDeep _⟩) ?_
      intro next round
      refine agree_bind ?_ fun more _ => ⟨rfl, pure_ne_tooDeep _⟩
      by_cases ended : next = []
      · rw [ended, repetitionFrom_nil, repetitionFrom_nil]
        exact ⟨rfl, pure_ne_tooDeep _⟩
      obtain ⟨outs, read, rfl⟩ := repetitionRound_eq_ok.1 round
      have derived : ∀ d ∈ outs.filter fun c => cs.smallestIndex < c.index,
          ∃ c ∈ cs, Derives rules AnyRound inner c d := fun d mem =>
        sound cs outs read d (List.mem_filter.1 mem).1
      refine ih (within_of_derived acts derived within) (fun d mem => ?_) ?_
      · obtain ⟨c, given, from_c⟩ := derived d mem
        rw [(from_c.within acts).1]
        exact short c given
      · obtain ⟨d, mem, smallest⟩ := Pool.exists_smallestIndex ended
        have beyond := (List.mem_filter.1 mem).2
        rw [decide_eq_true_eq] at beyond
        omega

namespace Rule

theorem nextTokenError_ne_tooDeep {α : Type} (cs : Pool τ ι) :
    (.error (nextTokenError cs) : Reading τ α) ≠ .error .tooDeep := by
  intro deep
  have := Except.error.inj deep
  unfold nextTokenError at this
  split at this <;> simp at this

/-- Behind the first part of a sequence, names are entered with as many tokens left only if the
part was idle. -/
theorem agree_behind {part : Rule τ ι ρ} {parts : List (Rule τ ι ρ)}
    (acts : Acts Candidate.KeepsPlace rules part)
    (sound : Sound (Derives rules AnyRound part) reading) (read : reading cs = .ok outs)
    (within : cs.Within k) (some_left : outs ≠ [])
    (near : ∀ name, Enters rules (.sequence (part :: parts)) name →
      Agree k (enter name) (enter' name))
    (far : ∀ j < k, ∀ name, Agree j (enter name) (enter' name))
    (rest : ∀ j,
      (∀ name, Enters rules (.sequence parts) name → Agree j (enter name) (enter' name)) →
      (∀ i < j, ∀ name, Agree i (enter name) (enter' name)) →
      Agree j (advanceRest enter parts) (advanceRest enter' parts)) :
    advanceRest enter parts outs = advanceRest enter' parts outs ∧
      advanceRest enter parts outs ≠ .error .tooDeep := by
  by_cases idle : Idle rules part
  · exact rest k (fun name behind => near name (.later idle behind)) far outs
      (within_of_derived acts (sound cs outs read) within)
  · obtain ⟨j, less, fewer⟩ :=
      within_less_of_derived acts (sound cs outs read) within idle some_left
    exact rest j (fun name _ => far j less name) (fun i less' => far i (Nat.lt_trans less' less))
      outs fewer

mutual

theorem advance_agree
    (entered : ∀ name, Sound (Derives rules AnyRound (rules name)) (enter name))
    (rule : Rule τ ι ρ) (acts : Acts Candidate.KeepsPlace rules rule) (k : Nat)
    (near : ∀ name, Enters rules rule name → Agree k (enter name) (enter' name))
    (far : ∀ j < k, ∀ name, Agree j (enter name) (enter' name)) :
    Agree k (advance enter rule) (advance enter' rule) := by
  intro cs within
  cases rule with
  | terminal accepts item =>
    rw [advance, advance]
    exact ⟨rfl, pure_ne_tooDeep _⟩
  | sequence parts =>
    rw [advance, advance]
    exact advanceFirst_agree entered parts acts k near far cs within
  | alternation choices =>
    rw [advance, advance]
    exact advanceEach_agree entered choices acts k
      (fun name choice among chosen => near name (.choice among chosen)) far cs within
  | repetition inner =>
    have inside := advance_agree entered inner acts.round k
      (fun name inside => near name (.round inside)) far
    rw [advance, advance]
    refine agree_bind (repetitionFrom_agree (advance_sound entered inner) acts.round inside within
      (fun _ => Pool.length_le_longest) ?_) fun more _ => ⟨rfl, pure_ne_tooDeep _⟩
    rw [repetitionRounds]
    omega
  | empty =>
    rw [advance, advance]
    exact ⟨rfl, pure_ne_tooDeep _⟩
  | deferred name =>
    rw [advance, advance]
    exact near name .named cs within
  | build action inner =>
    have inside := advance_agree entered inner acts.inside k
      (fun name inside => near name (.built inside)) far
    rw [advance, advance]
    exact agree_bind (inside cs within) fun outs _ => ⟨rfl, pure_ne_tooDeep _⟩

theorem advanceFirst_agree
    (entered : ∀ name, Sound (Derives rules AnyRound (rules name)) (enter name))
    (parts : List (Rule τ ι ρ)) (acts : Acts Candidate.KeepsPlace rules (.sequence parts)) (k : Nat)
    (near : ∀ name, Enters rules (.sequence parts) name → Agree k (enter name) (enter' name))
    (far : ∀ j < k, ∀ name, Agree j (enter name) (enter' name)) :
    Agree k (advanceFirst enter parts) (advanceFirst enter' parts) := by
  intro cs within
  cases parts with
  | nil => exact ⟨rfl, pure_ne_tooDeep _⟩
  | cons part parts =>
    have at_first :=
      advance_agree entered part acts.first k (fun name at_first => near name (.first at_first)) far
    rw [advanceFirst, advanceFirst]
    refine agree_bind (at_first cs within) fun next read => ?_
    by_cases none_left : next.isEmpty
    · rw [if_pos none_left, if_pos none_left]
      exact ⟨rfl, pure_ne_tooDeep _⟩
    · rw [if_neg none_left, if_neg none_left]
      have some_left : next ≠ [] := by simpa using none_left
      exact agree_behind acts.first (advance_sound entered part) read within some_left near far
        fun j near far => advanceRest_agree entered parts acts.later j near far

theorem advanceRest_agree
    (entered : ∀ name, Sound (Derives rules AnyRound (rules name)) (enter name))
    (parts : List (Rule τ ι ρ)) (acts : Acts Candidate.KeepsPlace rules (.sequence parts)) (k : Nat)
    (near : ∀ name, Enters rules (.sequence parts) name → Agree k (enter name) (enter' name))
    (far : ∀ j < k, ∀ name, Agree j (enter name) (enter' name)) :
    Agree k (advanceRest enter parts) (advanceRest enter' parts) := by
  intro cs within
  cases parts with
  | nil => exact ⟨rfl, pure_ne_tooDeep _⟩
  | cons part parts =>
    have at_first :=
      advance_agree entered part acts.first k (fun name at_first => near name (.first at_first)) far
    rw [advanceRest, advanceRest]
    refine agree_bind (at_first cs within) fun next read => ?_
    by_cases none_left : next.isEmpty
    · rw [if_pos none_left, if_pos none_left]
      exact ⟨rfl, nextTokenError_ne_tooDeep cs⟩
    · rw [if_neg none_left, if_neg none_left]
      have some_left : next ≠ [] := by simpa using none_left
      exact agree_behind acts.first (advance_sound entered part) read within some_left near far
        fun j near far => advanceRest_agree entered parts acts.later j near far

theorem advanceEach_agree
    (entered : ∀ name, Sound (Derives rules AnyRound (rules name)) (enter name))
    (choices : List (Rule τ ι ρ)) (acts : Acts Candidate.KeepsPlace rules (.alternation choices))
    (k : Nat)
    (near : ∀ name, ∀ choice ∈ choices, Enters rules choice name →
      Agree k (enter name) (enter' name))
    (far : ∀ j < k, ∀ name, Agree j (enter name) (enter' name)) :
    Agree k (advanceEach enter choices) (advanceEach enter' choices) := by
  intro cs within
  cases choices with
  | nil => exact ⟨rfl, pure_ne_tooDeep _⟩
  | cons choice choices =>
    have at_first := advance_agree entered choice (acts.choice_of_mem List.mem_cons_self) k
      (fun name => near name choice List.mem_cons_self) far
    rw [advanceEach, advanceEach]
    refine agree_bind (at_first cs within) fun outs _ => ?_
    refine agree_bind (advanceEach_agree entered choices acts.others k
      (fun name other among => near name other (List.mem_cons_of_mem choice among)) far cs within)
      fun more _ => ⟨rfl, pure_ne_tooDeep _⟩

end

end Rule

namespace Rulebook

variable (book : Rulebook τ ι ρ) {rank : ρ → Nat}

/-- No name can come to itself again before a token is taken: to enter a name is to fall in rank,
and the ranks lie below the chain that the book allows. -/
structure Guarded (book : Rulebook τ ι ρ) (rank : ρ → Nat) : Prop where
  falls : ∀ {name inner}, Enters book.rule (book.rule name) inner → rank inner < rank name
  lt_chain : ∀ name, rank name < book.chain

/-- Finitely many names have ranks if none of them can come to itself again. -/
theorem exists_guarded [Fintype ρ] (enough : Fintype.card ρ ≤ book.chain)
    (acyclic : ∀ name,
      ¬Relation.TransGen (fun name => Enters book.rule (book.rule name)) name name) :
    ∃ rank, book.Guarded rank := by
  classical
  let Comes := Relation.TransGen fun name => Enters book.rule (book.rule name)
  refine ⟨fun name => (Finset.univ.filter (Comes name)).card, fun {name inner} entered => ?_,
    fun name => ?_⟩
  · refine Finset.card_lt_card (Finset.ssubset_iff_of_subset ?_ |>.2 ⟨inner, ?_, ?_⟩)
    · intro other mem
      have further : Comes inner other := by simpa using mem
      simpa using (Relation.TransGen.head entered further : Comes name other)
    · simpa using (Relation.TransGen.single entered : Comes name inner)
    · simpa using acyclic inner
  · refine Nat.lt_of_lt_of_le (Finset.card_lt_univ_of_notMem (x := name) ?_) enough
    simpa using acyclic name

variable {book}

theorem Guarded.enter_agree (guarded : book.Guarded rank)
    (keeps : ∀ name, ∀ action ∈ (book.rule name).actions, Candidate.KeepsPlace action)
    {depth depth' k : Nat} {name : ρ}
    (enough : k * book.chain + rank name < depth)
    (enough' : k * book.chain + rank name < depth') :
    Agree k (book.enter depth name) (book.enter depth' name) := by
  induction depth generalizing depth' k name with
  | zero => omega
  | succ depth ih =>
    obtain ⟨depth', rfl⟩ := Nat.exists_eq_succ_of_ne_zero (Nat.ne_zero_of_lt enough')
    refine advance_agree (book.enter_sound depth) (book.rule name) ⟨keeps name, keeps⟩ k ?_ ?_
    · intro inner entered
      have := guarded.falls entered
      exact ih (by omega) (by omega)
    · intro j less inner
      have := guarded.lt_chain inner
      have : (j + 1) * book.chain ≤ k * book.chain := Nat.mul_le_mul_right _ less
      rw [Nat.succ_mul] at this
      exact ih (by omega) (by omega)

theorem Guarded.read_agree (guarded : book.Guarded rank) (rule : Rule τ ι ρ)
    (acts : Acts Candidate.KeepsPlace book.rule rule) (cs : Pool τ ι) {depth : Nat}
    (enough : book.depth cs ≤ depth) :
    book.read rule cs = rule.advance (book.enter depth) cs ∧
      book.read rule cs ≠ .error .tooDeep := by
  have deep : ∀ k ≤ cs.longest, ∀ name, k * book.chain + rank name < book.depth cs := by
    intro k le name
    have := guarded.lt_chain name
    have : k * book.chain ≤ cs.longest * book.chain := Nat.mul_le_mul_right _ le
    rw [Rulebook.depth, Nat.succ_mul]
    omega
  have agree : ∀ k ≤ cs.longest, ∀ name,
      Agree k (book.enter (book.depth cs) name) (book.enter depth name) := fun k le name =>
    guarded.enter_agree acts.named (deep k le name) (Nat.lt_of_lt_of_le (deep k le name) enough)
  exact advance_agree (book.enter_sound _) rule acts cs.longest
    (fun name _ => agree _ (Nat.le_refl _) name)
    (fun j less name => agree j (Nat.le_of_lt less) name) cs cs.within_longest

theorem Guarded.complete_ne_tooDeep (guarded : book.Guarded rank) (rule : Rule τ ι ρ)
    (acts : Acts Candidate.KeepsPlace book.rule rule) (start : Candidate τ ι) :
    book.complete rule start ≠ .error .tooDeep := by
  have calm := (guarded.read_agree rule acts [start] (Nat.le_refl _)).2
  rw [complete, best, bind_assoc]
  cases read : book.read rule [start] with
  | error e =>
    rw [read] at calm
    exact fun deep => calm (congrArg Except.error (Except.error.inj deep))
  | ok outs =>
    simp only [bind, Except.bind, pure, Except.pure]
    split
    · split
      · simp
      · exact nextTokenError_ne_tooDeep _
    · exact nextTokenError_ne_tooDeep _

/-- A reading by a book in which no rule comes to itself again before a token is taken, and in which
actions work on the stack, finds only what can be derived from its candidates, and all that can be
derived by rounds that take a token. How deep named rules are entered does not matter, if it is as
deep as the book allows. -/
theorem reading_finds_what_derives (guarded : book.Guarded rank) (rule : Rule τ ι ρ)
    (acts : Acts Candidate.KeepsPlace book.rule rule) (cs : Pool τ ι) :
    book.read rule cs ≠ .error .tooDeep ∧
    (∀ depth, book.depth cs ≤ depth → rule.advance (book.enter depth) cs = book.read rule cs) ∧
    ∀ outs, book.read rule cs = .ok outs →
      (∀ d ∈ outs, ∃ c ∈ cs, Derives book.rule AnyRound rule c d ∧ d.tokens = c.tokens ∧
        c.index ≤ d.index ∧ d.index ≤ d.tokens.length) ∧
      ∀ c ∈ cs, ∀ d, Derives book.rule TakingRound rule c d → d ∈ outs := by
  refine ⟨(guarded.read_agree rule acts cs (Nat.le_refl _)).2,
    fun depth enough => (guarded.read_agree rule acts cs enough).1.symm, fun outs read => ⟨?_, ?_⟩⟩
  · intro d mem
    obtain ⟨c, given, derived⟩ := book.read_sound rule cs outs read d mem
    obtain ⟨same, forward⟩ := derived.within acts
    exact ⟨c, given, derived, same, forward, d.inside⟩
  · intro c given d derived
    exact book.read_complete rule cs outs read c given d derived

/-- Brackets around brackets are read to any depth, and each pair is counted. -/
theorem brackets_derived :
    let pair : Rule Char Nat Unit :=
      .sequence [.terminal (· = '(') none, .deferred (), .terminal (· = ')') none]
    let counted : Rule Char Nat Unit := .build (.rework fun c => c.stack.length :: c.stack) pair
    let brackets : Rulebook Char Nat Unit := ⟨fun _ => .optional counted, 1⟩
    let start : Candidate Char Nat := .start ['(', '(', ')', ')']
    brackets.Guarded (fun _ => 0) ∧
      Acts Candidate.KeepsPlace brackets.rule (.deferred ()) ∧
      Derives brackets.rule AnyRound (.deferred ()) start
        ⟨['(', '(', ')', ')'], 4, [1, 0], by decide⟩ := by
  intro pair counted brackets start
  have keeps : ∀ action ∈ counted.actions, Candidate.KeepsPlace action := by
    simp [counted, pair, actions, actionsOfAll, Candidate.keepsPlace_rework]
  have acts : Acts Candidate.KeepsPlace brackets.rule (.deferred ()) := by
    refine ⟨by simp [actions], fun _ action mem => keeps action ?_⟩
    simpa [brackets, Rule.optional, actions, actionsOfAll] using mem
  have guarded : brackets.Guarded fun _ => 0 := by
    refine ⟨fun entered => ?_, fun _ => Nat.one_pos⟩
    cases entered with
    | choice among chosen =>
      rcases List.mem_cons.1 among with rfl | among
      · exact absurd chosen ((Opens.build (.sequence .terminal)).not_enters ⟨keeps, acts.named⟩)
      · obtain rfl := List.mem_singleton.1 among
        cases chosen
  let closed : Candidate Char Nat := ⟨['(', '(', ')', ')'], 4, [1, 0], by decide⟩
  have read : brackets.read (.deferred ()) [start] = .ok [closed, start] := rfl
  obtain ⟨-, -, found⟩ := reading_finds_what_derives guarded (.deferred ()) acts [start]
  obtain ⟨c, given, derived, -⟩ := (found _ read).1 _ List.mem_cons_self
  obtain rfl := List.mem_singleton.1 given
  exact ⟨guarded, acts, derived⟩

end Rulebook
end ActorScript
