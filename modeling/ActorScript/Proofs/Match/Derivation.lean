import ActorScript.Proofs.Match.Action

/-!
What a rule means for one candidate at a time: a derivation chooses one branch at each alternative
and one count at each repetition. A reading that carries all candidates along finds only what can be
derived, and all that can be derived by rounds that take a token.
-/
namespace ActorScript

variable {τ ι ρ : Type}

namespace Rule

/-- What a rule can make of one candidate. `round` says which rounds a repetition may be made of. -/
inductive Derives (rules : ρ → Rule τ ι ρ) (round : Candidate τ ι → Candidate τ ι → Prop) :
    Rule τ ι ρ → Candidate τ ι → Candidate τ ι → Prop where
  | terminal {accepts item c d} (taken : c.take? accepts item = some d) :
      Derives rules round (.terminal accepts item) c d
  | nil {c} : Derives rules round (.sequence []) c c
  | cons {part parts c d e} (first : Derives rules round part c d)
      (rest : Derives rules round (.sequence parts) d e) :
      Derives rules round (.sequence (part :: parts)) c e
  | choice {choice choices c d} (among : choice ∈ choices)
      (chosen : Derives rules round choice c d) : Derives rules round (.alternation choices) c d
  | done {inner c} : Derives rules round (.repetition inner) c c
  | again {inner c d e} (once : Derives rules round inner c d) (counts : round c d)
      (more : Derives rules round (.repetition inner) d e) :
      Derives rules round (.repetition inner) c e
  | empty {c} : Derives rules round .empty c c
  | named {name c d} (entered : Derives rules round (rules name) c d) :
      Derives rules round (.deferred name) c d
  | built {action inner c d} (part : Derives rules round inner c d) :
      Derives rules round (.build action inner) c (action d)

def AnyRound (_ _ : Candidate τ ι) : Prop := True

/-- Only a round that takes a token counts. -/
def TakingRound (c d : Candidate τ ι) : Prop := c.index < d.index

variable {rules : ρ → Rule τ ι ρ} {round : Candidate τ ι → Candidate τ ι → Prop}
  {enter : ρ → Pool τ ι → Reading τ (Pool τ ι)} {rule : Rule τ ι ρ} {c d e : Candidate τ ι}

theorem take?_eq_some {accepts : τ → Bool} {item : Option (τ → ι)} :
    c.take? accepts item = some d ↔ ∃ token, c.tokens[c.index]? = some token ∧
      accepts token = true ∧ d = c.skip item token := by
  unfold Candidate.take? Candidate.peek?
  cases c.tokens[c.index]? with
  | none => simp
  | some token =>
    constructor
    · intro taken
      dsimp only at taken
      split at taken
      · rename_i accepted
        exact ⟨token, rfl, accepted, (Option.some.inj taken).symm⟩
      · simp at taken
    · rintro ⟨_, found, accepted, rfl⟩
      obtain rfl := Option.some.inj found
      exact if_pos accepted

theorem index_skip {token : τ} (found : c.tokens[c.index]? = some token)
    (item : Option (τ → ι)) : (c.skip item token).index = c.index + 1 :=
  Nat.min_eq_left (List.getElem?_eq_some_iff.1 found).1

theorem Derives.tokens_eq (h : Derives rules round rule c d)
    (acts : Acts Candidate.KeepsTokens rules rule) : d.tokens = c.tokens := by
  induction h with
  | terminal taken =>
    obtain ⟨token, -, -, rfl⟩ := take?_eq_some.1 taken
    rfl
  | nil | done | empty => rfl
  | cons _ _ ih ih' => exact (ih' acts.later).trans (ih acts.first)
  | choice among _ ih => exact ih (acts.choice_of_mem among)
  | again _ _ _ ih ih' => exact (ih' acts).trans (ih acts.round)
  | named _ ih => exact ih acts.entered
  | built _ ih => exact (acts.built _).trans (ih acts.inside)

theorem Derives.within (h : Derives rules round rule c d)
    (acts : Acts Candidate.KeepsPlace rules rule) : d.tokens = c.tokens ∧ c.index ≤ d.index := by
  refine ⟨h.tokens_eq (acts.mono fun _ => Candidate.KeepsPlace.keepsTokens), ?_⟩
  induction h with
  | terminal taken =>
    obtain ⟨token, found, -, rfl⟩ := take?_eq_some.1 taken
    rw [index_skip found]
    exact Nat.le_succ _
  | nil | done | empty => exact Nat.le_refl _
  | cons _ _ ih ih' => exact Nat.le_trans (ih acts.first) (ih' acts.later)
  | choice among _ ih => exact ih (acts.choice_of_mem among)
  | again _ _ _ ih ih' => exact Nat.le_trans (ih acts.round) (ih' acts)
  | named _ ih => exact ih acts.entered
  | built _ ih => exact Nat.le_trans (ih acts.inside) (Nat.le_of_eq (acts.built _).2.symm)

theorem Derives.mono {round' : Candidate τ ι → Candidate τ ι → Prop}
    (wider : ∀ c d, round c d → round' c d) (h : Derives rules round rule c d) :
    Derives rules round' rule c d := by
  induction h with
  | terminal taken => exact .terminal taken
  | nil => exact .nil
  | cons _ _ ih ih' => exact .cons ih ih'
  | choice among _ ih => exact .choice among ih
  | done => exact .done
  | again _ counts _ ih ih' => exact .again ih (wider _ _ counts) ih'
  | empty => exact .empty
  | named _ ih => exact .named ih
  | built _ ih => exact .built ih

end Rule

/-- What a reading yields comes of the candidates it was given. -/
def Sound (derives : Candidate τ ι → Candidate τ ι → Prop)
    (reading : Pool τ ι → Reading τ (Pool τ ι)) : Prop :=
  ∀ cs outs, reading cs = .ok outs → ∀ d ∈ outs, ∃ c ∈ cs, derives c d

/-- A reading that succeeds yields all that comes of the candidates it was given. -/
def Complete (derives : Candidate τ ι → Candidate τ ι → Prop)
    (reading : Pool τ ι → Reading τ (Pool τ ι)) : Prop :=
  ∀ cs outs, reading cs = .ok outs → ∀ c ∈ cs, ∀ d, derives c d → d ∈ outs

section Alone

variable {derives : Candidate τ ι → Candidate τ ι → Prop}
  {reading : Pool τ ι → Reading τ (Pool τ ι)} {c d : Candidate τ ι} {outs : Pool τ ι}

theorem Sound.of_singleton (sound : Sound derives reading) (read : reading [c] = .ok outs)
    (mem : d ∈ outs) : derives c d := by
  obtain ⟨b, given, derived⟩ := sound [c] outs read d mem
  obtain rfl := List.mem_singleton.1 given
  exact derived

theorem Complete.of_singleton (complete : Complete derives reading) (read : reading [c] = .ok outs)
    (derived : derives c d) : d ∈ outs :=
  complete [c] outs read c (List.mem_singleton_self c) d derived

end Alone

theorem bind_eq_ok {ε α β : Type} {x : Except ε α} {f : α → Except ε β} {b : β} :
    (x >>= f) = .ok b ↔ ∃ a, x = .ok a ∧ f a = .ok b := by
  cases x with
  | error e => simp [bind, Except.bind]
  | ok a => simp [bind, Except.bind]

namespace Pool

theorem smallestIndex_le {cs : Pool τ ι} {c : Candidate τ ι} (h : c ∈ cs) :
    smallestIndex cs ≤ c.index := by
  induction cs with
  | nil => simp at h
  | cons d cs ih =>
    cases cs with
    | nil =>
      obtain rfl := List.mem_singleton.1 h
      exact Nat.le_refl _
    | cons e cs =>
      rw [smallestIndex]
      rcases List.mem_cons.1 h with rfl | h
      · exact Nat.min_le_left _ _
      · exact Nat.le_trans (Nat.min_le_right _ _) (ih h)

theorem exists_smallestIndex {cs : Pool τ ι} (h : cs ≠ []) :
    ∃ c ∈ cs, c.index = smallestIndex cs := by
  induction cs with
  | nil => exact absurd rfl h
  | cons d cs ih =>
    cases cs with
    | nil => exact ⟨d, List.mem_cons_self, rfl⟩
    | cons e cs =>
      obtain ⟨c, mem, smallest⟩ := ih (List.cons_ne_nil e cs)
      rw [smallestIndex]
      by_cases first : d.index ≤ smallestIndex (e :: cs)
      · exact ⟨d, List.mem_cons_self, (Nat.min_eq_left first).symm⟩
      · exact ⟨c, List.mem_cons_of_mem d mem, by omega⟩

theorem length_le_longest {cs : Pool τ ι} {c : Candidate τ ι} (h : c ∈ cs) :
    c.tokens.length ≤ longest cs := by
  induction cs with
  | nil => simp at h
  | cons d cs ih =>
    rw [longest]
    rcases List.mem_cons.1 h with rfl | h
    · exact Nat.le_max_left _ _
    · exact Nat.le_trans (ih h) (Nat.le_max_right _ _)

theorem longest_le {cs : Pool τ ι} {limit : Nat} (short : ∀ c ∈ cs, c.tokens.length ≤ limit) :
    longest cs ≤ limit := by
  induction cs with
  | nil => exact Nat.zero_le _
  | cons c cs ih =>
    obtain ⟨first, others⟩ := List.forall_mem_cons.1 short
    exact Nat.max_le.2 ⟨first, ih others⟩

end Pool

section Repetition

open Rule

variable {rules : ρ → Rule τ ι ρ} {inner : Rule τ ι ρ}
  {reading : Pool τ ι → Reading τ (Pool τ ι)}

theorem repetitionRound_eq_ok {cs next : Pool τ ι} :
    repetitionRound reading cs = .ok next ↔ ∃ outs, reading cs = .ok outs ∧
      next = outs.filter fun c => Pool.smallestIndex cs < c.index := by
  rw [repetitionRound, bind_eq_ok]
  simp only [pure, Except.pure, Except.ok.injEq, eq_comm]

theorem repetitionFrom_nil (rounds : Nat) : repetitionFrom reading rounds [] = .ok [] := by
  cases rounds <;> rfl

theorem repetitionFrom_zero {cs : Pool τ ι} (some_left : cs ≠ []) :
    repetitionFrom reading 0 cs = .error .tooDeep := if_neg (by simpa using some_left)

theorem repetitionFrom_eq_ok {rounds : Nat} {cs more : Pool τ ι} (some_left : cs ≠ []) :
    repetitionFrom reading (rounds + 1) cs = .ok more ↔
      ∃ next rest, repetitionRound reading cs = .ok next ∧
        repetitionFrom reading rounds next = .ok rest ∧ more = next ++ rest := by
  rw [repetitionFrom, if_neg (by simpa using some_left), bind_eq_ok]
  constructor
  · rintro ⟨next, first, later⟩
    obtain ⟨rest, tail, eq⟩ := bind_eq_ok.1 later
    exact ⟨next, rest, first, tail, (Except.ok.inj eq).symm⟩
  · rintro ⟨next, rest, first, tail, rfl⟩
    exact ⟨next, first, bind_eq_ok.2 ⟨rest, tail, rfl⟩⟩

/-- A repetition that comes to its end has had no candidate, or a round and then the rest. -/
theorem repetitionFrom_cases {motive : Pool τ ι → Pool τ ι → Prop}
    (ended : motive [] [])
    (again : ∀ {cs next rest}, cs ≠ [] → repetitionRound reading cs = .ok next →
      motive next rest → motive cs (next ++ rest))
    {rounds : Nat} {cs more : Pool τ ι} (h : repetitionFrom reading rounds cs = .ok more) :
    motive cs more := by
  induction rounds generalizing cs more with
  | zero =>
    by_cases some_left : cs = []
    · subst some_left
      obtain rfl := Except.ok.inj h
      exact ended
    · rw [repetitionFrom_zero some_left] at h
      cases h
  | succ rounds ih =>
    by_cases some_left : cs = []
    · subst some_left
      obtain rfl := Except.ok.inj h
      exact ended
    · obtain ⟨next, rest, first, later, rfl⟩ := (repetitionFrom_eq_ok some_left).1 h
      exact again some_left first (ih later)

theorem repetitionFrom_sound (sound : Sound (Derives rules AnyRound inner) reading)
    {rounds : Nat} {cs more : Pool τ ι} (h : repetitionFrom reading rounds cs = .ok more) :
    ∀ d ∈ more, ∃ c ∈ cs, Derives rules AnyRound (.repetition inner) c d := by
  refine repetitionFrom_cases (motive := fun cs more => ∀ d ∈ more, ∃ c ∈ cs,
    Derives rules AnyRound (.repetition inner) c d) (by simp) (fun {cs _ _} _ round ih => ?_) h
  obtain ⟨outs, read, rfl⟩ := repetitionRound_eq_ok.1 round
  intro d mem
  rcases List.mem_append.1 mem with mem | mem
  · obtain ⟨c, given, once⟩ := sound cs outs read d (List.mem_filter.1 mem).1
    exact ⟨c, given, .again once trivial .done⟩
  · obtain ⟨b, between, more⟩ := ih d mem
    obtain ⟨c, given, once⟩ := sound cs outs read b (List.mem_filter.1 between).1
    exact ⟨c, given, .again once trivial more⟩

theorem repetitionFrom_complete (complete : Complete (Derives rules TakingRound inner) reading)
    {rounds : Nat} {cs more : Pool τ ι} (h : repetitionFrom reading rounds cs = .ok more) :
    ∀ c ∈ cs, ∀ d, Derives rules TakingRound (.repetition inner) c d → d = c ∨ d ∈ more := by
  refine repetitionFrom_cases (motive := fun cs more => ∀ c ∈ cs, ∀ d,
    Derives rules TakingRound (.repetition inner) c d → d = c ∨ d ∈ more) (by simp)
    (fun {cs _ _} _ round ih => ?_) h
  obtain ⟨outs, read, rfl⟩ := repetitionRound_eq_ok.1 round
  intro c given d derived
  cases derived with
  | done => exact .inl rfl
  | @again _ _ b _ once taking chain =>
    have kept : b ∈ outs.filter fun c => Pool.smallestIndex cs < c.index := by
      have := Pool.smallestIndex_le given
      have : c.index < b.index := taking
      exact List.mem_filter.2 ⟨complete cs outs read c given b once, by simp; omega⟩
    rcases ih b kept d chain with rfl | later
    · exact .inr (List.mem_append_left _ kept)
    · exact .inr (List.mem_append_right _ later)

end Repetition

namespace Rule

variable {rules : ρ → Rule τ ι ρ} {enter : ρ → Pool τ ι → Reading τ (Pool τ ι)}

section Unfolding

variable {parts choices : List (Rule τ ι ρ)} {part inner : Rule τ ι ρ} {cs outs : Pool τ ι}

theorem advanceFirst_cons_eq_ok : advanceFirst enter (part :: parts) cs = .ok outs ↔
    ∃ next, advance enter part cs = .ok next ∧
      (next = [] ∧ outs = [] ∨ next ≠ [] ∧ advanceRest enter parts next = .ok outs) := by
  rw [advanceFirst, bind_eq_ok]
  constructor
  · rintro ⟨next, first, later⟩
    refine ⟨next, first, ?_⟩
    split at later
    · rename_i none_left
      exact .inl ⟨by simpa using none_left, (Except.ok.inj later).symm⟩
    · rename_i some_left
      exact .inr ⟨by simpa using some_left, later⟩
  · rintro ⟨next, first, ⟨rfl, rfl⟩ | ⟨some_left, later⟩⟩
    · exact ⟨[], first, rfl⟩
    · exact ⟨next, first, by rwa [if_neg (by simpa using some_left)]⟩

theorem advanceRest_cons_eq_ok : advanceRest enter (part :: parts) cs = .ok outs ↔
    ∃ next, advance enter part cs = .ok next ∧ next ≠ [] ∧
      advanceRest enter parts next = .ok outs := by
  rw [advanceRest, bind_eq_ok]
  constructor
  · rintro ⟨next, first, later⟩
    refine ⟨next, first, ?_⟩
    split at later
    · simp at later
    · rename_i some_left
      exact ⟨by simpa using some_left, later⟩
  · rintro ⟨next, first, some_left, later⟩
    exact ⟨next, first, by rwa [if_neg (by simpa using some_left)]⟩

theorem advanceEach_cons_eq_ok : advanceEach enter (part :: choices) cs = .ok outs ↔
    ∃ first more, advance enter part cs = .ok first ∧
      advanceEach enter choices cs = .ok more ∧ outs = first ++ more := by
  rw [advanceEach, bind_eq_ok]
  constructor
  · rintro ⟨first, read, later⟩
    obtain ⟨more, tail, eq⟩ := bind_eq_ok.1 later
    exact ⟨first, more, read, tail, (Except.ok.inj eq).symm⟩
  · rintro ⟨first, more, read, tail, rfl⟩
    exact ⟨first, read, bind_eq_ok.2 ⟨more, tail, rfl⟩⟩

theorem advance_repetition_eq_ok : advance enter (.repetition inner) cs = .ok outs ↔
    ∃ more, repetitionFrom (advance enter inner) (repetitionRounds cs) cs = .ok more ∧
      outs = cs ++ more := by
  rw [advance, bind_eq_ok]
  simp only [pure, Except.pure, Except.ok.injEq, eq_comm]

theorem advance_build_eq_ok {action : Candidate τ ι → Candidate τ ι} :
    advance enter (.build action inner) cs = .ok outs ↔
      ∃ made, advance enter inner cs = .ok made ∧ outs = made.map action := by
  rw [advance, bind_eq_ok]
  simp only [pure, Except.pure, Except.ok.injEq, eq_comm]

end Unfolding

mutual

theorem advance_sound (entered : ∀ name, Sound (Derives rules AnyRound (rules name)) (enter name))
    (rule : Rule τ ι ρ) : Sound (Derives rules AnyRound rule) (advance enter rule) := by
  intro cs outs read d mem
  cases rule with
  | terminal accepts item =>
    rw [advance] at read
    obtain rfl := Except.ok.inj read
    obtain ⟨c, given, taken⟩ := List.mem_filterMap.1 mem
    exact ⟨c, given, .terminal taken⟩
  | sequence parts =>
    rw [advance] at read
    exact advanceFirst_sound entered parts cs outs read d mem
  | alternation choices =>
    rw [advance] at read
    obtain ⟨choice, among, c, given, chosen⟩ := advanceEach_sound entered choices cs outs read d mem
    exact ⟨c, given, .choice among chosen⟩
  | repetition inner =>
    obtain ⟨more, rounds, rfl⟩ := advance_repetition_eq_ok.1 read
    rcases List.mem_append.1 mem with mem | mem
    · exact ⟨d, mem, .done⟩
    · exact repetitionFrom_sound (advance_sound entered inner) rounds d mem
  | empty =>
    rw [advance] at read
    obtain rfl := Except.ok.inj read
    exact ⟨d, mem, .empty⟩
  | deferred name =>
    rw [advance] at read
    obtain ⟨c, given, derived⟩ := entered name cs outs read d mem
    exact ⟨c, given, .named derived⟩
  | build action inner =>
    obtain ⟨made, read_inner, rfl⟩ := advance_build_eq_ok.1 read
    obtain ⟨b, before, rfl⟩ := List.mem_map.1 mem
    obtain ⟨c, given, derived⟩ := advance_sound entered inner cs made read_inner b before
    exact ⟨c, given, .built derived⟩

theorem advanceFirst_sound
    (entered : ∀ name, Sound (Derives rules AnyRound (rules name)) (enter name))
    (parts : List (Rule τ ι ρ)) :
    Sound (Derives rules AnyRound (.sequence parts)) (advanceFirst enter parts) := by
  intro cs outs read d mem
  cases parts with
  | nil =>
    obtain rfl := Except.ok.inj read
    exact ⟨d, mem, .nil⟩
  | cons part parts =>
    obtain ⟨next, first, ⟨-, rfl⟩ | ⟨-, later⟩⟩ := advanceFirst_cons_eq_ok.1 read
    · simp at mem
    · obtain ⟨b, between, rest⟩ := advanceRest_sound entered parts next outs later d mem
      obtain ⟨c, given, derived⟩ := advance_sound entered part cs next first b between
      exact ⟨c, given, .cons derived rest⟩

theorem advanceRest_sound
    (entered : ∀ name, Sound (Derives rules AnyRound (rules name)) (enter name))
    (parts : List (Rule τ ι ρ)) :
    Sound (Derives rules AnyRound (.sequence parts)) (advanceRest enter parts) := by
  intro cs outs read d mem
  cases parts with
  | nil =>
    obtain rfl := Except.ok.inj read
    exact ⟨d, mem, .nil⟩
  | cons part parts =>
    obtain ⟨next, first, -, later⟩ := advanceRest_cons_eq_ok.1 read
    obtain ⟨b, between, rest⟩ := advanceRest_sound entered parts next outs later d mem
    obtain ⟨c, given, derived⟩ := advance_sound entered part cs next first b between
    exact ⟨c, given, .cons derived rest⟩

theorem advanceEach_sound
    (entered : ∀ name, Sound (Derives rules AnyRound (rules name)) (enter name))
    (choices : List (Rule τ ι ρ)) (cs outs : Pool τ ι)
    (read : advanceEach enter choices cs = .ok outs) (d : Candidate τ ι) (mem : d ∈ outs) :
    ∃ choice ∈ choices, ∃ c ∈ cs, Derives rules AnyRound choice c d := by
  cases choices with
  | nil =>
    obtain rfl := Except.ok.inj read
    simp at mem
  | cons choice choices =>
    obtain ⟨first, more, chosen, others, rfl⟩ := advanceEach_cons_eq_ok.1 read
    rcases List.mem_append.1 mem with mem | mem
    · exact ⟨choice, List.mem_cons_self, advance_sound entered choice cs first chosen d mem⟩
    · obtain ⟨other, among, derived⟩ := advanceEach_sound entered choices cs more others d mem
      exact ⟨other, List.mem_cons_of_mem choice among, derived⟩

end

mutual

theorem advance_complete
    (entered : ∀ name, Complete (Derives rules TakingRound (rules name)) (enter name))
    (rule : Rule τ ι ρ) : Complete (Derives rules TakingRound rule) (advance enter rule) := by
  intro cs outs read c given d derived
  cases rule with
  | terminal accepts item =>
    rw [advance] at read
    obtain rfl := Except.ok.inj read
    cases derived with
    | terminal taken => exact List.mem_filterMap.2 ⟨c, given, taken⟩
  | sequence parts =>
    rw [advance] at read
    exact advanceFirst_complete entered parts cs outs read c given d derived
  | alternation choices =>
    rw [advance] at read
    cases derived with
    | choice among chosen =>
      exact advanceEach_complete entered choices cs outs read c given d _ among chosen
  | repetition inner =>
    obtain ⟨more, rounds, rfl⟩ := advance_repetition_eq_ok.1 read
    rcases repetitionFrom_complete (advance_complete entered inner) rounds c given d derived with
      rfl | later
    · exact List.mem_append_left _ given
    · exact List.mem_append_right _ later
  | empty =>
    rw [advance] at read
    obtain rfl := Except.ok.inj read
    cases derived with
    | empty => exact given
  | deferred name =>
    rw [advance] at read
    cases derived with
    | named derived => exact entered name cs outs read c given d derived
  | build action inner =>
    obtain ⟨made, read_inner, rfl⟩ := advance_build_eq_ok.1 read
    cases derived with
    | built derived =>
      exact List.mem_map_of_mem
        (advance_complete entered inner cs made read_inner c given _ derived)

theorem advanceFirst_complete
    (entered : ∀ name, Complete (Derives rules TakingRound (rules name)) (enter name))
    (parts : List (Rule τ ι ρ)) :
    Complete (Derives rules TakingRound (.sequence parts)) (advanceFirst enter parts) := by
  intro cs outs read c given d derived
  cases parts with
  | nil =>
    obtain rfl := Except.ok.inj read
    cases derived with
    | nil => exact given
  | cons part parts =>
    cases derived with
    | cons first rest =>
      obtain ⟨next, advanced, left⟩ := advanceFirst_cons_eq_ok.1 read
      have between := advance_complete entered part cs next advanced c given _ first
      rcases left with ⟨rfl, -⟩ | ⟨-, later⟩
      · simp at between
      · exact advanceRest_complete entered parts next outs later _ between d rest

theorem advanceRest_complete
    (entered : ∀ name, Complete (Derives rules TakingRound (rules name)) (enter name))
    (parts : List (Rule τ ι ρ)) :
    Complete (Derives rules TakingRound (.sequence parts)) (advanceRest enter parts) := by
  intro cs outs read c given d derived
  cases parts with
  | nil =>
    obtain rfl := Except.ok.inj read
    cases derived with
    | nil => exact given
  | cons part parts =>
    cases derived with
    | cons first rest =>
      obtain ⟨next, advanced, -, later⟩ := advanceRest_cons_eq_ok.1 read
      have between := advance_complete entered part cs next advanced c given _ first
      exact advanceRest_complete entered parts next outs later _ between d rest

theorem advanceEach_complete
    (entered : ∀ name, Complete (Derives rules TakingRound (rules name)) (enter name))
    (choices : List (Rule τ ι ρ)) (cs outs : Pool τ ι)
    (read : advanceEach enter choices cs = .ok outs) (c : Candidate τ ι) (given : c ∈ cs)
    (d : Candidate τ ι) (choice : Rule τ ι ρ) (among : choice ∈ choices)
    (chosen : Derives rules TakingRound choice c d) : d ∈ outs := by
  cases choices with
  | nil => simp at among
  | cons other choices =>
    obtain ⟨first, more, read_first, read_more, rfl⟩ := advanceEach_cons_eq_ok.1 read
    rcases List.mem_cons.1 among with rfl | among
    · exact List.mem_append_left _
        (advance_complete entered choice cs first read_first c given d chosen)
    · exact List.mem_append_right _
        (advanceEach_complete entered choices cs more read_more c given d choice among chosen)

end

end Rule

namespace Rulebook

open Rule

variable (book : Rulebook τ ι ρ)

/-- To whatever depth named rules are entered, only what can be derived is found. -/
theorem enter_sound (depth : Nat) (name : ρ) :
    Sound (Derives book.rule AnyRound (book.rule name)) (book.enter depth name) := by
  induction depth generalizing name with
  | zero =>
    intro cs outs read
    simp [enter] at read
  | succ depth ih => exact advance_sound ih (book.rule name)

theorem enter_complete (depth : Nat) (name : ρ) :
    Complete (Derives book.rule TakingRound (book.rule name)) (book.enter depth name) := by
  induction depth generalizing name with
  | zero =>
    intro cs outs read
    simp [enter] at read
  | succ depth ih => exact advance_complete ih (book.rule name)

theorem read_sound (rule : Rule τ ι ρ) : Sound (Derives book.rule AnyRound rule) (book.read rule) :=
  fun cs => advance_sound (book.enter_sound _) rule cs

theorem read_complete (rule : Rule τ ι ρ) :
    Complete (Derives book.rule TakingRound rule) (book.read rule) :=
  fun cs => advance_complete (book.enter_complete _) rule cs

end Rulebook
end ActorScript
