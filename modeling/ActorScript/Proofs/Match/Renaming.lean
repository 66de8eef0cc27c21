import ActorScript.Proofs.Match.Derivation

/-!
Renaming tokens. A rule is blind to a change of tokens and items if its terminals accept the same
tokens before and after, and its actions do to changed stacks what they do to others. Reading with
blind rules and then changing what was read is the same as reading changed tokens.
-/
namespace ActorScript

variable {τ ι ρ : Type} (f : τ → τ) (g : ι → ι)

def Candidate.rename (c : Candidate τ ι) : Candidate τ ι where
  tokens := c.tokens.map f
  index := c.index
  stack := c.stack.map g
  inside := by
    rw [List.length_map]
    exact c.inside

def MatchError.rename : MatchError τ → MatchError τ
  | .unexpected token => .unexpected (f token)
  | .exhausted => .exhausted
  | .tooDeep => .tooDeep

/-- What a reading comes to over changed tokens. -/
def renameReading : Reading τ (Pool τ ι) → Reading τ (Pool τ ι)
  | .ok cs => .ok (cs.map (Candidate.rename f g))
  | .error e => .error (e.rename f)

/-- A rule that makes no difference between tokens before and after. Actions may count on what the
rule inside them leaves of valid tokens. -/
inductive Rule.Blind (rules : ρ → Rule τ ι ρ) (valid : τ → Prop) : Rule τ ι ρ → Prop where
  | terminal {accepts : τ → Bool} {item : Option (τ → ι)}
      (same : ∀ t, accepts (f t) = accepts t)
      (items : ∀ t, item.map (· (f t)) = (item.map (· t)).map g) :
      Blind rules valid (.terminal accepts item)
  | sequence {parts : List (Rule τ ι ρ)} (each : ∀ part ∈ parts, Blind rules valid part) :
      Blind rules valid (.sequence parts)
  | alternation {choices : List (Rule τ ι ρ)}
      (each : ∀ choice ∈ choices, Blind rules valid choice) :
      Blind rules valid (.alternation choices)
  | repetition {inner : Rule τ ι ρ} (blind : Blind rules valid inner) :
      Blind rules valid (.repetition inner)
  | empty : Blind rules valid .empty
  | deferred {name : ρ} : Blind rules valid (.deferred name)
  | build {made : Candidate τ ι → List ι} {inner : Rule τ ι ρ} (blind : Blind rules valid inner)
      (same : ∀ c d, (∀ t ∈ c.tokens, valid t) → Rule.Derives rules Rule.AnyRound inner c d →
        made (d.rename f g) = (made d).map g) :
      Blind rules valid (.build (.rework made) inner)

/-- On candidates with valid tokens, reading changed ones is reading and then changing. -/
def Follows (valid : τ → Prop) (reading : Pool τ ι → Reading τ (Pool τ ι)) : Prop :=
  ∀ cs : Pool τ ι, (∀ c ∈ cs, ∀ t ∈ c.tokens, valid t) →
    reading (cs.map (Candidate.rename f g)) = renameReading f g (reading cs)

variable {f g}

namespace Pool

variable (cs : Pool τ ι)

theorem smallestIndex_rename :
    smallestIndex (cs.map (Candidate.rename f g)) = smallestIndex cs := by
  induction cs with
  | nil => rfl
  | cons c cs ih =>
    cases cs with
    | nil => rfl
    | cons d cs =>
      rw [List.map_cons] at ih
      rw [List.map_cons, List.map_cons, smallestIndex, smallestIndex, ih]
      rfl

theorem longest_rename : longest (cs.map (Candidate.rename f g)) = longest cs := by
  induction cs with
  | nil => rfl
  | cons c cs ih =>
    rw [List.map_cons, longest, longest, ih, Candidate.rename, List.length_map]

theorem furthest?_rename :
    furthest? (cs.map (Candidate.rename f g)) = (furthest? cs).map (Candidate.rename f g) := by
  induction cs with
  | nil => rfl
  | cons c cs ih =>
    rw [List.map_cons, furthest?, furthest?, ih]
    cases furthest? cs with
    | none => rfl
    | some d =>
      by_cases farther : c.index < d.index
      · simp [Candidate.rename, farther]
      · simp [Candidate.rename, farther]

end Pool

theorem peek?_rename (c : Candidate τ ι) : (c.rename f g).peek? = c.peek?.map f := by
  rw [Candidate.peek?, Candidate.peek?, Candidate.rename, List.getElem?_map]

theorem nextTokenError_rename (cs : Pool τ ι) :
    nextTokenError (cs.map (Candidate.rename f g)) = (nextTokenError cs).rename f := by
  rw [nextTokenError, nextTokenError, Pool.furthest?_rename]
  cases Pool.furthest? cs with
  | none => rfl
  | some c =>
    rw [Option.map_some, Option.bind_some, Option.bind_some, peek?_rename]
    cases c.peek? <;> rfl

/-- One reading after another, where the second only sees what the first yields. -/
theorem renameReading_bind {x : Reading τ (Pool τ ι)} {k k' : Pool τ ι → Reading τ (Pool τ ι)}
    (later : ∀ outs, x = .ok outs →
      k' (outs.map (Candidate.rename f g)) = renameReading f g (k outs)) :
    (renameReading f g x >>= k') = renameReading f g (x >>= k) := by
  cases x with
  | error e => rfl
  | ok outs => exact later outs rfl

section Repetition

variable {valid : τ → Prop} {reading : Pool τ ι → Reading τ (Pool τ ι)}
  (follows : Follows f g valid reading)
  (stays : ∀ cs outs, (∀ c ∈ cs, ∀ t ∈ c.tokens, valid t) → reading cs = .ok outs →
    ∀ c ∈ outs, ∀ t ∈ c.tokens, valid t)

include follows stays

theorem repetitionFrom_rename (rounds : Nat) :
    Follows f g valid (repetitionFrom reading rounds) := by
  induction rounds with
  | zero =>
    intro cs _
    rw [repetitionFrom, repetitionFrom, List.isEmpty_map]
    split <;> rfl
  | succ rounds ih =>
    intro cs all_valid
    rw [repetitionFrom, repetitionFrom, List.isEmpty_map]
    split
    · rfl
    · have round : repetitionRound reading (cs.map (Candidate.rename f g)) =
          renameReading f g (repetitionRound reading cs) := by
        rw [repetitionRound, repetitionRound, follows cs all_valid, Pool.smallestIndex_rename]
        apply renameReading_bind
        intro outs _
        show Except.ok _ = Except.ok _
        rw [List.filter_map]
        rfl
      rw [round]
      apply renameReading_bind
      intro next read
      have next_valid : ∀ c ∈ next, ∀ t ∈ c.tokens, valid t := by
        obtain ⟨outs, read_outs, rfl⟩ := repetitionRound_eq_ok.1 read
        intro c mem
        exact stays cs outs all_valid read_outs c (List.mem_filter.1 mem).1
      rw [ih next next_valid]
      apply renameReading_bind
      intro more _
      show Except.ok _ = Except.ok _
      rw [List.map_append]

end Repetition

namespace Rule

variable {rules : ρ → Rule τ ι ρ} {valid : τ → Prop}
  {enter : ρ → Pool τ ι → Reading τ (Pool τ ι)} {rule part : Rule τ ι ρ}
  {parts choices : List (Rule τ ι ρ)}

theorem skip_rename {item : Option (τ → ι)}
    (items : ∀ t, item.map (· (f t)) = (item.map (· t)).map g) (c : Candidate τ ι) (t : τ) :
    (c.rename f g).skip item (f t) = (c.skip item t).rename f g := by
  apply Candidate.ext
  · rfl
  · simp [Candidate.skip, Candidate.rename]
  · simp [Candidate.skip, Candidate.rename, items, Option.toList_map]

theorem take?_rename {accepts : τ → Bool} {item : Option (τ → ι)}
    (same : ∀ t, accepts (f t) = accepts t)
    (items : ∀ t, item.map (· (f t)) = (item.map (· t)).map g) (c : Candidate τ ι) :
    (c.rename f g).take? accepts item = (c.take? accepts item).map (Candidate.rename f g) := by
  rw [Candidate.take?, Candidate.take?, peek?_rename]
  cases c.peek? with
  | none => rfl
  | some t =>
    rw [Option.map_some]
    dsimp only
    rw [same]
    split
    · exact congrArg some (skip_rename items c t)
    · rfl

theorem Blind.keepsPlace (blind : Blind f g rules valid rule) :
    ∀ action ∈ rule.actions, Candidate.KeepsPlace action := by
  induction blind with
  | terminal | empty | deferred => simp [actions]
  | sequence _ ih | alternation _ ih =>
    intro action mem
    obtain ⟨part, among, mem⟩ := mem_actionsOfAll.1 mem
    exact ih part among action mem
  | repetition _ ih => exact ih
  | build _ _ ih => exact List.forall_mem_cons.2 ⟨Candidate.keepsPlace_rework _, ih⟩

theorem valid_of_advance (sound : ∀ name, Sound (Derives rules AnyRound (rules name)) (enter name))
    (acts : Acts Candidate.KeepsPlace rules rule) {cs outs : Pool τ ι}
    (all_valid : ∀ c ∈ cs, ∀ t ∈ c.tokens, valid t) (read : advance enter rule cs = .ok outs) :
    ∀ c ∈ outs, ∀ t ∈ c.tokens, valid t := by
  intro d mem
  obtain ⟨c, given, derived⟩ := advance_sound sound rule cs outs read d mem
  rw [(derived.within acts).1]
  exact all_valid c given

section Parts

variable (sound : ∀ name, Sound (Derives rules AnyRound (rules name)) (enter name))

include sound

theorem advanceRest_rename (acts : Acts Candidate.KeepsPlace rules (.sequence parts))
    (each : ∀ part ∈ parts, Follows f g valid (advance enter part)) :
    Follows f g valid (advanceRest enter parts) := by
  induction parts with
  | nil => exact fun _ _ => rfl
  | cons part parts ih =>
    obtain ⟨first, others⟩ := List.forall_mem_cons.1 each
    intro cs all_valid
    rw [advanceRest, advanceRest, first cs all_valid]
    apply renameReading_bind
    intro next read
    rw [List.isEmpty_map]
    split
    · rw [nextTokenError_rename]
      rfl
    · exact ih acts.later others next (valid_of_advance sound acts.first all_valid read)

theorem advanceFirst_rename (acts : Acts Candidate.KeepsPlace rules (.sequence parts))
    (each : ∀ part ∈ parts, Follows f g valid (advance enter part)) :
    Follows f g valid (advanceFirst enter parts) := by
  cases parts with
  | nil => exact fun _ _ => rfl
  | cons part parts =>
    obtain ⟨first, others⟩ := List.forall_mem_cons.1 each
    intro cs all_valid
    rw [advanceFirst, advanceFirst, first cs all_valid]
    apply renameReading_bind
    intro next read
    rw [List.isEmpty_map]
    split
    · rfl
    · exact advanceRest_rename sound acts.later others next
        (valid_of_advance sound acts.first all_valid read)

end Parts

theorem advanceEach_rename (each : ∀ choice ∈ choices, Follows f g valid (advance enter choice)) :
    Follows f g valid (advanceEach enter choices) := by
  induction choices with
  | nil => exact fun _ _ => rfl
  | cons choice choices ih =>
    obtain ⟨first, others⟩ := List.forall_mem_cons.1 each
    intro cs all_valid
    rw [advanceEach, advanceEach, first cs all_valid]
    apply renameReading_bind
    intro outs _
    rw [ih others cs all_valid]
    apply renameReading_bind
    intro more _
    show Except.ok _ = Except.ok _
    rw [List.map_append]

theorem advance_rename (sound : ∀ name, Sound (Derives rules AnyRound (rules name)) (enter name))
    (entered : ∀ name, Follows f g valid (enter name))
    (named : ∀ name, Blind f g rules valid (rules name)) (blind : Blind f g rules valid rule) :
    Follows f g valid (advance enter rule) := by
  have acts : Acts Candidate.KeepsPlace rules rule :=
    ⟨blind.keepsPlace, fun name => (named name).keepsPlace⟩
  induction blind with
  | terminal same items =>
    intro cs _
    rw [advance, advance, List.filterMap_map]
    show Except.ok _ = Except.ok _
    rw [List.map_filterMap]
    congr 2
    funext c
    exact take?_rename same items c
  | sequence _ ih =>
    intro cs all_valid
    rw [advance, advance]
    exact advanceFirst_rename sound acts
      (fun part among => ih part among (acts.part_of_mem among)) cs all_valid
  | alternation _ ih =>
    intro cs all_valid
    rw [advance, advance]
    exact advanceEach_rename (fun choice among => ih choice among (acts.choice_of_mem among)) cs
      all_valid
  | repetition _ ih =>
    intro cs all_valid
    have rounds : repetitionRounds (cs.map (Candidate.rename f g)) = repetitionRounds cs := by
      rw [repetitionRounds, repetitionRounds, Pool.longest_rename, Pool.smallestIndex_rename]
    rw [advance, advance, rounds, repetitionFrom_rename (ih acts.round)
      (fun _ _ all_valid read => valid_of_advance sound acts.round all_valid read) _ cs all_valid]
    apply renameReading_bind
    intro more _
    show Except.ok _ = Except.ok _
    rw [List.map_append]
  | empty =>
    intro cs _
    rw [advance, advance]
    rfl
  | deferred =>
    intro cs all_valid
    rw [advance, advance]
    exact entered _ cs all_valid
  | @build made inner _ same ih =>
    intro cs all_valid
    rw [advance, advance, ih acts.inside cs all_valid]
    apply renameReading_bind
    intro outs read
    show Except.ok _ = Except.ok _
    rw [List.map_map, List.map_map]
    congr 1
    apply List.map_congr_left
    intro d mem
    obtain ⟨c, given, derived⟩ := advance_sound sound inner cs outs read d mem
    simp only [Function.comp_apply, Candidate.rework, same c d (all_valid c given) derived]
    rfl

end Rule

namespace Rulebook

open Rule

variable (book : Rulebook τ ι ρ) {valid : τ → Prop} {rule : Rule τ ι ρ}
  (blind : ∀ name, Blind f g book.rule valid (book.rule name))

include blind

theorem enter_rename (depth : Nat) (name : ρ) : Follows f g valid (book.enter depth name) := by
  induction depth generalizing name with
  | zero => exact fun _ _ => rfl
  | succ depth ih => exact advance_rename (book.enter_sound depth) ih blind (blind name)

theorem best_rename (blind_rule : Blind f g book.rule valid rule) (start : Candidate τ ι)
    (all_valid : ∀ t ∈ start.tokens, valid t) :
    book.best rule (start.rename f g) =
      match book.best rule start with
      | .ok found => .ok (found.map (Candidate.rename f g))
      | .error e => .error (e.rename f) := by
  have depth : book.depth [start.rename f g] = book.depth [start] := by
    rw [Rulebook.depth, Rulebook.depth, ← Pool.longest_rename (f := f) (g := g) [start]]
    rfl
  have read : book.read rule [start.rename f g] = renameReading f g (book.read rule [start]) := by
    rw [Rulebook.read, Rulebook.read, depth]
    exact advance_rename (book.enter_sound _) (book.enter_rename blind _) blind blind_rule [start]
      (by simpa using all_valid)
  rw [best, best, read]
  cases book.read rule [start] with
  | error e => rfl
  | ok outs => exact congrArg Except.ok (Pool.furthest?_rename outs)

theorem complete_rename (blind_rule : Blind f g book.rule valid rule) (start : Candidate τ ι)
    (all_valid : ∀ t ∈ start.tokens, valid t) :
    book.complete rule (start.rename f g) =
      match book.complete rule start with
      | .ok c => .ok (c.rename f g)
      | .error e => .error (e.rename f) := by
  rw [complete, complete, book.best_rename blind blind_rule start all_valid]
  cases book.best rule start with
  | error e => rfl
  | ok found =>
    cases found with
    | none => exact congrArg Except.error (nextTokenError_rename [start])
    | some c =>
      have same : (c.rename f g).isDone = c.isDone := by
        simp [Candidate.isDone, Candidate.rename]
      show (if (c.rename f g).isDone then _ else _) = _
      rw [same]
      cases done : c.isDone with
      | true => simp [bind, Except.bind, done, pure, Except.pure]
      | false =>
        simp only [bind, Except.bind, done]
        exact congrArg Except.error (nextTokenError_rename [c])

end Rulebook
end ActorScript
