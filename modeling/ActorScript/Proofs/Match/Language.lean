import ActorScript.Proofs.Match.Derivation
import Mathlib.Computability.Language
import Mathlib.Order.CompletePartialOrder

/-!
Rules as languages. A rule reads a language if all that it takes from a candidate is one of its
words, and if it can take each of its words wherever that word comes next. The languages of rules
are put together as the rules are, and a rule that comes to itself again after a token reads what is
found by induction on the tokens that are left.
-/
namespace ActorScript

open Computability

variable {τ ι ρ : Type}

namespace Candidate

/-- The tokens that are not taken yet. -/
def rest (c : Candidate τ ι) : List τ := c.tokens.drop c.index

theorem isDone_iff {c : Candidate τ ι} : c.isDone = true ↔ c.rest = [] := by
  rw [isDone, decide_eq_true_eq, rest, List.drop_eq_nil_iff]

theorem rest_eq_of_suffix {c : Candidate τ ι} {r : List τ} (suffix : r <:+ c.tokens)
    (length : c.rest.length = r.length) : c.rest = r := by
  have within := List.suffix_of_suffix_length_le (List.drop_suffix c.index c.tokens) suffix
    (Nat.le_of_eq length)
  exact within.eq_of_length length

/-- The second candidate comes of the first by taking these tokens. -/
structure Takes (w : List τ) (c d : Candidate τ ι) : Prop where
  tokens : d.tokens = c.tokens
  index : d.index = c.index + w.length
  rest : c.rest = w ++ d.rest

namespace Takes

variable {w v : List τ} {c d e : Candidate τ ι}

theorem none (c : Candidate τ ι) : c.Takes [] c := ⟨rfl, rfl, rfl⟩

theorem trans (first : c.Takes w d) (second : d.Takes v e) : c.Takes (w ++ v) e where
  tokens := second.tokens.trans first.tokens
  index := by rw [second.index, first.index, List.length_append, Nat.add_assoc]
  rest := by rw [first.rest, second.rest, List.append_assoc]

theorem kept {action : Candidate τ ι → Candidate τ ι} (taken : c.Takes w d)
    (keeps : KeepsPlace action) : c.Takes w (action d) where
  tokens := (keeps d).1.trans taken.tokens
  index := (keeps d).2.trans taken.index
  rest := by
    rw [taken.rest, Candidate.rest, Candidate.rest, (keeps d).1, (keeps d).2]

theorem rework (taken : c.Takes w d) (made : Candidate τ ι → List ι) :
    c.Takes w (d.rework made) := taken.kept (keepsPlace_rework made)

theorem length_rest (taken : c.Takes w d) : c.rest.length = w.length + d.rest.length := by
  rw [taken.rest, List.length_append]

theorem unique (taken : c.Takes w d) (taken' : c.Takes v d) : w = v :=
  List.append_cancel_right (taken.rest.symm.trans taken'.rest)

theorem rest_eq {r : List τ} (taken : c.Takes w d) (next : c.rest = w ++ r) : d.rest = r :=
  List.append_cancel_left (taken.rest.symm.trans next)

theorem all (taken : c.Takes w d) (done : d.isDone = true) : c.rest = w := by
  rw [taken.rest, isDone_iff.1 done, List.append_nil]

end Takes

theorem getElem?_index_eq_some {c : Candidate τ ι} {t : τ} :
    c.tokens[c.index]? = some t ↔ ∃ r, c.rest = t :: r := by
  rw [rest, ← List.head?_drop, List.head?_eq_some_iff]

theorem mem_tokens_of_rest {c : Candidate τ ι} {t : τ} {r : List τ} (next : c.rest = t :: r) :
    t ∈ c.tokens := by
  have mem : t ∈ c.rest := by rw [next]; exact List.mem_cons_self
  exact List.mem_of_mem_drop mem

theorem takes_skip {c : Candidate τ ι} {t : τ} {r : List τ} (next : c.rest = t :: r)
    (item : Option (τ → ι)) : c.Takes [t] (c.skip item t) := by
  have moved := Rule.index_skip (getElem?_index_eq_some.2 ⟨r, next⟩) item
  have behind : (c.skip item t).rest = c.rest.tail := by
    rw [rest, rest, List.tail_drop, moved]
    rfl
  refine ⟨rfl, moved, ?_⟩
  rw [behind, next]
  rfl

theorem take?_iff {c d : Candidate τ ι} {accepts : τ → Bool} {item : Option (τ → ι)} :
    c.take? accepts item = some d ↔
      ∃ t r, c.rest = t :: r ∧ accepts t = true ∧ d = c.skip item t := by
  rw [Rule.take?_eq_some]
  constructor
  · rintro ⟨t, found, accepted, rfl⟩
    obtain ⟨r, next⟩ := getElem?_index_eq_some.1 found
    exact ⟨t, r, next, accepted, rfl⟩
  · rintro ⟨t, r, next, accepted, rfl⟩
    exact ⟨t, getElem?_index_eq_some.2 ⟨r, next⟩, accepted, rfl⟩

theorem take?_of_rest {c : Candidate τ ι} {t : τ} {r : List τ} (next : c.rest = t :: r)
    {accepts : τ → Bool} (accepted : accepts t = true) (item : Option (τ → ι)) :
    c.take? accepts item = some (c.skip item t) := take?_iff.2 ⟨t, r, next, accepted, rfl⟩

theorem take?_eq_none {c : Candidate τ ι} {accepts : τ → Bool} {item : Option (τ → ι)}
    (rejected : ∀ t ∈ c.rest.head?, accepts t = false) : c.take? accepts item = none := by
  rw [Option.eq_none_iff_forall_not_mem]
  intro d mem
  obtain ⟨t, r, next, accepted, -⟩ := take?_iff.1 mem
  rw [next] at rejected
  simp [rejected t rfl] at accepted

end Candidate

/-- The words of one token that has a property. -/
def singleWord (p : τ → Prop) : Language τ := {w | ∃ t, p t ∧ w = [t]}

theorem mem_singleWord_mul {p : τ → Prop} {l : Language τ} {w : List τ} :
    w ∈ singleWord p * l ↔ ∃ t r, p t ∧ r ∈ l ∧ w = t :: r := by
  rw [Language.mem_mul]
  constructor
  · rintro ⟨_, ⟨t, has, rfl⟩, r, word, rfl⟩
    exact ⟨t, r, has, word, rfl⟩
  · rintro ⟨t, r, has, word, rfl⟩
    exact ⟨[t], ⟨t, has, rfl⟩, r, word, rfl⟩

theorem cons_mem_singleWord_mul {p : τ → Prop} {l : Language τ} {t : τ} {r : List τ} :
    t :: r ∈ singleWord p * l ↔ p t ∧ r ∈ l := by
  rw [mem_singleWord_mul]
  constructor
  · rintro ⟨t', r', has, word, same⟩
    obtain ⟨rfl, rfl⟩ := List.cons.inj same
    exact ⟨has, word⟩
  · rintro ⟨has, word⟩
    exact ⟨t, r, has, word, rfl⟩

theorem mem_sum {ls : List (Language τ)} {w : List τ} : w ∈ ls.sum ↔ ∃ l ∈ ls, w ∈ l := by
  induction ls with
  | nil => simp [Language.notMem_zero]
  | cons l ls ih => rw [List.sum_cons, Language.mem_add, ih, List.exists_mem_cons_iff]

namespace Rule

variable (rules : ρ → Rule τ ι ρ) (valid : τ → Prop)

/-- Of candidates with valid tokens and at most `room` of them left, the rule takes just the words
of a language. -/
structure Reads (room : Nat) (rule : Rule τ ι ρ) (l : Language τ) : Prop where
  sound : ∀ {c d : Candidate τ ι}, (∀ t ∈ c.tokens, valid t) → c.rest.length ≤ room →
    Derives rules AnyRound rule c d → ∃ w ∈ l, c.Takes w d
  complete : ∀ {c : Candidate τ ι} {w r : List τ}, (∀ t ∈ c.tokens, valid t) →
    c.rest.length ≤ room → w ∈ l → c.rest = w ++ r →
      ∃ d, Derives rules TakingRound rule c d ∧ c.Takes w d

variable {rules valid} {room : Nat} {part inner : Rule τ ι ρ} {parts choices : List (Rule τ ι ρ)}
  {l m : Language τ}

namespace Reads

theorem terminal {accepts : τ → Bool} {item : Option (τ → ι)} {p : τ → Prop}
    (same : ∀ t, valid t → (accepts t = true ↔ p t)) :
    Reads rules valid room (.terminal accepts item) (singleWord p) where
  sound := by
    intro c d all_valid _ derived
    cases derived with
    | terminal taken =>
      obtain ⟨t, r, next, accepted, rfl⟩ := Candidate.take?_iff.1 taken
      have mem : t ∈ c.tokens := Candidate.mem_tokens_of_rest next
      exact ⟨[t], ⟨t, (same t (all_valid t mem)).1 accepted, rfl⟩, Candidate.takes_skip next item⟩
  complete := by
    rintro c _ r all_valid _ ⟨t, has, rfl⟩ next
    have mem : t ∈ c.tokens := Candidate.mem_tokens_of_rest next
    have accepted := (same t (all_valid t mem)).2 has
    exact ⟨c.skip item t, .terminal (Candidate.take?_of_rest next accepted item),
      Candidate.takes_skip next item⟩

theorem nil : Reads rules valid room (.sequence []) 1 where
  sound := by
    intro c d _ _ derived
    cases derived with
    | nil => exact ⟨[], rfl, .none c⟩
  complete := by
    rintro c _ r _ _ rfl _
    exact ⟨c, .nil, .none c⟩

theorem cons (first : Reads rules valid room part l)
    (later : Reads rules valid room (.sequence parts) m) :
    Reads rules valid room (.sequence (part :: parts)) (l * m) where
  sound := by
    intro c e all_valid enough derived
    cases derived with
    | cons once more =>
      obtain ⟨w, word, taken⟩ := first.sound all_valid enough once
      have fewer := taken.length_rest
      obtain ⟨v, word', taken'⟩ := later.sound (by rwa [taken.tokens]) (by omega) more
      exact ⟨w ++ v, Language.append_mem_mul word word', taken.trans taken'⟩
  complete := by
    intro c u r all_valid enough word next
    obtain ⟨w, head, v, tail, rfl⟩ := Language.mem_mul.1 word
    rw [List.append_assoc] at next
    obtain ⟨d, once, taken⟩ := first.complete all_valid enough head next
    have fewer := taken.length_rest
    obtain ⟨e, more, taken'⟩ := later.complete (c := d) (by rwa [taken.tokens]) (by omega) tail
      (taken.rest_eq next)
    exact ⟨e, .cons once more, taken.trans taken'⟩

theorem lead {accepts : τ → Bool} {item : Option (τ → ι)} {p : τ → Prop}
    (same : ∀ t, valid t → (accepts t = true ↔ p t))
    (later : ∀ less < room, Reads rules valid less (.sequence parts) m) :
    Reads rules valid room (.sequence (.terminal accepts item :: parts)) (singleWord p * m) where
  sound := by
    intro c e all_valid enough derived
    cases derived with
    | cons once more =>
      obtain ⟨w, word, taken⟩ := (terminal same).sound all_valid enough once
      obtain ⟨t, -, rfl⟩ := id word
      have fewer := taken.length_rest
      rw [List.length_singleton] at fewer
      obtain ⟨v, word', taken'⟩ :=
        (later _ (by omega)).sound (by rwa [taken.tokens]) (Nat.le_refl _) more
      exact ⟨[t] ++ v, Language.append_mem_mul word word', taken.trans taken'⟩
  complete := by
    intro c u r all_valid enough word next
    obtain ⟨w, head, v, tail, rfl⟩ := Language.mem_mul.1 word
    rw [List.append_assoc] at next
    obtain ⟨d, once, taken⟩ := (terminal same).complete all_valid enough head next
    obtain ⟨t, -, rfl⟩ := id head
    have fewer := taken.length_rest
    rw [List.length_singleton] at fewer
    obtain ⟨e, more, taken'⟩ := (later _ (by omega)).complete (c := d) (by rwa [taken.tokens])
      (Nat.le_refl _) tail (taken.rest_eq next)
    exact ⟨e, .cons once more, taken.trans taken'⟩

theorem none : Reads rules valid room (.alternation []) 0 where
  sound := by
    intro c d _ _ derived
    cases derived with
    | choice among => simp at among
  complete := fun _ _ word => absurd word (Language.notMem_zero _)

theorem or (first : Reads rules valid room part l)
    (others : Reads rules valid room (.alternation choices) m) :
    Reads rules valid room (.alternation (part :: choices)) (l + m) where
  sound := by
    intro c d all_valid enough derived
    cases derived with
    | choice among chosen =>
      rcases List.mem_cons.1 among with rfl | among
      · obtain ⟨w, word, taken⟩ := first.sound all_valid enough chosen
        exact ⟨w, .inl word, taken⟩
      · obtain ⟨w, word, taken⟩ := others.sound all_valid enough (.choice among chosen)
        exact ⟨w, .inr word, taken⟩
  complete := by
    intro c w r all_valid enough word next
    rcases (Language.mem_add l m w).1 word with word | word
    · obtain ⟨d, derived, taken⟩ := first.complete all_valid enough word next
      exact ⟨d, .choice List.mem_cons_self derived, taken⟩
    · obtain ⟨d, derived, taken⟩ := others.complete all_valid enough word next
      cases derived with
      | choice among chosen => exact ⟨d, .choice (List.mem_cons_of_mem part among) chosen, taken⟩

theorem empty : Reads rules valid room .empty 1 where
  sound := by
    intro c d _ _ derived
    cases derived with
    | empty => exact ⟨[], rfl, .none c⟩
  complete := by
    rintro c _ r _ _ rfl _
    exact ⟨c, .empty, .none c⟩

theorem optional (reads : Reads rules valid room inner l) :
    Reads rules valid room (.optional inner) (l + 1) := by
  rw [← add_zero (1 : Language τ)]
  exact reads.or (empty.or none)

theorem named (name : ρ) (reads : Reads rules valid room (rules name) l) :
    Reads rules valid room (.deferred name) l where
  sound := by
    intro c d all_valid enough derived
    cases derived with
    | named entered => exact reads.sound all_valid enough entered
  complete := by
    intro c w r all_valid enough word next
    obtain ⟨d, derived, taken⟩ := reads.complete all_valid enough word next
    exact ⟨d, .named derived, taken⟩

theorem build {made : Candidate τ ι → List ι} (reads : Reads rules valid room inner l) :
    Reads rules valid room (.build (.rework made) inner) l where
  sound := by
    intro c d all_valid enough derived
    cases derived with
    | built part =>
      obtain ⟨w, word, taken⟩ := reads.sound all_valid enough part
      exact ⟨w, word, taken.rework made⟩
  complete := by
    intro c w r all_valid enough word next
    obtain ⟨d, derived, taken⟩ := reads.complete all_valid enough word next
    exact ⟨d.rework made, .built derived, taken.rework made⟩

theorem repetition (reads : Reads rules valid room inner l) :
    Reads rules valid room (.repetition inner) l∗ where
  sound := by
    intro c d all_valid enough derived
    generalize rounds : Rule.repetition inner = rule at derived
    induction derived with
    | done => exact ⟨[], Language.nil_mem_kstar l, .none _⟩
    | again once _ _ _ ih =>
      cases rounds
      obtain ⟨w, word, taken⟩ := reads.sound all_valid enough once
      have fewer := taken.length_rest
      obtain ⟨v, word', taken'⟩ := ih (by rwa [taken.tokens]) (by omega) rfl
      refine ⟨w ++ v, ?_, taken.trans taken'⟩
      rw [← Language.one_add_self_mul_kstar_eq_kstar]
      exact .inr (Language.append_mem_mul word word')
    | terminal | nil | cons | choice | empty | named | built => cases rounds
  complete := by
    intro c w r all_valid enough word next
    obtain ⟨words, rfl, each⟩ := Language.mem_kstar_iff_exists_nonempty.1 word
    clear word
    induction words generalizing c with
    | nil => exact ⟨c, .done, .none c⟩
    | cons w words ih =>
      obtain ⟨word, taking⟩ := each w List.mem_cons_self
      rw [List.flatten_cons, List.append_assoc] at next
      obtain ⟨d, once, taken⟩ := reads.complete all_valid enough word next
      have fewer := taken.length_rest
      obtain ⟨e, more, taken'⟩ := ih (c := d) (by rwa [taken.tokens]) (by omega)
        (fun v mem => each v (List.mem_cons_of_mem w mem)) (taken.rest_eq next)
      have farther : c.index < d.index := by
        have := List.length_pos_of_ne_nil taking
        rw [taken.index]
        omega
      exact ⟨e, .again once farther more, taken.trans taken'⟩

theorem of_eq (reads : Reads rules valid room part l) (same : l = m) :
    Reads rules valid room part m := same ▸ reads

theorem sequence {ls : List (Language τ)}
    (each : List.Forall₂ (Reads rules valid room) parts ls) :
    Reads rules valid room (.sequence parts) ls.prod := by
  induction each with
  | nil => exact nil
  | cons first _ ih =>
    rw [List.prod_cons]
    exact first.cons ih

theorem alternation {ls : List (Language τ)}
    (each : List.Forall₂ (Reads rules valid room) choices ls) :
    Reads rules valid room (.alternation choices) ls.sum := by
  induction each with
  | nil => exact none
  | cons first _ ih =>
    rw [List.sum_cons]
    exact first.or ih

end Reads

end Rule
end ActorScript
