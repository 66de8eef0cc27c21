import ActorScript.Proofs.Grammar.Sentence
import ActorScript.Proofs.Match.Depth

/-!
Where the reading of a line cannot fail. Headings and conditions are read from one candidate alone,
and of their forms only one can begin with its next token. What then comes to nothing is an error
only where nothing is the heading that might follow `ALIGNED`: a turn behind it commits the reading
to a heading, although the condition could end there.
-/
namespace ActorScript

namespace Token

variable {t : Token}

theorem isLiteral_apart {a b : String} (apart : sameWord a b = false)
    (shown : t.isLiteral a = true) : t.isLiteral b = false := by
  obtain ⟨bare, same⟩ := isLiteral_iff.1 shown
  rw [isLiteral, sameWord_congr same, apart, Bool.and_false]

theorem isOneOf_apart {as bs : List String} (apart : ∀ a ∈ as, ∀ b ∈ bs, sameWord a b = false)
    (shown : t.isOneOf as = true) : t.isOneOf bs = false := by
  obtain ⟨a, mem, shown⟩ := isOneOf_iff.1 shown
  rw [Bool.eq_false_iff]
  intro also
  obtain ⟨b, mem', also⟩ := isOneOf_iff.1 also
  rw [isLiteral_apart (apart a mem b mem') shown] at also
  exact absurd also (by decide)

end Token

namespace Grammar

open Rule Phrase Computability

/-- The phrase leads from one candidate to another. -/
abbrev Leads (phrase : Phrase) (c d : Candidate Token Node) : Prop :=
  Derives book.rule TakingRound phrase c d

/-- The phrase can be read from a lone candidate, with named rules entered to this depth. -/
abbrev Goes (depth : Nat) (phrase : Phrase) (c : Candidate Token Node) : Prop :=
  Passes (book.enter depth) phrase c

/-- The phrase can be read from any candidates of which one leads on. -/
abbrev Forgives (depth : Nat) (phrase : Phrase) : Prop :=
  Forgiving book.rule (book.enter depth) phrase

variable {depth : Nat} {c d e : Candidate Token Node} {accepts : Token → Bool}
  {item : Option (Token → Node)} {part : Phrase} {parts : List Phrase}

theorem goes_plain (forgiving : ∀ part ∈ parts, Forgives depth part)
    (leads : Leads (.sequence (.terminal accepts item :: parts)) c e) :
    Goes depth (.sequence (.terminal accepts item :: parts)) c := by
  apply forgiving_sequence (book.enter_complete depth) ?_ [c] c List.mem_cons_self e leads
  exact List.forall_mem_cons.2 ⟨tame_terminal.forgiving, forgiving⟩

theorem goes_headed (forgiving : ∀ part ∈ parts, Forgives depth part)
    (leads : Leads (.sequence (.terminal accepts item :: part :: parts)) c e)
    (goes : ∀ b d, c.take? accepts item = some b → Leads part b d → Leads (.sequence parts) d e →
      Goes depth part b) :
    Goes depth (.sequence (.terminal accepts item :: part :: parts)) c := by
  cases leads with
  | @cons _ _ _ b _ first rest =>
    cases first with
    | terminal taken =>
      cases rest with
      | @cons _ _ _ d _ once more =>
        refine passes_lead.2 fun b' taken' => ?_
        obtain rfl : b = b' := Option.some.inj (taken.symm.trans taken')
        exact advanceRest_of_passes (book.enter_complete depth) (goes b d taken once more) forgiving
          once more

theorem length_rest_of_take? (taken : c.take? accepts item = some d) :
    d.rest.length + 1 = c.rest.length := by
  obtain ⟨t, r, next, -, rfl⟩ := Candidate.take?_iff.1 taken
  have := (Candidate.takes_skip next item).length_rest
  rw [List.length_singleton] at this
  omega

section Heading

theorem turns_apart : ∀ a ∈ Aim.keywords, ∀ b ∈ Turn.keywords, sameWord a b = false := by decide

theorem headings_open :
    List.Forall₂ Opens [Token.isOneOf Aim.keywords, Token.isOneOf Turn.keywords]
      [aimOnly, turned] :=
  .cons (.build .terminal) (.cons (.build (.sequence .terminal)) .nil)

theorem goes_heading (enough : c.rest.length < depth) (leads : Leads heading c d) :
    Goes depth heading c := by
  induction depth generalizing c d with
  | zero => exact absurd enough (Nat.not_lt_zero _)
  | succ depth ih =>
    rw [Goes, Passes, heading, advance, Rulebook.enter]
    cases leads with
    | named entered =>
      cases entered with
      | @choice form _ _ _ among chosen =>
        have goes : Goes depth form c := by
          rcases List.mem_cons.1 among with rfl | among
          · exact (tame_terminal.build _).passes c
          obtain rfl := List.mem_singleton.1 among
          cases chosen with
          | built leads =>
            refine passes_build.2 (goes_headed (by simp) leads fun b d taken leads _ => ?_)
            have := length_rest_of_take? taken
            exact ih (by omega) leads
        refine passes_alternation.2 (passes_of_exclusive headings_open ?_ among chosen goes)
        simpa using fun t => Token.isOneOf_apart turns_apart

theorem goes_heading_of_no_turn (some_depth : 0 < depth)
    (no_turn : ∀ t ∈ c.rest.head?, t.isOneOf Turn.keywords = false) : Goes depth heading c := by
  obtain ⟨depth, rfl⟩ := Nat.exists_eq_succ_of_ne_zero some_depth.ne'
  have begun : Opens (Token.isOneOf Turn.keywords) turned := .build (.sequence .terminal)
  have each : ∀ form ∈ [aimOnly, turned], Goes depth form c := by
    simp only [List.forall_mem_cons, List.not_mem_nil, false_implies, implies_true, and_true]
    exact ⟨(tame_terminal.build _).passes c, [], begun.advance_eq no_turn⟩
  have goes := passes_alternation.2 each
  rwa [Goes, Passes, heading, advance, Rulebook.enter]

end Heading

theorem forgives_word : Forgives depth word := tame_terminal.forgiving

theorem forgives_number : Forgives depth number := tame_terminal.forgiving

theorem forgives_maybe_number : Forgives depth (.optional number) :=
  tame_terminal.optional.forgiving

theorem forgives_oneOf (texts : List String) : Forgives depth (oneOf texts) :=
  tame_terminal.forgiving

theorem forgives_tile : Forgives depth tile := by
  refine (forgiving_sequence (book.enter_complete depth) ?_).build _
  simp only [List.forall_mem_cons, List.not_mem_nil, false_implies, implies_true, and_true]
  exact ⟨((tame_terminal.build _).optional).forgiving, tame_terminal.forgiving⟩

section Condition

theorem pairwise_isLiteral {texts : List String}
    (apart : texts.Pairwise fun a b => sameWord a b = false) :
    (texts.map Token.isLiteral).Pairwise fun first second =>
      ∀ t, first t = true → second t = false :=
  List.pairwise_map.2 (apart.imp fun apart _ shown => Token.isLiteral_apart apart shown)

/-- What the forms of a condition begin with. -/
def conditionOpenings : List (Token → Bool) :=
  conditionKeywords.map Token.isLiteral ++ [Token.isWordExcept conditionKeywords]

theorem conditions_open : List.Forall₂ Opens conditionOpenings conditions :=
  .cons (.build (.sequence .terminal)) <| .cons (.build .terminal) <|
  .cons (.build (.sequence .terminal)) <| .cons (.build (.sequence .terminal)) <|
  .cons (.build (.sequence .terminal)) <| .cons (.build (.sequence .terminal)) <|
  .cons (.build (.sequence .terminal)) <| .cons (.build (.sequence .terminal)) .nil

theorem conditions_exclusive :
    conditionOpenings.Pairwise fun first second => ∀ t, first t = true → second t = false := by
  refine List.pairwise_append.2
    ⟨pairwise_isLiteral (by decide), List.pairwise_singleton .., fun first mem second mem' t => ?_⟩
  obtain ⟨text, keyword, rfl⟩ := List.mem_map.1 mem
  obtain rfl := List.mem_singleton.1 mem'
  intro shown
  have same := (Token.isLiteral_iff.1 shown).2
  rw [Token.isWordExcept, List.any_eq_true.2 ⟨text, keyword, same⟩, Bool.not_true, Bool.and_false]

theorem takes_keyword {text : String} (name : kindOf? text = some .word)
    (lexical : ∀ t ∈ c.tokens, t.IsLexical) (taken : c.take? (Token.isLiteral text) item = some d) :
    ∃ w ∈ Sentence.key text, c.Takes w d := by
  have derived : Derives book.rule AnyRound (.terminal (Token.isLiteral text) item) c d :=
    .terminal taken
  exact (Reads.terminal fun _ lexical => Token.isLiteral_name name lexical).sound lexical
    (Nat.le_refl _) derived

theorem goes_negated {construction : Construction Unit} {w : List Token}
    (lexical : ∀ t ∈ c.tokens, t.IsLexical)
    (leads : Leads (make construction (.sequence [keyword "NOT", condition])) c d)
    (taken : c.Takes w d)
    (inner : ∀ {b e : Candidate Token Node} {k v : List Token}, (∀ t ∈ b.tokens, t.IsLexical) →
      b.rest.length < c.rest.length → Leads condition b e → k ∈ Sentence.key "NOT" →
      b.Takes v e → k ++ v = w → e.rest = d.rest → Goes depth condition b) :
    Goes depth (make construction (.sequence [keyword "NOT", condition])) c := by
  cases leads with
  | built leads =>
    refine passes_build.2 (goes_headed (by simp) leads fun b e behind leads rest => ?_)
    cases rest with
    | nil =>
      have fewer := length_rest_of_take? behind
      obtain ⟨k, word, skipped⟩ := takes_keyword (by decide) lexical behind
      have lexical' : ∀ t ∈ b.tokens, t.IsLexical := by rwa [skipped.tokens]
      obtain ⟨v, -, others⟩ := scans_condition.sound lexical' (Nat.le_refl _)
        (leads.mono fun _ _ _ => trivial)
      have whole := taken.unique ((skipped.trans others).rework _)
      exact inner lexical' (by omega) leads word others whole.symm rfl

theorem goes_maybe_heading (enough : c.rest.length < depth)
    (leads : Leads (.optional heading) c d)
    (clear : d = c → ∀ t ∈ c.rest.head?, t.isOneOf Turn.keywords = false) :
    Goes depth (.optional heading) c := by
  have goes : Goes depth heading c := by
    cases leads with
    | choice among chosen =>
      rcases List.mem_cons.1 among with rfl | among
      · exact goes_heading enough chosen
      obtain rfl := List.mem_singleton.1 among
      cases chosen with
      | empty => exact goes_heading_of_no_turn (by omega) (clear rfl)
  refine passes_alternation.2 ?_
  simp only [List.forall_mem_cons, List.not_mem_nil, false_implies, implies_true, and_true]
  exact ⟨goes, tame_empty.passes c⟩

theorem goes_aligned {construction : Construction Unit} {w : List Token}
    (lexical : ∀ t ∈ c.tokens, t.IsLexical) (enough : c.rest.length < depth + 1)
    (leads : Leads (make construction (.sequence [keyword "ALIGNED", .optional heading])) c d)
    (taken : c.Takes w d)
    (clear : w ∈ Sentence.key "ALIGNED" → ∀ t ∈ d.rest.head?, t.isOneOf Turn.keywords = false) :
    Goes depth (make construction (.sequence [keyword "ALIGNED", .optional heading])) c := by
  cases leads with
  | built leads =>
    refine passes_build.2 (goes_headed (by simp) leads fun b e behind leads rest => ?_)
    have fewer := length_rest_of_take? behind
    refine goes_maybe_heading (by omega) leads fun same => ?_
    subst same
    cases rest with
    | nil =>
      obtain ⟨k, word, skipped⟩ := takes_keyword (by decide) lexical behind
      obtain rfl := taken.unique (skipped.rework _)
      exact clear word

/-- A condition is read unless it ends at `ALIGNED` and a turn comes next. -/
theorem goes_condition (lexical : ∀ t ∈ c.tokens, t.IsLexical) (enough : c.rest.length < depth)
    (leads : Leads condition c d) {w : List Token} (taken : c.Takes w d)
    (clear : w ∈ (Sentence.key "NOT")∗ * Sentence.key "ALIGNED" →
      ∀ t ∈ d.rest.head?, t.isOneOf Turn.keywords = false) : Goes depth condition c := by
  induction depth generalizing c d w with
  | zero => exact absurd enough (Nat.not_lt_zero _)
  | succ depth ih =>
    rw [Goes, Passes, condition, advance, Rulebook.enter]
    cases leads with
    | named entered =>
      cases entered with
      | @choice form _ _ _ among chosen =>
        -- Only the form that was chosen has to be looked at: no other begins with the same token.
        refine passes_alternation.2
          (passes_of_exclusive conditions_open conditions_exclusive among chosen ?_)
        simp only [conditions, List.mem_cons, List.not_mem_nil, or_false] at among
        rcases among with rfl | rfl | rfl | rfl | rfl | rfl | rfl | rfl
        · refine goes_negated lexical chosen taken
            fun lexical' fewer leads word others whole same => ?_
          refine ih lexical' (by omega) leads others fun aligned => ?_
          rw [same]
          exact clear (whole ▸ Sentence.append_mem_kstar_mul word aligned)
        · exact (tame_terminal.build _).passes c
        · cases chosen with
          | built leads =>
            refine passes_build.2 (goes_headed (by simp) leads fun b d behind leads _ => ?_)
            have fewer := length_rest_of_take? behind
            exact goes_heading (by omega) leads
        · exact goes_aligned lexical enough chosen taken fun word =>
            clear (Sentence.mem_kstar_mul word)
        all_goals
          cases chosen with
          | built leads =>
            refine passes_build.2 (goes_plain ?_ leads)
            simp [forgives_number, forgives_tile, forgives_maybe_number, forgives_word,
              forgives_oneOf]

end Condition

section Depth

/-- Named rules begin with a token, so that no line is ever too deep. -/
theorem book_guarded : book.Guarded fun _ => 0 := by
  refine ⟨fun {name _} entered => ?_, fun _ => Nat.one_pos⟩
  have opened : ∀ {openings choices}, List.Forall₂ Opens openings choices →
      book.rule name = .alternation choices → False := by
    intro openings choices opens form
    have builds : Builds (.alternation choices) := form ▸ (builds_deferred name).entered
    rw [form] at entered
    cases entered with
    | choice among chosen =>
      obtain ⟨_, -, begun⟩ := exists_of_forall₂ opens among
      exact begun.not_enters (builds.choice_of_mem among) chosen
  cases name with
  | heading => exact (opened headings_open rfl).elim
  | condition => exact (opened conditions_open rfl).elim

theorem line_not_tooDeep (tokens : List Token) :
    book.complete lineRule (.start tokens) ≠ .error .tooDeep :=
  book_guarded.complete_ne_tooDeep lineRule builds_line (.start tokens)

end Depth

section Stumbling

theorem goes_behind {t : Token} {r : List Token} (next : c.rest = t :: r)
    (accepted : accepts t = true)
    (goes : Goes depth (.sequence (.terminal accepts item :: part :: parts)) c) :
    ∃ b outs, b.tokens = c.tokens ∧ b.rest = r ∧ outs ≠ [] ∧
      advance (book.enter depth) part [b] = .ok outs := by
  have taken := Candidate.takes_skip next item
  obtain ⟨_, later⟩ := passes_lead.1 goes _ (Candidate.take?_of_rest next accepted item)
  obtain ⟨outs, read, some_left, -⟩ := advanceRest_cons_eq_ok.1 later
  exact ⟨_, outs, taken.tokens, taken.rest_eq next, some_left, read⟩

/-- Turns up to the end wait for the rest of their heading. -/
theorem not_goes_heading (lexical : ∀ t ∈ c.tokens, t.IsLexical)
    (turns : c.rest ∈ Sentence.turn * Sentence.turn∗) : ¬ Goes depth heading c := by
  intro goes
  induction depth generalizing c with
  | zero =>
    obtain ⟨outs, read⟩ := goes
    simp [heading, advance, Rulebook.enter] at read
  | succ depth ih =>
    obtain ⟨t, r, turning, others, next⟩ := mem_singleWord_mul.1 turns
    have mem : t ∈ c.tokens := Candidate.mem_tokens_of_rest next
    rw [Goes, Passes, heading, advance, Rulebook.enter] at goes
    have goes_turned := passes_build.1 (passes_alternation.1 goes turned (by simp))
    obtain ⟨b, outs, same, behind, some_left, read⟩ := goes_behind next
      ((Token.isOneOf_names turn_names (lexical t mem)).2 turning) goes_turned
    rw [← behind, ← Language.one_add_self_mul_kstar_eq_kstar] at others
    rcases (Language.mem_add _ _ _).1 others with nothing | others
    · have ended : b.rest = [] := nothing
      obtain ⟨d, found⟩ := List.exists_mem_of_ne_nil outs some_left
      have derived := (advance_sound (book.enter_sound depth) heading).of_singleton read found
      obtain ⟨w, word, taken⟩ := scans_heading.sound (by rwa [same]) (Nat.le_refl _) derived
      have rest := taken.rest
      rw [ended] at rest
      rw [(List.append_eq_nil_iff.1 rest.symm).1] at word
      exact Sentence.nil_notMem_heading word
    · exact ih (by rwa [same]) others ⟨outs, read⟩

theorem not_goes_condition (lexical : ∀ t ∈ c.tokens, t.IsLexical)
    (turning : c.rest ∈
      (Sentence.key "NOT")∗ * (Sentence.key "ALIGNED" * (Sentence.turn * Sentence.turn∗))) :
    ¬ Goes depth condition c := by
  intro goes
  induction depth generalizing c with
  | zero =>
    obtain ⟨outs, read⟩ := goes
    simp [condition, advance, Rulebook.enter] at read
  | succ depth ih =>
    rw [Goes, Passes, condition, advance, Rulebook.enter] at goes
    have each := passes_alternation.1 goes
    rw [← Sentence.add_mul_kstar_mul] at turning
    rcases (Language.mem_add _ _ _).1 turning with aligned | negated
    · obtain ⟨a, w, keyword, turns, next⟩ := mem_singleWord_mul.1 aligned
      have mem : a ∈ c.tokens := Candidate.mem_tokens_of_rest next
      have goes_aligned := passes_build.1 (each (conditions[3]) (by simp [conditions]))
      obtain ⟨b, outs, same, last, -, read⟩ := goes_behind next
        ((Token.isLiteral_name (by decide) (lexical a mem)).2 keyword) goes_aligned
      have goes_heading := passes_alternation.1 ⟨outs, read⟩ heading List.mem_cons_self
      rw [← last] at turns
      exact not_goes_heading (by rwa [same]) turns goes_heading
    · obtain ⟨a, w, keyword, others, next⟩ := mem_singleWord_mul.1 negated
      have mem : a ∈ c.tokens := Candidate.mem_tokens_of_rest next
      have goes_negated := passes_build.1 (each (conditions[0]) (by simp [conditions]))
      obtain ⟨b, outs, same, behind, -, read⟩ := goes_behind next
        ((Token.isLiteral_name (by decide) (lexical a mem)).2 keyword) goes_negated
      rw [← behind] at others
      exact ih (by rwa [same]) others ⟨outs, read⟩

end Stumbling

end Grammar
end ActorScript
