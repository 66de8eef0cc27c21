import ActorScript.Proofs.Grammar.Cut

/-!
Jumps that end too early. A condition that is not over either asks for more or is one as it stands,
and so does what follows it. A jump does not ask for more only if it was whole a few tokens before:
the candidate that ended there goes on, and what it does not take is blamed.
-/
namespace ActorScript

open Computability

namespace Sentence

/-- The line begins with a whole jump, and is not just turns behind `ALIGNED`. -/
def Overtaken (ts : List Token) : Prop :=
  (∃ p ∈ jumping, p <+: ts) ∧ ts ∉ turning

theorem turns_of_heading_begin {u v : List Token} (goes_on : v ≠ []) (word : u ++ v ∈ heading) :
    u ∈ turn∗ := by
  induction u with
  | nil => exact Language.nil_mem_kstar turn
  | cons t u ih =>
    rcases cons_mem_heading.1 word with ⟨-, nothing⟩ | ⟨turned, word⟩
    · exact absurd (List.append_eq_nil_iff.1 nothing).2 goes_on
    · rw [← Language.one_add_self_mul_kstar_eq_kstar]
      exact .inr (Language.append_mem_mul turned (ih word))

theorem notMem_key_mul {t : Token} {w : List Token} {a b : String} {l : Language Token}
    (shown : sameWord t.value a = true) (apart : sameWord a b = false) : t :: w ∉ key b * l := by
  intro word
  have other := (cons_mem_singleWord_mul.1 word).1.2
  rw [sameWord_congr shown, apart] at other
  exact absurd other (by decide)

theorem notMem_wordBut_mul {t : Token} {w : List Token} {a : String} {texts : List String}
    {l : Language Token} (shown : sameWord t.value a = true) (among : a ∈ texts) :
    t :: w ∉ wordBut texts * l := by
  intro word
  have other := (cons_mem_singleWord_mul.1 word).1.2 a among
  rw [shown] at other
  exact absurd other (by decide)

theorem cons_mem_condition {t : Token} {w : List Token} :
    t :: w ∈ condition ↔
      t :: w ∈ question ∨ (t.kind = .word ∧ sameWord t.value "NOT" = true) ∧ w ∈ condition := by
  have unrolled : t :: w ∈ condition ↔ t :: w ∈ question + key "NOT" * condition := by
    rw [condition, add_mul_kstar_mul]
  rw [unrolled, Language.mem_add, key, cons_mem_singleWord_mul]

theorem behind_not {t : Token} {w : List Token} (shown : sameWord t.value "NOT" = true)
    (word : t :: w ∈ condition) : w ∈ condition := by
  refine ((cons_mem_condition.1 word).resolve_left fun asked => ?_).2
  rw [question, ← mul_one (key "ADJACENT")] at asked
  simp only [Language.mem_add, mul_assoc] at asked
  rcases asked with (((((form | form) | form) | form) | form) | form) | form
  case inr => exact notMem_wordBut_mul shown (by decide) form
  all_goals exact notMem_key_mul shown (by decide) form

theorem behind_aligned {t : Token} {w : List Token} (shown : sameWord t.value "ALIGNED" = true)
    (word : t :: w ∈ condition) : w ∈ maybe heading := by
  have asked := (cons_mem_condition.1 word).resolve_right fun negated => by
    rw [sameWord_congr shown] at negated
    exact absurd negated.1.2 (by decide)
  rw [question, ← mul_one (key "ADJACENT")] at asked
  simp only [Language.mem_add, mul_assoc] at asked
  rcases asked with (((((form | form) | form) | form) | form) | form) | form
  case inl.inl.inl.inl.inr => exact (cons_mem_singleWord_mul.1 form).2
  case inr => exact absurd form (notMem_wordBut_mul shown (by decide))
  all_goals exact absurd form (notMem_key_mul shown (by decide))

theorem heading_behind {u w : List Token} (aligned : u ∈ (key "NOT")∗ * key "ALIGNED")
    (word : u ++ w ∈ condition) : w ∈ maybe heading := by
  induction u with
  | nil =>
    obtain ⟨nots, -, last, ⟨t, -, rfl⟩, nothing⟩ := Language.mem_mul.1 aligned
    exact absurd (List.append_eq_nil_iff.1 nothing).2 (List.cons_ne_nil t [])
  | cons t u ih =>
    rw [← add_mul_kstar_mul] at aligned
    rcases (Language.mem_add _ _ _).1 aligned with ⟨s, shown, same⟩ | again
    · obtain ⟨rfl, rfl⟩ := List.cons.inj same
      exact behind_aligned shown.2 word
    · obtain ⟨shown, aligned⟩ := cons_mem_singleWord_mul.1 again
      exact ih aligned (behind_not shown.2 word)

end Sentence

namespace Grammar

open Rule Phrase

variable {depth : Nat} {c d : Candidate Token Node} {t : Token} {r more : List Token}
  {accepts : Token → Bool} {item : Option (Token → Node)} {part inner : Phrase}
  {parts : List Phrase}

section Condition

/-- Read from this candidate alone, the phrase asks for a token or takes all there are. -/
def RunsOut (depth : Nat) (phrase : Phrase) (c : Candidate Token Node) : Prop :=
  advance (book.enter depth) phrase [c] = .error .exhausted ∨
    ∃ outs, advance (book.enter depth) phrase [c] = .ok outs ∧ ∃ d ∈ outs, d.rest = []

theorem RunsOut.build (runs : RunsOut depth inner c) (construction : Construction Unit) :
    RunsOut depth (make construction inner) c := by
  rcases runs with failed | ⟨outs, read, d, found, ended⟩
  · exact .inl (advance_build_of_error failed)
  · exact .inr ⟨_, advance_build_eq_ok.2 ⟨outs, read, rfl⟩, _, List.mem_map_of_mem found, ended⟩

theorem RunsOut.lead (rest : c.rest = t :: r) (accepted : accepts t = true)
    (runs : RunsOut depth part (c.skip item t)) :
    RunsOut depth (.sequence [.terminal accepts item, part]) c := by
  rw [RunsOut, advance_lead rest accepted]
  rcases runs with failed | ⟨outs, read, d, found, ended⟩
  · exact .inl (advanceRest_of_error failed)
  · refine .inr ⟨outs, ?_, d, found, ended⟩
    rw [advanceRest_of_ok read (List.ne_nil_of_mem found), advanceRest]

theorem runsOut_of_last (last : c.rest = [t]) (accepted : accepts t = true)
    (shut : advance (book.enter depth) part [c.skip item t] = .ok []) :
    RunsOut depth (.sequence (.terminal accepts item :: part :: parts)) c := by
  have behind := (Candidate.takes_skip last item).rest_eq last
  refine .inl ?_
  rw [advance_lead last accepted, advanceRest_of_nil shut,
    nextTokenError_of_all_ended (by simp [behind])]

theorem runsOut_of_starves {p : Token → Prop} {l : Language Token} {ls : List (Language Token)}
    (same : ∀ t, t.IsLexical → (accepts t = true ↔ p t)) (starves : Starves parts l)
    (each : List.Forall₂ Part parts ls) (product : ls.prod = l)
    (lexical : ∀ t ∈ c.tokens, t.IsLexical) (enough : c.rest.length < depth + 1)
    (some_left : c.rest ≠ []) (word : c.rest ++ more ∈ singleWord p * l) :
    RunsOut depth (.sequence (.terminal accepts item :: parts)) c := by
  subst product
  by_cases whole : c.rest ∈ singleWord p * ls.prod
  · have scans : Scans c.rest.length (.sequence (.terminal accepts item :: parts)) _ :=
      (Reads.terminal same).cons (.sequence (scans_parts each c.rest.length))
    obtain ⟨e, leads, -, ended⟩ := leads_of_scans scans lexical (Nat.le_refl _) whole
    obtain ⟨outs, read⟩ := goes_plain (forgives_parts each depth) leads
    have found := (advance_complete (book.enter_complete depth) _).of_singleton read leads
    exact .inr ⟨outs, read, e, found, ended⟩
  · exact .inl (sequence_starves same starves lexical enough some_left whole word)

theorem advance_condition_of_ended (some_depth : 0 < depth) (ended : c.rest = []) :
    advance (book.enter depth) condition [c] = .ok [] := by
  obtain ⟨depth, rfl⟩ := Nat.exists_eq_succ_of_ne_zero some_depth.ne'
  rw [condition, advance, Rulebook.enter]
  exact advanceEach_of_closed conditions_open (by simp [ended])

theorem runsOut_condition (form : Phrase) (among : form ∈ conditions) (begins : Opens accepts form)
    (rest : c.rest = t :: r) (accepted : accepts t = true) (runs : RunsOut depth form c) :
    RunsOut (depth + 1) condition c := by
  have same : advance (book.enter (depth + 1)) condition [c] =
      advance (book.enter depth) form [c] := by
    rw [condition, advance, Rulebook.enter]
    exact advanceEach_of_exclusive conditions_open conditions_exclusive among begins rest accepted
  rwa [RunsOut, same]

theorem part_comparison : Part (oneOf Comparison.signs) Sentence.comparison :=
  ⟨fun _ => scans_signs, fun _ => forgives_oneOf _⟩

theorem starves_comparison {l : Language Token} (later : Starves parts l) :
    Starves (oneOf Comparison.signs :: parts) (Sentence.comparison * l) :=
  starves_terminal (fun _ lexical => Token.isOneOf_signs (by decide) lexical) later

theorem runsOut_maybe_heading (lexical : ∀ t ∈ c.tokens, t.IsLexical)
    (enough : c.rest.length < depth) (goes_on : more ≠ [])
    (word : c.rest ++ more ∈ Sentence.maybe Sentence.heading) :
    RunsOut depth (.optional heading) c := by
  have headed := Sentence.mem_of_maybe goes_on word
  by_cases nothing : c.rest = []
  · refine .inr ⟨[c], ?_, c, List.mem_singleton_self c, nothing⟩
    rw [Rule.optional, advance, advanceEach, advance_heading_of_ended (by omega) nothing,
      advanceEach, advance, advanceEach]
    rfl
  · refine .inl ?_
    rw [Rule.optional, advance, advanceEach, heading_starves lexical enough nothing goes_on headed]
    rfl

theorem runsOut_plain (form : Phrase) (among : form ∈ conditions) {construction : Construction Unit}
    (shape : form = make construction (.sequence (.terminal accepts item :: parts)))
    {p : Token → Prop} {l : Language Token} {ls : List (Language Token)}
    (same : ∀ t, t.IsLexical → (accepts t = true ↔ p t)) (starves : Starves parts l)
    (each : List.Forall₂ Part parts ls) (product : ls.prod = l)
    (lexical : ∀ t ∈ c.tokens, t.IsLexical) (enough : c.rest.length < depth + 1)
    (rest : c.rest = t :: r) (word : t :: (r ++ more) ∈ singleWord p * l) :
    RunsOut (depth + 1) condition c := by
  subst shape
  have mem : t ∈ c.tokens := Candidate.mem_tokens_of_rest rest
  have accepted := (same t (lexical t mem)).2 (cons_mem_singleWord_mul.1 word).1
  have some_left : c.rest ≠ [] := by
    rw [rest]
    exact List.cons_ne_nil t r
  rw [← List.cons_append, ← rest] at word
  exact runsOut_condition _ among (.build (.sequence .terminal)) rest accepted
    ((runsOut_of_starves same starves each product lexical enough some_left word).build _)

theorem runsOut_question (lexical : ∀ t ∈ c.tokens, t.IsLexical)
    (enough : c.rest.length < depth + 1) (rest : c.rest = t :: r) (goes_on : more ≠ [])
    (asked : t :: (r ++ more) ∈ Sentence.question) : RunsOut (depth + 1) condition c := by
  obtain ⟨lexical_t, behind, lexical_behind, fewer⟩ := behind_next lexical rest none
  rw [Sentence.question, ← mul_one (Sentence.key "ADJACENT")] at asked
  simp only [Language.mem_add, mul_assoc] at asked
  rcases asked with (((((adjacent | blocked) | aligned) | peep) | present) | testing) | plain
  · have both : r ++ more = [] := (cons_mem_singleWord_mul.1 adjacent).2
    exact absurd (List.append_eq_nil_iff.1 both).2 goes_on
  · obtain ⟨shown, word⟩ := cons_mem_singleWord_mul.1 blocked
    have accepted := (Token.isLiteral_name (by decide) lexical_t).2 shown
    refine runsOut_condition conditions[2] (by simp [conditions])
      (.build (.sequence .terminal)) rest accepted (.build ?_ _)
    by_cases last : r = []
    · exact runsOut_of_last (last ▸ rest) accepted
        (advance_heading_of_ended (by omega) (behind.trans last))
    · exact .lead rest accepted (.inl (heading_starves lexical_behind (by omega)
        (by rwa [behind]) goes_on (by rwa [behind])))
  · obtain ⟨shown, word⟩ := cons_mem_singleWord_mul.1 aligned
    have accepted := (Token.isLiteral_name (by decide) lexical_t).2 shown
    exact runsOut_condition conditions[3] (by simp [conditions])
      (.build (.sequence .terminal)) rest accepted (.build (.lead rest accepted
        (runsOut_maybe_heading lexical_behind (by omega) goes_on (by rwa [behind]))) _)
  · exact runsOut_plain conditions[4] (by simp [conditions]) rfl
      (fun _ lexical => Token.isLiteral_name (by decide) lexical) (starves_number starves_nothing)
      (.cons part_number .nil) (by simp) lexical enough rest (by rwa [mul_one])
  · exact runsOut_plain conditions[5] (by simp [conditions]) rfl
      (fun _ lexical => Token.isLiteral_name (by decide) lexical)
      (starves_tile (l := Sentence.maybe Sentence.number) (Sentence.stoppable_maybe _))
      (.cons part_tile (.cons (part_maybe fun _ => scans_number) .nil))
      (by rw [List.prod_cons, List.prod_singleton]) lexical enough rest present
  · exact runsOut_plain conditions[6] (by simp [conditions]) rfl
      (fun _ lexical => Token.isLiteral_name (by decide) lexical)
      (starves_word (starves_comparison (starves_number starves_nothing)))
      (.cons part_word (.cons part_comparison (.cons part_number .nil))) (by simp) lexical enough
      rest (by rwa [mul_one])
  · exact runsOut_plain conditions[7] (by simp [conditions]) rfl
      (p := fun t => t.kind = .word ∧ ∀ text ∈ conditionKeywords, sameWord t.value text = false)
      (fun t _ => by simp [Token.isWordExcept, Token.isWord])
      (starves_comparison (starves_number starves_nothing))
      (.cons part_comparison (.cons part_number .nil)) (by simp) lexical enough rest
      (by rwa [mul_one])

/-- A condition that is not over asks for more, unless what there is of it is one. -/
theorem runsOut_of_begun (lexical : ∀ t ∈ c.tokens, t.IsLexical) (enough : c.rest.length < depth)
    (some_left : c.rest ≠ []) (goes_on : more ≠ []) (word : c.rest ++ more ∈ Sentence.condition) :
    RunsOut depth condition c := by
  induction depth generalizing c with
  | zero => exact absurd enough (Nat.not_lt_zero _)
  | succ depth ih =>
    obtain ⟨t, r, rest⟩ := List.exists_cons_of_ne_nil some_left
    obtain ⟨lexical_t, behind, lexical_behind, fewer⟩ := behind_next lexical rest none
    rw [rest, List.cons_append] at word
    rcases Sentence.cons_mem_condition.1 word with asked | ⟨negated, word⟩
    · exact runsOut_question lexical enough rest goes_on asked
    · have accepted := (Token.isLiteral_name (by decide) lexical_t).2 negated
      refine runsOut_condition conditions[0] (by simp [conditions])
        (.build (.sequence .terminal)) rest accepted (.build ?_ _)
      by_cases last : r = []
      · exact runsOut_of_last (last ▸ rest) accepted
          (advance_condition_of_ended (by omega) (behind.trans last))
      · exact .lead rest accepted
          (ih lexical_behind (by omega) (by rwa [behind]) (by rwa [behind]))

end Condition

section Jump

theorem jumpEnd_begin {u v : List Token} (word : u ++ v ∈ Sentence.jumpEnd) :
    u ∈ Sentence.maybe (Sentence.key "THEN") * Sentence.maybe (Sentence.sign ":") ∨
      u ∈ Sentence.jumpEnd := by
  rw [Sentence.jumpEnd, ← mul_assoc] at word ⊢
  rcases Sentence.begin_of_mul word with ⟨lead, last, rfl, led, label⟩ | ⟨w, -, led, -⟩
  · by_cases none_left : last = []
    · left
      rwa [none_left, List.append_nil]
    · right
      refine Language.append_mem_mul led ?_
      obtain ⟨t, has, same⟩ := label
      obtain ⟨s, last, rfl⟩ := List.exists_cons_of_ne_nil none_left
      obtain ⟨rfl, nothing⟩ := List.cons.inj same
      obtain ⟨rfl, -⟩ := List.append_eq_nil_iff.1 nothing
      exact ⟨s, has, rfl⟩
  · exact .inl (Sentence.stoppable_maybe_mul _ (Sentence.stoppable_maybe _) u w led)

/-- A reading that leaves a candidate, or asks for a token where it could not. -/
def Blameless (reading : Reading Token (Pool Token Node)) : Prop :=
  reading = .error .exhausted ∨ ∃ outs, outs ≠ [] ∧ reading = .ok outs

theorem blameless_jumpTail {cs : Pool Token Node} (lexical : ∀ t ∈ d.tokens, t.IsLexical)
    (given : d ∈ cs) (same : ∀ e ∈ cs, e.tokens = d.tokens)
    (word : d.rest ++ more ∈ Sentence.jumpEnd) :
    Blameless (advanceRest (book.enter depth) jumpTail cs) := by
  rcases jumpEnd_begin word with lead | whole
  · let leading : List Phrase := [.optional (keyword "THEN"), .optional (keyword ":")]
    have leading_parts : List.Forall₂ Part leading
        [Sentence.maybe (Sentence.key "THEN"), Sentence.maybe (Sentence.sign ":")] :=
      .cons (part_maybe fun _ => scans_keyword "THEN" (by decide))
        (.cons (part_maybe fun _ => scans_colon) .nil)
    obtain ⟨e, leads, -, ended⟩ := leads_of_scans (.sequence (scans_parts leading_parts _)) lexical
      (Nat.le_refl _) (by simpa using lead)
    obtain ⟨outs, read⟩ := advanceRest_of_forgiving (book.enter_complete depth)
      (forgives_parts leading_parts depth) given leads
    have found :=
      advanceRest_complete (book.enter_complete depth) leading cs outs read d given e leads
    have builds : Builds (.sequence leading) :=
      ⟨by simp [leading, Rule.optional, keyword, actions, actionsOfAll], keepsPlace_of_name⟩
    have all_same : ∀ b ∈ outs, b.tokens = e.tokens := by
      intro b mem
      obtain ⟨a, among, derived⟩ :=
        advanceRest_sound (book.enter_sound depth) leading cs outs read b mem
      rw [(derived.within builds).1, (leads.within builds).1, same a among]
    -- The candidate that has taken all tokens is there when the label is looked for.
    have split : jumpTail = leading ++ [wordExcept ["THEN"]] := rfl
    obtain ⟨labelled, taken⟩ := tame_terminal outs
    rw [split, advanceRest_append, read]
    by_cases none_left : labelled = []
    · left
      rw [none_left] at taken
      rw [← nextTokenError_of_ended found ended all_same]
      exact advanceRest_of_nil taken
    · exact .inr ⟨labelled, none_left, advanceRest_of_ok taken none_left⟩
  · obtain ⟨e, leads, -⟩ := leads_of_scans (.sequence (scans_parts jumpTail_parts _)) lexical
      (Nat.le_refl _) (by simpa [Sentence.jumpEnd] using whole)
    obtain ⟨outs, read⟩ := advanceRest_of_forgiving (book.enter_complete depth)
      (forgives_parts jumpTail_parts depth) given leads
    have found :=
      advanceRest_complete (book.enter_complete depth) jumpTail cs outs read d given e leads
    exact .inr ⟨outs, List.ne_nil_of_mem found, read⟩

theorem leads_condition (lexical : ∀ t ∈ c.tokens, t.IsLexical) (enough : c.rest.length < depth)
    {u v : List Token} (rest : c.rest = u ++ v) (word : u ∈ Sentence.condition)
    (clear : u ∈ (Sentence.key "NOT")∗ * Sentence.key "ALIGNED" →
      ∀ t ∈ v.head?, t.isOneOf Turn.keywords = false) :
    Goes depth condition c ∧ ∃ d, Leads condition c d ∧ d.rest = v := by
  obtain ⟨d, leads, taken⟩ := scans_condition.complete lexical (Nat.le_refl _) word rest
  have behind := taken.rest_eq rest
  refine ⟨goes_condition lexical enough leads taken ?_, d, leads, behind⟩
  rwa [behind]

theorem no_turn_of_more {u v : List Token} (lexical : ∀ t ∈ c.tokens, t.IsLexical)
    (cut : c.rest = u ++ v) (goes_on : more ≠ []) (word : v ++ more ∈ Sentence.jumpEnd) :
    ∀ t ∈ v.head?, t.isOneOf Turn.keywords = false := by
  intro t first
  rw [Bool.eq_false_iff]
  intro turned
  obtain ⟨w, rfl⟩ := List.head?_eq_some_iff.1 first
  have mem : t ∈ c.rest := by
    rw [cut]
    exact List.mem_append_right u List.mem_cons_self
  rw [List.cons_append] at word
  have nothing := turn_ends_jump (lexical t (List.mem_of_mem_drop mem)) turned word
  exact goes_on (List.append_eq_nil_iff.1 nothing).2

theorem blameless_of_condition {outs : Pool Token Node} (lexical : ∀ t ∈ c.tokens, t.IsLexical)
    (read : advance (book.enter depth) condition [c] = .ok outs) (found : d ∈ outs)
    (word : d.rest ++ more ∈ Sentence.jumpEnd) :
    Blameless (advanceRest (book.enter depth) (condition :: jumpTail) [c]) := by
  have same : ∀ e ∈ outs, e.tokens = c.tokens := (builds_deferred .condition).tokens_eq read
  rw [advanceRest_of_ok read (List.ne_nil_of_mem found)]
  refine blameless_jumpTail (by rwa [same d found]) found (fun e also => ?_) word
  rw [same e also, same d found]

theorem blameless_behind_if (lexical : ∀ t ∈ c.tokens, t.IsLexical)
    (enough : c.rest.length < depth) (goes_on : more ≠ [])
    (word : c.rest ++ more ∈ Sentence.condition * Sentence.jumpEnd) :
    Blameless (advanceRest (book.enter depth) (condition :: jumpTail) [c]) := by
  by_cases nothing : c.rest = []
  · left
    rw [advanceRest_of_nil (advance_condition_of_ended (by omega) nothing),
      nextTokenError_of_all_ended (by simp [nothing])]
  rcases Sentence.begin_of_mul word with
    ⟨u, v, cut, asked, word⟩ | ⟨v, left_open, asked, w, word, -⟩
  · obtain ⟨⟨outs, read⟩, d, leads, after⟩ := leads_condition lexical enough cut asked
      fun _ => no_turn_of_more lexical cut goes_on word
    have found := (advance_complete (book.enter_complete depth) condition).of_singleton read leads
    rw [← after] at word
    exact blameless_of_condition lexical read found word
  · rcases runsOut_of_begun lexical enough nothing left_open asked with
      failed | ⟨outs, read, d, found, ended⟩
    · exact .inl (advanceRest_of_error failed)
    · have ends : d.rest ++ w ∈ Sentence.jumpEnd := by rwa [ended]
      exact blameless_of_condition lexical read found ends

/-- A jump that is not over asks for more, unless some candidate comes to a label. -/
theorem blameless_jump (lexical : ∀ t ∈ c.tokens, t.IsLexical) (enough : c.rest.length < depth)
    (some_left : c.rest ≠ []) (goes_on : more ≠ []) (word : c.rest ++ more ∈ Sentence.jumping) :
    Blameless (advance (book.enter depth) jumpIfRule [c]) := by
  obtain ⟨t, r, rest⟩ := List.exists_cons_of_ne_nil some_left
  obtain ⟨lexical_t, behind, lexical_behind, fewer⟩ := behind_next lexical rest none
  rw [rest] at word
  obtain ⟨shown, word⟩ := cons_mem_singleWord_mul.1 word
  have accepted := (Token.isLiteral_name (by decide) lexical_t).2 shown
  have keyword_read : advance (book.enter depth)
      (.sequence (keyword "IF" :: condition :: jumpTail)) [c] =
        advanceRest (book.enter depth) (condition :: jumpTail) [c.skip none t] :=
    advance_lead rest accepted
  rw [← behind] at word
  have later : Blameless (advanceRest (book.enter depth) (condition :: jumpTail) [c.skip none t]) :=
    blameless_behind_if lexical_behind (by omega) goes_on word
  rcases later with failed | ⟨outs, some_found, read⟩
  · left
    exact advance_build_of_error (keyword_read.trans failed)
  · refine .inr ⟨_, ?_, advance_build_eq_ok.2 ⟨outs, keyword_read.trans read, rfl⟩⟩
    simpa using some_found

theorem turns_to_end {u v w : List Token}
    (aligned : u ∈ (Sentence.key "NOT")∗ * Sentence.key "ALIGNED") (left_open : w ≠ [])
    (asked : u ++ v ++ w ∈ Sentence.condition) (some_left : v ≠ []) :
    v ∈ Sentence.turn * Sentence.turn∗ := by
  rw [List.append_assoc] at asked
  have headed := Sentence.mem_of_maybe left_open (Sentence.heading_behind aligned asked)
  have turns := Sentence.turns_of_heading_begin left_open headed
  rw [← Language.one_add_self_mul_kstar_eq_kstar] at turns
  rcases (Language.mem_add _ _ _).1 turns with nothing | turns
  · exact absurd nothing some_left
  · exact turns

theorem goes_condition_of_begun {u v : List Token} (lexical : ∀ t ∈ c.tokens, t.IsLexical)
    (enough : c.rest.length < depth) (goes_on : more ≠ [])
    (word : c.rest ++ more ∈ Sentence.condition * Sentence.jumpEnd) (cut : c.rest = u ++ v)
    (asked : u ∈ Sentence.condition)
    (clear : u ∈ (Sentence.key "NOT")∗ * Sentence.key "ALIGNED" →
      v ∉ Sentence.turn * Sentence.turn∗) : Goes depth condition c := by
  rcases Sentence.begin_of_mul word with ⟨u', v', cut', asked', word⟩ | ⟨w, left_open, asked', -⟩
  · exact (leads_condition lexical enough cut' asked'
      fun _ => no_turn_of_more lexical cut' goes_on word).1
  · refine (leads_condition lexical enough cut asked fun aligned t first => ?_).1
    rw [Bool.eq_false_iff]
    intro _
    have some_left : v ≠ [] := by
      rintro rfl
      simp at first
    rw [cut] at asked'
    exact clear aligned (turns_to_end aligned left_open asked' some_left)

theorem goes_of_overtaken (lexical : ∀ t ∈ c.tokens, t.IsLexical) (enough : c.rest.length < depth)
    (goes_on : more ≠ []) (word : c.rest ++ more ∈ Sentence.jumping)
    (overtaken : Sentence.Overtaken c.rest) : Goes depth jumpIfRule c := by
  obtain ⟨⟨p, jump, q, whole⟩, no_turns⟩ := overtaken
  obtain ⟨t, r, shown, others, rfl⟩ := mem_singleWord_mul.1 jump
  obtain ⟨u, asked, s, ends, rfl⟩ := Language.mem_mul.1 others
  have rest : c.rest = t :: (u ++ s ++ q) := whole.symm
  rw [List.append_assoc u] at rest
  obtain ⟨lexical_t, cut, lexical', fewer⟩ := behind_next lexical rest none
  have accepted := (Token.isLiteral_name (by decide) lexical_t).2 shown
  rw [rest] at word no_turns
  have goes : Goes depth condition (c.skip none t) := by
    rw [List.cons_append, ← cut] at word
    refine goes_condition_of_begun lexical' (by omega) goes_on (cons_mem_singleWord_mul.1 word).2
      cut asked fun aligned turns => no_turns ?_
    rw [Sentence.turning, mul_assoc, mul_assoc]
    refine cons_mem_singleWord_mul.2 ⟨shown, ?_⟩
    rw [← mul_assoc]
    exact Language.append_mem_mul aligned turns
  obtain ⟨d, leads, taken_d⟩ := scans_condition.complete lexical' (Nat.le_refl _) asked cut
  obtain ⟨e, leads', -⟩ := (Reads.sequence (scans_parts jumpTail_parts _)).complete
    (by rwa [taken_d.tokens]) (Nat.le_refl _) (by simpa [Sentence.jumpEnd] using ends)
    (taken_d.rest_eq cut)
  obtain ⟨outs, read⟩ := advanceRest_of_passes (book.enter_complete depth) goes
    (forgives_parts jumpTail_parts depth) leads leads'
  exact passes_build.2 ⟨outs, (advance_lead rest accepted).trans read⟩

end Jump

end Grammar
end ActorScript
