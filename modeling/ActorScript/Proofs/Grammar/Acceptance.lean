import ActorScript.Proofs.Grammar.Passing
import ActorScript.Proofs.Grammar.Stack

/-!
Which lines are accepted: the words of the language of lines, save those in which a turn behind
`ALIGNED` is meant for a label.
-/
namespace ActorScript

open Computability

namespace Grammar

open Rule Phrase

variable {depth : Nat} {c d : Candidate Token Node}

theorem leads_of_scans {phrase : Phrase} {l : Language Token} {room : Nat}
    (scans : Scans room phrase l) (lexical : ∀ t ∈ c.tokens, t.IsLexical)
    (enough : c.rest.length ≤ room) (word : c.rest ∈ l) :
    ∃ d, Leads phrase c d ∧ c.Takes c.rest d ∧ d.rest = [] := by
  obtain ⟨d, leads, taken⟩ := scans.complete lexical enough word (List.append_nil c.rest).symm
  exact ⟨d, leads, taken, taken.rest_eq (List.append_nil c.rest).symm⟩

/-- A part of a command that may follow whatever was read before. -/
structure Part (phrase : Phrase) (l : Language Token) : Prop where
  scans : ∀ room, Scans room phrase l
  forgives : ∀ depth, Forgives depth phrase

theorem part_word : Part word Sentence.word := ⟨fun _ => scans_word, fun _ => forgives_word⟩

theorem part_number : Part number Sentence.number :=
  ⟨fun _ => scans_number, fun _ => forgives_number⟩

theorem part_quoted : Part quoted Sentence.quoted :=
  ⟨fun _ => scans_quoted, fun _ => tame_terminal.forgiving⟩

theorem part_tile : Part tile Sentence.tile := ⟨fun _ => scans_tile, fun _ => forgives_tile⟩

theorem part_wordExcept (texts : List String) :
    Part (wordExcept texts) (Sentence.wordBut texts) :=
  ⟨fun _ => scans_wordExcept, fun _ => tame_terminal.forgiving⟩

theorem part_maybe {accepts : Token → Bool} {item : Option (Token → Node)} {l : Language Token}
    (scans : ∀ room, Scans room (.terminal accepts item) l) :
    Part (.optional (.terminal accepts item)) (Sentence.maybe l) :=
  ⟨fun room => (scans room).optional, fun _ => tame_terminal.optional.forgiving⟩

theorem scans_parts {parts : List Phrase} {ls : List (Language Token)}
    (each : List.Forall₂ Part parts ls) (room : Nat) : List.Forall₂ (Scans room) parts ls :=
  each.imp fun _ _ part => part.scans room

theorem forgives_parts {parts : List Phrase} {ls : List (Language Token)}
    (each : List.Forall₂ Part parts ls) (depth : Nat) : ∀ part ∈ parts, Forgives depth part := by
  induction each with
  | nil => simp
  | cons part _ ih => exact List.forall_mem_cons.2 ⟨part.forgives depth, ih⟩

/-- The rule for a command reads its form, and goes through on all of it that does not stumble. -/
structure Fits (phrase : Phrase) (form : String × Language Token) : Prop where
  opens : Opens (Token.isLiteral form.1) phrase
  scans : ∀ room, Scans room phrase (Sentence.key form.1 * form.2)
  goes : ∀ (depth : Nat) (c : Candidate Token Node), (∀ t ∈ c.tokens, t.IsLexical) →
    c.rest.length < depth → c.rest ∈ Sentence.key form.1 * form.2 → c.rest ∉ Sentence.stumbling →
    Goes depth phrase c

section Forms

variable {text : String} {construction : Construction Unit} {parts : List Phrase}
  {l : Language Token} {ls : List (Language Token)}

theorem fits_alone (name : kindOf? text = some .word) :
    Fits (make construction (keyword text)) (text, 1) where
  opens := .build .terminal
  scans room := by
    rw [mul_one]
    exact (scans_keyword text name).build
  goes depth c _ _ _ _ := (tame_terminal.build _).passes c

theorem fits_plain (name : kindOf? text = some .word) (each : List.Forall₂ Part parts ls)
    (same : ls.prod = l) :
    Fits (make construction (.sequence (keyword text :: parts))) (text, l) where
  opens := .build (.sequence .terminal)
  scans room := by
    subst same
    exact .build ((scans_keyword text name).cons (.sequence (scans_parts each room)))
  goes depth c lexical enough word _ := by
    subst same
    obtain ⟨d, leads, -⟩ := leads_of_scans
      ((scans_keyword text name).cons (.sequence (scans_parts each _))) lexical (Nat.le_refl _) word
    exact passes_build.2 (goes_plain (forgives_parts each depth) leads)

theorem fits_headed (name : kindOf? text = some .word) (each : List.Forall₂ Part parts ls)
    (same : Sentence.heading * ls.prod = l) :
    Fits (make construction (.sequence (keyword text :: heading :: parts))) (text, l) where
  opens := .build (.sequence .terminal)
  scans room := by
    subst same
    exact .build
      ((scans_keyword text name).cons (scans_heading.cons (.sequence (scans_parts each room))))
  goes depth c lexical enough word _ := by
    subst same
    obtain ⟨e, leads, -⟩ := leads_of_scans
      ((scans_keyword text name).cons (scans_heading.cons (.sequence (scans_parts each _))))
      lexical (Nat.le_refl _) word
    refine passes_build.2
      (goes_headed (forgives_parts each depth) leads fun b d taken leads _ => ?_)
    have := length_rest_of_take? taken
    exact goes_heading (by omega) leads

end Forms

section Scroll

theorem length_rest_lt_rounds (c : Candidate Token Node) :
    c.rest.length < repetitionRounds [c] := by
  simp [repetitionRounds, Pool.longest, Pool.smallestIndex, Candidate.rest]

theorem rounds_go (enter : Name → Pool Token Node → Reading Token (Pool Token Node)) (rounds : Nat)
    (enough : c.rest.length < rounds) (lexical : ∀ t ∈ c.tokens, t.IsLexical)
    (word : c.rest ∈ (Sentence.comma * Sentence.quoted)∗) :
    ∃ more,
      repetitionFrom (advance enter (.sequence [keyword ",", quoted])) rounds [c] = .ok more := by
  induction rounds generalizing c with
  | zero => exact absurd enough (Nat.not_lt_zero _)
  | succ rounds ih =>
    rw [← Language.one_add_self_mul_kstar_eq_kstar, mul_assoc] at word
    rcases (Language.mem_add _ _ _).1 word with nothing | again
    · have ended : c.rest = [] := nothing
      have closed : advance enter (.sequence [keyword ",", quoted]) [c] = .ok [] :=
        Opens.advance_eq (.sequence .terminal) (by simp [ended])
      exact ⟨[], (repetitionFrom_eq_ok (List.cons_ne_nil c [])).2
        ⟨[], [], repetitionRound_eq_ok.2 ⟨[], closed, rfl⟩, repetitionFrom_nil rounds, rfl⟩⟩
    · obtain ⟨a, r, comma, later, next⟩ := mem_singleWord_mul.1 again
      obtain ⟨q, r', string, others, rfl⟩ := mem_singleWord_mul.1 later
      have first := Candidate.takes_skip next (ι := Node) none
      have second := Candidate.takes_skip (first.rest_eq next) (some .token)
      let d := (c.skip none a).skip (some .token) q
      have taken : c.Takes [a, q] d := first.trans second
      have mem : a ∈ c.tokens := Candidate.mem_tokens_of_rest next
      have read : advance enter (.sequence [keyword ",", quoted]) [c] = .ok [d] := by
        rw [advance]
        refine advanceFirst_cons_eq_ok.2 ⟨_, advance_terminal_of_rest next
          ((Token.isLiteral_comma (lexical a mem)).2 comma), .inr ⟨List.cons_ne_nil _ _, ?_⟩⟩
        exact advanceRest_cons_eq_ok.2 ⟨_, advance_terminal_of_rest (first.rest_eq next)
          (by simpa [Token.isQuoted] using string), List.cons_ne_nil _ _, rfl⟩
      have fewer : c.rest.length = 2 + d.rest.length := taken.length_rest
      have rest : d.rest = r' := taken.rest_eq next
      obtain ⟨more, read_more⟩ :=
        ih (c := d) (by omega) (by rwa [taken.tokens]) (by rwa [rest])
      refine ⟨_, (repetitionFrom_eq_ok (List.cons_ne_nil c [])).2
        ⟨_, more, repetitionRound_eq_ok.2 ⟨_, read, rfl⟩, ?_, rfl⟩⟩
      rwa [List.filter_cons_of_pos (by simp [Pool.smallestIndex, taken.index]), List.filter_nil]

theorem fits_scrollRule :
    Fits scrollRule ("SCROLL", Sentence.quoted * (Sentence.comma * Sentence.quoted)∗) where
  opens := .build (.sequence .terminal)
  scans room := by
    have round : Scans room (.sequence [keyword ",", quoted]) _ :=
      .sequence (.cons scans_comma (.cons scans_quoted .nil))
    refine (Reads.of_eq (.sequence (.cons (scans_keyword "SCROLL" (by decide)) (.cons scans_quoted
      (.cons round.repetition .nil)))) ?_).build
    simp
  goes depth c lexical enough word _ := by
    obtain ⟨k, r, keyword, later, next⟩ := mem_singleWord_mul.1 word
    obtain ⟨q, r', string, rounds, rfl⟩ := mem_singleWord_mul.1 later
    refine passes_build.2 (passes_lead.2 fun b taken => ?_)
    obtain ⟨k', _, next', -, rfl⟩ := Candidate.take?_iff.1 taken
    have first := Candidate.takes_skip next (ι := Node) none
    obtain ⟨rfl, rfl⟩ := List.cons.inj (next.symm.trans next')
    have second := Candidate.takes_skip (first.rest_eq next) (some .token)
    obtain ⟨more, read⟩ := rounds_go (book.enter depth) _ (length_rest_lt_rounds _)
      (by rwa [second.tokens, first.tokens]) (by rwa [second.rest_eq (first.rest_eq next)])
    refine ⟨_, advanceRest_cons_eq_ok.2 ⟨_, advance_terminal_of_rest (first.rest_eq next)
      (by simpa [Token.isQuoted] using string), List.cons_ne_nil _ _,
      advanceRest_cons_eq_ok.2 ⟨_, advance_repetition_eq_ok.2 ⟨more, read, rfl⟩, ?_, rfl⟩⟩⟩
    exact List.cons_ne_nil _ _

end Scroll

section JumpIf

def jumpTail : List Phrase :=
  [.optional (keyword "THEN"), .optional (keyword ":"), wordExcept ["THEN"]]

theorem jumpTail_parts : List.Forall₂ Part jumpTail [Sentence.maybe (Sentence.key "THEN"),
    Sentence.maybe (Sentence.sign ":"), Sentence.wordBut ["THEN"]] :=
  .cons (part_maybe fun _ => scans_keyword "THEN" (by decide)) <|
    .cons (part_maybe fun _ => scans_colon) <| .cons (part_wordExcept ["THEN"]) .nil

theorem turn_ends_jump {t : Token} {r : List Token} (lexical : t.IsLexical)
    (turning : t.isOneOf Turn.keywords = true)
    (word : t :: r ∈ Sentence.maybe (Sentence.key "THEN") *
      (Sentence.maybe (Sentence.sign ":") * Sentence.wordBut ["THEN"])) : r = [] := by
  have turn_word := ((Token.isOneOf_names turn_names lexical).1 turning).1
  simp only [Sentence.maybe, add_mul, one_mul] at word
  rcases (Language.mem_add _ _ _).1 word with then_first | word
  · obtain ⟨shown, -⟩ := cons_mem_singleWord_mul.1 then_first
    have apart : t.isOneOf ["THEN"] = false := Token.isOneOf_apart (by decide) turning
    have also := Token.isOneOf_iff.2
      ⟨"THEN", List.mem_singleton_self _, (Token.isLiteral_name (by decide) lexical).2 shown⟩
    rw [apart] at also
    exact absurd also (by decide)
  rcases (Language.mem_add _ _ _).1 word with colon_first | word
  · obtain ⟨⟨operator, -⟩, -⟩ := cons_mem_singleWord_mul.1 colon_first
    rw [turn_word] at operator
    exact absurd operator (by decide)
  · obtain ⟨u, -, same⟩ := word
    exact (List.cons.inj same).2

theorem fits_jumpIfRule : Fits jumpIfRule ("IF", Sentence.condition *
    Sentence.maybe (Sentence.key "THEN") * Sentence.maybe (Sentence.sign ":") *
      Sentence.wordBut ["THEN"]) where
  opens := .build (.sequence .terminal)
  scans room := by
    refine Reads.build (Reads.of_eq ((scans_keyword "IF" (by decide)).cons
      (scans_condition.cons (.sequence (scans_parts jumpTail_parts room)))) ?_)
    simp [mul_assoc]
  goes depth c lexical enough word clear := by
    have tail := Reads.sequence (scans_parts jumpTail_parts c.rest.length)
    obtain ⟨e, leads, -, ended⟩ := leads_of_scans
      (l := Sentence.key "IF" * (Sentence.condition * _))
      ((scans_keyword "IF" (by decide)).cons (scans_condition.cons tail)) lexical (Nat.le_refl _)
      (by simpa [mul_assoc] using word)
    refine passes_build.2 (goes_headed (forgives_parts jumpTail_parts depth) leads
      fun b d behind leads rest => ?_)
    have fewer := length_rest_of_take? behind
    obtain ⟨v, keyword, skipped⟩ := takes_keyword (by decide) lexical behind
    have lexical_b : ∀ t ∈ b.tokens, t.IsLexical := by rwa [skipped.tokens]
    obtain ⟨w, -, taken⟩ := scans_condition.sound lexical_b (Nat.le_refl _)
      (leads.mono fun _ _ _ => trivial)
    have lexical_d : ∀ t ∈ d.tokens, t.IsLexical := by rwa [taken.tokens]
    refine goes_condition lexical_b (by omega) leads taken fun aligned t first => ?_
    rw [Bool.eq_false_iff]
    intro turning
    obtain ⟨r, next⟩ := List.head?_eq_some_iff.1 first
    have mem : t ∈ d.tokens := Candidate.mem_tokens_of_rest next
    have last : r = [] := by
      have fewer' := taken.length_rest
      obtain ⟨u, word', taken'⟩ := tail.sound lexical_d (by omega)
        (rest.mono fun _ _ _ => trivial)
      have all := taken'.rest
      rw [ended, List.append_nil] at all
      rw [← all, next] at word'
      exact turn_ends_jump (lexical_d t mem) turning (by simpa using word')
    apply clear
    have whole := (skipped.trans taken).rest
    rw [whole, next, last, Sentence.stumbling, mul_assoc, mul_assoc, List.append_assoc]
    refine Language.append_mem_mul keyword ?_
    rw [← mul_assoc]
    exact Language.append_mem_mul aligned
      ⟨t, (Token.isOneOf_names turn_names (lexical_d t mem)).1 turning, rfl⟩

theorem not_goes_jumpIfRule (lexical : ∀ t ∈ c.tokens, t.IsLexical)
    (turning : c.rest ∈ Sentence.turning) : ¬ Goes depth jumpIfRule c := by
  intro goes
  rw [Sentence.turning, mul_assoc, mul_assoc] at turning
  obtain ⟨k, r, keyword, others, next⟩ := mem_singleWord_mul.1 turning
  have mem : k ∈ c.tokens := Candidate.mem_tokens_of_rest next
  obtain ⟨b, outs, same, behind, -, read⟩ := goes_behind next
    ((Token.isLiteral_name (by decide) (lexical k mem)).2 keyword) (passes_build.1 goes)
  rw [← behind] at others
  exact not_goes_condition (by rwa [same]) others ⟨outs, read⟩

end JumpIf

theorem commands_fit : List.Forall₂ Fits commands Sentence.commandForms :=
  .cons (fits_headed (by decide) (.cons (part_maybe fun _ => scans_number)
    (.cons (part_maybe fun _ => scans_literal "FORCE" (by decide)) .nil)) (by simp [mul_assoc])) <|
  .cons (fits_headed (by decide) (.cons (part_maybe fun _ => scans_word) .nil) (by simp)) <|
  .cons (fits_plain (by decide) (.cons (part_maybe fun _ => scans_number) .nil) (by simp)) <|
  .cons (fits_plain (by decide) (.cons part_quoted .nil) (by simp)) <|
  .cons fits_scrollRule <|
  .cons (fits_alone (by decide)) <|
  .cons (fits_alone (by decide)) <|
  .cons fits_jumpIfRule <|
  .cons (fits_headed (by decide) (.cons part_tile .nil) (by simp)) <|
  .cons (fits_plain (by decide) (.cons part_word
    (.cons (part_maybe fun _ => scans_word) .nil)) (by simp)) <|
  .cons (fits_plain (by decide) (.cons part_word (.cons part_number .nil)) (by simp)) <|
  .cons (fits_plain (by decide) (.cons part_word (.cons part_number .nil)) (by simp)) <|
  .cons (fits_plain (by decide) (.cons part_word (.cons part_number
    (.cons (part_maybe fun _ => scans_word) .nil))) (by simp [mul_assoc])) <|
  .cons (fits_plain (by decide) (.cons part_tile .nil) (by simp)) <|
  .cons (fits_plain (by decide) (.cons part_tile (.cons part_tile .nil)) (by simp)) <|
  .cons (fits_plain (by decide) (.cons part_number .nil) (by simp)) <|
  .cons (fits_plain (by decide) (.cons part_number .nil) (by simp)) <|
  .cons (fits_headed (by decide) .nil (by simp)) <|
  .cons (fits_headed (by decide) .nil (by simp)) <|
  .cons (fits_headed (by decide) .nil (by simp)) <|
  .cons (fits_alone (by decide)) <|
  .cons (fits_alone (by decide)) <|
  .cons (fits_alone (by decide)) <|
  .cons (fits_plain (by decide) (.cons part_word .nil) (by simp)) <|
  .cons (fits_plain (by decide) (.cons part_word .nil) (by simp)) <|
  .cons (fits_plain (by decide) (.cons part_quoted
    (.cons (part_maybe fun _ => scans_literal "EXCLUSIVE" (by decide)) .nil)) (by simp)) .nil

section Line

/-- What lines with a command or a label begin with. -/
def lineOpenings : List (Token → Bool) :=
  (Sentence.commandForms.map (·.1) ++ [":"]).map Token.isLiteral

theorem lines_open : List.Forall₂ Opens lineOpenings (commands ++ [labelRule]) := by
  have keywords : List.Forall₂ Opens ((Sentence.commandForms.map (·.1)).map Token.isLiteral)
      commands := by
    rw [List.map_map, List.forall₂_map_left_iff]
    exact (commands_fit.imp fun _ _ fits => fits.opens).flip
  rw [lineOpenings, List.map_append]
  exact List.rel_append keywords (.cons (.build (.sequence .terminal)) .nil)

theorem lines_exclusive :
    lineOpenings.Pairwise fun first second => ∀ t, first t = true → second t = false :=
  pairwise_isLiteral (by decide)

theorem scans_labelRule (room : Nat) :
    Scans room labelRule (Sentence.sign ":" * Sentence.word) := by
  refine (Reads.of_eq (.sequence (.cons scans_colon (.cons scans_word .nil))) ?_).build
  simp

theorem scans_lineRule (room : Nat) : Scans room lineRule Sentence.line := by
  have forms : List.Forall₂ (Scans room) commands
      (Sentence.commandForms.map fun form => Sentence.key form.1 * form.2) :=
    List.forall₂_map_right_iff.2 (commands_fit.imp fun _ _ fits => fits.scans room)
  refine Reads.of_eq (.alternation (List.rel_append forms
    (.cons (scans_labelRule room) (.cons .empty .nil)))) ?_
  rw [Sentence.line, List.sum_append, List.sum_cons, List.sum_cons, List.sum_nil, add_zero,
    add_assoc]

theorem goes_labelRule (c : Candidate Token Node) (leads : Leads labelRule c d) :
    Goes depth labelRule c := by
  cases leads with
  | built leads => exact passes_build.2 (goes_plain (by simp [forgives_word]) leads)

/-- The command or label that a line is goes through, and no other is entered. -/
theorem goes_lineRule (lexical : ∀ t ∈ c.tokens, t.IsLexical) (enough : c.rest.length < depth)
    (word : c.rest ∈ Sentence.line) (clear : c.rest ∉ Sentence.stumbling) :
    Goes depth lineRule c := by
  have others : ∀ choice ∈ commands ++ [labelRule], Goes depth choice c := by
    rcases (Language.mem_add _ _ _).1 word with word | nothing
    · rcases (Language.mem_add _ _ _).1 word with command | label
      · obtain ⟨l, mem, word⟩ := mem_sum.1 command
        obtain ⟨form, listed, rfl⟩ := List.mem_map.1 mem
        obtain ⟨phrase, among, fits⟩ := exists_of_forall₂ commands_fit listed
        obtain ⟨d, leads, -⟩ := leads_of_scans (fits.scans _) lexical (Nat.le_refl _) word
        exact passes_of_exclusive lines_open lines_exclusive (List.mem_append_left _ among) leads
          (fits.goes depth c lexical enough word clear)
      · obtain ⟨d, leads, -⟩ := leads_of_scans (scans_labelRule _) lexical (Nat.le_refl _) label
        exact passes_of_exclusive lines_open lines_exclusive
          (List.mem_append_right _ List.mem_cons_self) leads (goes_labelRule c leads)
    · have ended : c.rest = [] := nothing
      intro choice among
      obtain ⟨opening, -, opens⟩ := exists_of_forall₂ lines_open among
      exact ⟨[], opens.advance_eq (by simp [ended])⟩
  rw [lineRule_eq]
  refine passes_alternation.2 fun choice among => ?_
  rcases List.mem_append.1 among with among | among
  · exact others choice among
  · obtain rfl := List.mem_singleton.1 among
    exact tame_empty.passes c

end Line

end Grammar

namespace Line

open Grammar

theorem length_rest_lt_depth (ts : List Token) :
    (Candidate.start ts : Candidate Token Node).rest.length < book.depth [.start ts] := by
  have room : book.depth [(.start ts : Candidate Token Node)] = ts.length + 1 := by
    simp [Rulebook.depth, Pool.longest, book, Candidate.start]
  rw [room, Candidate.rest, List.length_drop]
  show ts.length - 0 < ts.length + 1
  omega

/-- The tokens of a text are a line exactly if they are a word of the language of lines and do not
stumble. -/
theorem exists_parse_iff {ts : List Token} (lexical : ∀ t ∈ ts, t.IsLexical) (number : Nat) :
    (∃ line, parse ts number = .ok line) ↔ ts ∈ Sentence.line ∧ ts ∉ Sentence.stumbling := by
  let start : Candidate Token Node := .start ts
  have lexical_start : ∀ t ∈ start.tokens, t.IsLexical := lexical
  constructor
  · rintro ⟨line, read⟩
    obtain ⟨d, found, -⟩ := parse_eq_ok.1 read
    obtain ⟨derived, done, passes⟩ := book.complete_eq_ok found
    obtain ⟨w, word, taken⟩ := (scans_lineRule _).sound lexical_start (Nat.le_refl _) derived
    obtain rfl : ts = w := taken.all done
    refine ⟨word, fun stumbles => ?_⟩
    exact not_goes_jumpIfRule lexical_start (Sentence.mem_turning_of_stumbling stumbles)
      (Rule.passes_alternation.1 passes jumpIfRule (by simp [commands]))
  · rintro ⟨word, clear⟩
    obtain ⟨d, leads, -, ended⟩ :=
      leads_of_scans (c := start) (scans_lineRule _) lexical_start (Nat.le_refl _) word
    obtain ⟨b, found⟩ :=
      book.exists_complete builds_line.keepsTokens
        (goes_lineRule lexical_start (length_rest_lt_depth ts) word clear) leads
        (Candidate.isDone_iff.2 ended)
    obtain ⟨derived, -, -⟩ := book.complete_eq_ok found
    obtain ⟨_, -, left⟩ := leaves_lineRule _ _ lexical_start (Nat.le_refl _) derived
    obtain ⟨line, -, left⟩ := left rfl
    refine ⟨line, parse_eq_ok.2 ⟨b, found, ?_⟩⟩
    exact left.imp_right fun alone => ⟨[], alone⟩

/-- Whatever line is read from tokens, they spell it. -/
theorem mem_spellings_of_parse {ts : List Token} (lexical : ∀ t ∈ ts, t.IsLexical) {number : Nat}
    {line : Line} (read : parse ts number = .ok line) : ts ∈ line.spellings := by
  obtain ⟨d, found, kept⟩ := parse_eq_ok.1 read
  obtain ⟨derived, done, -⟩ := book.complete_eq_ok found
  obtain ⟨w, taken, leaves⟩ := leaves_lineRule (.start ts) d lexical (Nat.le_refl _) derived
  obtain ⟨line', spelled, left⟩ := leaves rfl
  obtain rfl : ts = w := taken.all done
  suffices line = line' by rwa [this]
  rcases left with ⟨nothing, rfl⟩ | alone
  · rcases kept with ⟨-, blank⟩ | ⟨below, top⟩
    · exact blank
    · rw [nothing] at top
      exact absurd top.symm (List.cons_ne_nil _ _)
  · rcases kept with ⟨nothing, -⟩ | ⟨below, top⟩
    · rw [alone] at nothing
      exact absurd nothing (List.cons_ne_nil _ _)
    · rw [alone] at top
      exact (Node.line.inj (List.cons.inj top).1).symm

end Line

namespace Sentence

theorem mem_line_of_stumbling {ts : List Token} (stumbles : ts ∈ stumbling) : ts ∈ line := by
  rw [stumbling, mul_assoc, mul_assoc, ← mul_assoc (key "NOT")∗] at stumbles
  obtain ⟨k, _, keyword, others, rfl⟩ := mem_singleWord_mul.1 stumbles
  obtain ⟨w, aligned, _, ⟨t, ⟨word, turning⟩, rfl⟩, rfl⟩ := Language.mem_mul.1 others
  obtain ⟨nots, negated, last, ends, rfl⟩ := Language.mem_mul.1 aligned
  have asked : nots ++ last ∈ condition := by
    refine Language.append_mem_mul negated ?_
    have alone := Language.append_mem_mul ends (nil_mem_maybe heading)
    rw [List.append_nil] at alone
    exact .inl (.inl (.inl (.inl (.inr alone))))
  have label : [t] ∈ wordBut ["THEN"] := by
    refine ⟨t, ⟨word, fun text mem => ?_⟩, rfl⟩
    obtain rfl := List.mem_singleton.1 mem
    obtain ⟨text, mem, same⟩ := turning
    have apart : ∀ text ∈ Turn.keywords, sameWord text "THEN" = false := by decide
    rw [sameWord_congr same, apart text mem]
  have jump := Language.append_mem_mul (Language.append_mem_mul (Language.append_mem_mul asked
    (nil_mem_maybe (key "THEN"))) (nil_mem_maybe (sign ":"))) label
  rw [List.append_nil, List.append_nil] at jump
  refine .inl (.inl (mem_sum.2 ⟨_, List.mem_map.2 ⟨("IF", _), ?_, rfl⟩,
    mem_singleWord_mul.2 ⟨k, _, keyword, jump, rfl⟩⟩))
  simp [commandForms]

end Sentence

/-- Whatever text they are read from, tokens are accepted as a line exactly if they are a sentence
and do not stumble over a turn behind `ALIGNED`. -/
theorem line_accepted_iff_sentence {text : String} {ts : List Token}
    (lexed : tokenize text = .ok ts) (number : Nat) :
    (∃ line, Line.parse ts number = .ok line) ↔ ts ∈ Sentence.line ∧ ts ∉ Sentence.stumbling :=
  Line.exists_parse_iff (isLexical_of_tokenize lexed) number

/-- A label with the name of a turn is refused behind `ALIGNED`. -/
theorem turn_refused_as_label :
    let ts : List Token := [⟨.word, "IF", ⟨1, 1, 0⟩⟩, ⟨.word, "ALIGNED", ⟨1, 4, 3⟩⟩,
      ⟨.word, "OPP", ⟨1, 12, 11⟩⟩]
    tokenize "IF ALIGNED OPP" = .ok ts ∧ ts ∈ Sentence.line ∧
      ¬ ∃ line, Line.parse ts 1 = .ok line := by
  intro ts
  have lexed : tokenize "IF ALIGNED OPP" = .ok ts := by
    rw [tokenize_eq, show "IF ALIGNED OPP".toList =
      ['I', 'F', ' ', 'A', 'L', 'I', 'G', 'N', 'E', 'D', ' ', 'O', 'P', 'P'] by simp]
    refine Lexer.tokens_of_read ⟨.word, ['I', 'F'], 1⟩ rfl rfl rfl ?_
    refine (Lexer.tokens_blank rfl _).trans ?_
    refine Lexer.tokens_of_read ⟨.word, ['A', 'L', 'I', 'G', 'N', 'E', 'D'], 6⟩ rfl rfl rfl ?_
    refine (Lexer.tokens_blank rfl _).trans ?_
    refine Lexer.tokens_of_read ⟨.word, ['O', 'P', 'P'], 2⟩ rfl rfl rfl ?_
    exact Lexer.tokens_nil ..
  have stumbles : ts ∈ Sentence.stumbling := by
    rw [Sentence.stumbling, mul_assoc, mul_assoc]
    refine mem_singleWord_mul.2 ⟨_, _, ⟨rfl, by decide⟩, Sentence.mem_kstar_mul ?_, rfl⟩
    exact mem_singleWord_mul.2 ⟨_, _, ⟨rfl, by decide⟩, ⟨_, ⟨rfl, "OPP", by decide⟩, rfl⟩, rfl⟩
  exact ⟨lexed, Sentence.mem_line_of_stumbling stumbles,
    fun accepted => ((line_accepted_iff_sentence lexed 1).1 accepted).2 stumbles⟩

end ActorScript
