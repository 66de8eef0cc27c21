import ActorScript.Proofs.Command.Tokens
import ActorScript.Proofs.Grammar.Overtaking
import ActorScript.Proofs.Match.Replacement

/-!
Lines that end too early. Where more tokens would have made a line of them, the reading asks for a
token and blames none that is there, save for a jump that was whole before: its last tokens are
blamed although a longer condition would have taken them.
-/
namespace ActorScript

open Computability

namespace Sentence

theorem mem_line_of_jumping {w : List Token} (jump : w ∈ jumping) : w ∈ line := by
  refine .inl (.inl (mem_sum.2 ⟨_, List.mem_map.2 ⟨("IF", condition * maybe (key "THEN") *
    maybe (sign ":") * wordBut ["THEN"]), by simp [commandForms], rfl⟩, ?_⟩))
  rw [jumping, jumpEnd] at jump
  rwa [mul_assoc, mul_assoc]

/-- The token comes right behind the longest jump that a line begins with. -/
def BehindJump (ts : List Token) (t : Token) : Prop :=
  ∃ p q, ts = p ++ t :: q ∧ p ∈ jumping ∧ ∀ p' ∈ jumping, p' <+: ts → p' <+: p

theorem nil_notMem_jumping : [] ∉ jumping := by
  intro jump
  obtain ⟨t, r, -, -, same⟩ := mem_singleWord_mul.1 jump
  exact absurd same.symm (List.cons_ne_nil t r)

theorem nil_notMem_turning : [] ∉ turning := by
  intro turned
  rw [turning, mul_assoc, mul_assoc] at turned
  obtain ⟨t, r, -, -, same⟩ := mem_singleWord_mul.1 turned
  exact absurd same.symm (List.cons_ne_nil t r)

theorem shows_if {t : Token} {r : List Token} (jump : Overtaken (t :: r) ∨ t :: r ∈ stumbling) :
    t.kind = .word ∧ sameWord t.value "IF" = true := by
  rcases jump with ⟨⟨p, jump, q, whole⟩, -⟩ | stumbles
  · obtain ⟨s, r', shown, -, rfl⟩ := mem_singleWord_mul.1 jump
    obtain ⟨rfl, -⟩ := List.cons.inj whole
    exact shown
  · rw [stumbling, mul_assoc, mul_assoc] at stumbles
    exact (cons_mem_singleWord_mul.1 stumbles).1

theorem notMem_jumping {ts : List Token} (refused : ts ∈ line → ts ∈ stumbling)
    (no_turns : ts ∉ turning) : ts ∉ jumping := by
  intro jump
  exact no_turns (mem_turning_of_stumbling (refused (mem_line_of_jumping jump)))

end Sentence

namespace Grammar

open Rule Phrase

variable {depth : Nat} {c d : Candidate Token Node} {t : Token} {r more : List Token}
  {accepts : Token → Bool} {phrase : Phrase}

theorem scans_jump (room : Nat) : Scans room jumpIfRule Sentence.jumping := by
  refine Reads.of_eq (fits_jumpIfRule.scans room) ?_
  rw [Sentence.jumping, Sentence.jumpEnd, mul_assoc, mul_assoc]

theorem advance_lineRule (among : phrase ∈ commands ++ [labelRule]) (begins : Opens accepts phrase)
    (rest : c.rest = t :: r) (accepted : accepts t = true) :
    advance (book.enter depth) lineRule [c] = (do
      let outs ← advance (book.enter depth) phrase [c]
      return outs ++ [c]) := by
  rw [lineRule_eq, advance, advanceEach_append,
    advanceEach_of_exclusive lines_open lines_exclusive among begins rest accepted]
  rfl

section Tests

/-- Words that the rules for a line ask for, with one for each table. -/
def askedWords : List String :=
  Sentence.commandForms.map (·.1) ++ conditionKeywords ++
    ["THEN", "FORCE", "EXCLUSIVE", "NORTH", "OPP", "RED"]

/-- Tokens that a text can have, enough to pass each test in the rules for a line. -/
def samples : List Token :=
  askedWords.map .ofWord ++
    [.ofNumeral .one, .ofQuoted "", .ofComparison .equal, ⟨.operator, ":", .start⟩, .comma]

theorem isLexical_samples : ∀ t ∈ samples, t.IsLexical := by
  intro t mem
  rcases List.mem_append.1 mem with word | other
  · obtain ⟨text, listed, rfl⟩ := List.mem_map.1 word
    have words : ∀ text ∈ askedWords, isWordText text = true := by decide
    exact Token.isLexical_ofWord (words text listed)
  · simp only [List.mem_cons, List.not_mem_nil, or_false] at other
    rcases other with rfl | rfl | rfl | rfl | rfl
    · exact Token.isLexical_ofNumeral .one
    · exact trivial
    · show "=" ∈ ["<", ">", "<=", ">=", "=", ":"]
      decide
    · show ":" ∈ ["<", ">", "<=", ">=", "=", ":"]
      decide
    · rfl

theorem passable_of_samples {rule : Phrase}
    (passed : ∀ accepts ∈ tests rule, ∃ t ∈ samples, accepts t = true) :
    Passable Token.IsLexical rule := by
  intro accepts mem
  obtain ⟨t, listed, accepted⟩ := passed accepts mem
  exact ⟨t, isLexical_samples t listed, accepted⟩

theorem passable_lineRule : Passable Token.IsLexical lineRule :=
  passable_of_samples (by decide +kernel)

theorem passable_rule (name : Name) : Passable Token.IsLexical (book.rule name) := by
  apply passable_of_samples
  cases name <;> decide +kernel

end Tests

end Grammar

namespace Line

open Grammar Rule Phrase

variable {ts more : List Token} {number : Nat} {t : Token} {r : List Token}
  {accepts : Token → Bool} {phrase : Phrase}

theorem parse_of_starved (among : phrase ∈ commands ++ [labelRule]) (begins : Opens accepts phrase)
    (accepted : accepts t = true) (starved : advance (book.enter (book.depth [.start (t :: r)]))
      phrase [.start (t :: r)] = .error .exhausted) :
    parse (t :: r) number = .error (.tokenExpected number) := by
  have failed : book.read lineRule [.start (t :: r)] = .error .exhausted := by
    rw [Rulebook.read, advance_lineRule among begins rfl accepted, starved]
    rfl
  rw [parse, Rulebook.complete, Rulebook.best, failed]
  rfl

theorem parse_of_stuck {outs : Pool Token Node} {d : Candidate Token Node} {q : List Token}
    (read : book.read lineRule [.start ts] = .ok outs) (furthest : Pool.furthest? outs = some d)
    (next : d.rest = t :: q) (behind : ∀ first ∈ ts.head?, first.place.offset ≠ t.place.offset) :
    parse ts number = .error (.unexpectedToken t) := by
  have not_first : (ts.head?.any (·.place.offset == t.place.offset)) = false := by
    cases first : ts.head? with
    | none => rfl
    | some first' => simpa using behind first' first
  rw [parse.eq_def, book.complete_of_stuck read furthest next]
  dsimp only
  rw [blame, not_first]
  rfl

theorem first_elsewhere {p q : List Token} (some_before : p ≠ [])
    (ordered : (p ++ t :: q).Pairwise fun t u => t.place.offset < u.place.offset) :
    ∀ first ∈ (p ++ t :: q).head?, first.place.offset ≠ t.place.offset := by
  intro first at_head
  obtain ⟨s, p, rfl⟩ := List.exists_cons_of_ne_nil some_before
  obtain rfl : s = first := Option.some.inj at_head
  have before := (List.pairwise_cons.1 ordered).1 t (by simp)
  omega

section Jump

variable {outs : Pool Token Node} {p : List Token}

theorem exists_of_jump (lexical : ∀ t ∈ ts, t.IsLexical)
    (read : advance (book.enter (book.depth [.start ts])) jumpIfRule [.start ts] = .ok outs)
    (jump : p ∈ Sentence.jumping) (begins : p <+: ts) :
    ∃ d ∈ outs, (Candidate.start ts).Takes p d := by
  obtain ⟨q, whole⟩ := begins
  obtain ⟨d, leads, taken⟩ := (scans_jump _).complete (c := .start ts) lexical (Nat.le_refl _) jump
    whole.symm
  exact ⟨d, (advance_complete (book.enter_complete _) jumpIfRule).of_singleton read leads, taken⟩

theorem jump_of_mem (lexical : ∀ t ∈ ts, t.IsLexical)
    (read : advance (book.enter (book.depth [.start ts])) jumpIfRule [.start ts] = .ok outs)
    {d : Candidate Token Node} (found : d ∈ outs) :
    ∃ p ∈ Sentence.jumping, (Candidate.start ts).Takes p d := by
  have derived := (advance_sound (book.enter_sound _) jumpIfRule).of_singleton read found
  exact (scans_jump _).sound lexical (Nat.le_refl _) derived

theorem read_jump (lexical : ∀ t ∈ ts, t.IsLexical)
    (read : advance (book.enter (book.depth [.start ts])) jumpIfRule [.start ts] = .ok outs)
    (jump : p ∈ Sentence.jumping) (begins : p <+: ts) :
    book.read lineRule [.start ts] = .ok (outs ++ [.start ts]) := by
  obtain ⟨q, rfl⟩ := begins
  obtain ⟨t, r, shown, -, rfl⟩ := mem_singleWord_mul.1 jump
  have accepted := (Token.isLiteral_name (by decide) (lexical t List.mem_cons_self)).2 shown
  rw [Rulebook.read, advance_lineRule (by simp [commands]) fits_jumpIfRule.opens rfl accepted, read]
  rfl

theorem parse_of_goes (lexical : ∀ t ∈ ts, t.IsLexical)
    (ordered : ts.Pairwise fun t u => t.place.offset < u.place.offset)
    (goes : Goes (book.depth [.start ts]) jumpIfRule (.start ts))
    (begun : ∃ p ∈ Sentence.jumping, p <+: ts) (not_all : ts ∉ Sentence.jumping) (number : Nat) :
    ∃ t, Sentence.BehindJump ts t ∧ parse ts number = .error (.unexpectedToken t) := by
  obtain ⟨outs, read⟩ := goes
  obtain ⟨p₀, jump₀, begins₀⟩ := begun
  obtain ⟨d₀, mem₀, taken₀⟩ := exists_of_jump lexical read jump₀ begins₀
  have all_read := read_jump lexical read jump₀ begins₀
  have some_first {p : List Token} (jump : p ∈ Sentence.jumping) : p ≠ [] :=
    ne_of_mem_of_not_mem jump Sentence.nil_notMem_jumping
  cases furthest : Pool.furthest? (outs ++ [.start ts]) with
  | none => simp [Pool.furthest?_eq_none] at furthest
  | some d =>
    obtain ⟨among, most⟩ := Pool.furthest?_spec furthest
    have found : d ∈ outs := by
      rcases List.mem_append.1 among with found | last
      · exact found
      · obtain rfl := List.mem_singleton.1 last
        have farther := most d₀ (List.mem_append_left _ mem₀)
        have positive := List.length_pos_of_ne_nil (some_first jump₀)
        have index := taken₀.index
        omega
    obtain ⟨p, jump, taken⟩ := jump_of_mem lexical read found
    have split : ts = p ++ d.rest := taken.rest
    cases next : d.rest with
    | nil =>
      rw [next, List.append_nil] at split
      rw [← split] at jump
      exact absurd jump not_all
    | cons t q =>
      rw [next] at split
      refine ⟨t, ⟨p, q, split, jump, fun p' jump' begins => ?_⟩, ?_⟩
      · obtain ⟨d', mem', taken'⟩ := exists_of_jump lexical read jump' begins
        have farther := most d' (List.mem_append_left _ mem')
        have index := taken.index
        have index' := taken'.index
        exact List.prefix_of_prefix_length_le begins ⟨t :: q, split.symm⟩ (by omega)
      · refine parse_of_stuck all_read furthest next ?_
        rw [split] at ordered ⊢
        exact first_elsewhere (some_first jump) ordered

/-- A jump that ends too early asks for a token, or is overtaken. -/
theorem parse_of_jump (lexical : ∀ t ∈ ts, t.IsLexical)
    (ordered : ts.Pairwise fun t u => t.place.offset < u.place.offset) (some_left : ts ≠ [])
    (goes_on : more ≠ []) (word : ts ++ more ∈ Sentence.jumping)
    (refused : ts ∈ Sentence.line → ts ∈ Sentence.stumbling) (number : Nat) :
    (¬ Sentence.Overtaken ts → parse ts number = .error (.tokenExpected number)) ∧
    (Sentence.Overtaken ts →
      ∃ t, Sentence.BehindJump ts t ∧ parse ts number = .error (.unexpectedToken t)) := by
  have enough := length_rest_lt_depth ts
  constructor
  · intro not_overtaken
    obtain ⟨t, r, rfl⟩ := List.exists_cons_of_ne_nil some_left
    have shown := (Token.isLiteral_name (by decide) (lexical t List.mem_cons_self)).2
      (cons_mem_singleWord_mul.1 word).1
    have blameless : Blameless (advance _ jumpIfRule [.start (t :: r)]) :=
      blameless_jump lexical enough some_left goes_on word
    rcases blameless with starved | ⟨outs, some_found, read⟩
    · exact parse_of_starved (by simp [commands]) fits_jumpIfRule.opens shown starved
    · obtain ⟨d, found⟩ := List.exists_mem_of_ne_nil outs some_found
      obtain ⟨p, jump, taken⟩ := jump_of_mem lexical read found
      have turns : t :: r ∈ Sentence.turning := by
        by_contra no_turns
        exact not_overtaken ⟨⟨p, jump, d.rest, taken.rest.symm⟩, no_turns⟩
      exact absurd ⟨outs, read⟩ (not_goes_jumpIfRule (c := .start (t :: r)) lexical turns)
  · intro overtaken
    have goes := goes_of_overtaken lexical enough goes_on word overtaken
    exact parse_of_goes lexical ordered goes overtaken.1
      (Sentence.notMem_jumping refused overtaken.2) number

end Jump

theorem parse_of_cut {form : String × Language Token} (cut : Cut phrase form)
    (among : phrase ∈ commands) (lexical : ∀ t ∈ ts, t.IsLexical) (some_left : ts ≠ [])
    (word : ts ++ more ∈ Sentence.key form.1 * form.2)
    (unfinished : ts ∉ Sentence.key form.1 * form.2) (number : Nat) :
    parse ts number = .error (.tokenExpected number) := by
  have starved := cut.starves (c := .start ts) lexical (length_rest_lt_depth ts) some_left
    unfinished word
  obtain ⟨t, r, rfl⟩ := List.exists_cons_of_ne_nil some_left
  have accepted := (Token.isLiteral_name cut.name (lexical t List.mem_cons_self)).2
    (cons_mem_singleWord_mul.1 word).1
  exact parse_of_starved (List.mem_append_left _ among) cut.opens accepted starved

theorem parse_of_colon (lexical : ∀ t ∈ ts, t.IsLexical) (some_left : ts ≠ [])
    (word : ts ++ more ∈ Sentence.sign ":" * Sentence.word)
    (unfinished : ts ∉ Sentence.sign ":" * Sentence.word) (number : Nat) :
    parse ts number = .error (.tokenExpected number) := by
  have enough := length_rest_lt_depth ts
  have colon : ∀ t : Token, t.IsLexical →
      (t.isLiteral ":" = true ↔ t.kind = .operator ∧ t.value = ":") :=
    fun _ lexical => Token.isLiteral_sign (by decide) lexical
  have later : Starves [Phrase.word] Sentence.word := by
    have alone : Starves [Phrase.word] (Sentence.word * 1) := starves_word starves_nothing
    rwa [mul_one] at alone
  have starved : advance (book.enter (book.depth [.start ts]))
      (.sequence [keyword ":", Phrase.word]) [.start ts] = .error .exhausted :=
    sequence_starves (c := .start ts) colon later lexical (Nat.lt_succ_of_lt enough) some_left
      unfinished word
  obtain ⟨t, r, rfl⟩ := List.exists_cons_of_ne_nil some_left
  have accepted := (colon t (lexical t List.mem_cons_self)).2 (cons_mem_singleWord_mul.1 word).1
  exact parse_of_starved (List.mem_append_right _ List.mem_cons_self) (.build (.sequence .terminal))
    accepted (advance_build_of_error starved)

theorem parse_of_no_jump (some_left : ts ≠ [])
    (no_jump : ∀ t ∈ ts.head?, sameWord t.value "IF" = false)
    (refused : ts ∈ Sentence.line → ts ∈ Sentence.stumbling)
    (starved : ts ∉ Sentence.line → parse ts number = .error (.tokenExpected number)) :
    (¬ Sentence.Overtaken ts → parse ts number = .error (.tokenExpected number)) ∧
    (Sentence.Overtaken ts →
      ∃ t, Sentence.BehindJump ts t ∧ parse ts number = .error (.unexpectedToken t)) := by
  obtain ⟨t, r, rfl⟩ := List.exists_cons_of_ne_nil some_left
  have not_if (shown : sameWord t.value "IF" = true) : False := by
    rw [no_jump t rfl] at shown
    exact absurd shown (by decide)
  refine ⟨fun _ => starved fun whole => ?_, fun overtaken => ?_⟩
  · exact not_if (Sentence.shows_if (.inr (refused whole))).2
  · exact (not_if (Sentence.shows_if (.inl overtaken)).2).elim

theorem parse_unfinished (lexical : ∀ t ∈ ts, t.IsLexical)
    (ordered : ts.Pairwise fun t u => t.place.offset < u.place.offset) (goes_on : more ≠ [])
    (word : ts ++ more ∈ Sentence.line) (refused : ¬ ∃ line, parse ts number = .ok line) :
    (¬ Sentence.Overtaken ts → parse ts number = .error (.tokenExpected number)) ∧
    (Sentence.Overtaken ts →
      ∃ t, Sentence.BehindJump ts t ∧ parse ts number = .error (.unexpectedToken t)) := by
  have stumbles : ts ∈ Sentence.line → ts ∈ Sentence.stumbling := by
    intro whole
    by_contra clear
    exact refused ((exists_parse_iff lexical number).2 ⟨whole, clear⟩)
  have some_left : ts ≠ [] := by
    rintro rfl
    exact Sentence.nil_notMem_turning (Sentence.mem_turning_of_stumbling (stumbles (.inr rfl)))
  rcases (Language.mem_add _ _ _).1 word with word | nothing
  · rcases (Language.mem_add _ _ _).1 word with command | label
    · obtain ⟨l, mem, word⟩ := mem_sum.1 command
      obtain ⟨form, listed, rfl⟩ := List.mem_map.1 mem
      obtain ⟨phrase, among, cut | ⟨-, same⟩⟩ := exists_of_forall₂ commands_cut listed
      · refine parse_of_no_jump some_left (fun t first => ?_) stumbles fun no_line => ?_
        · obtain ⟨r, rfl⟩ := List.head?_eq_some_iff.1 first
          rw [sameWord_congr (cons_mem_singleWord_mul.1 word).1.2]
          exact cut.other
        · exact parse_of_cut cut among lexical some_left word
            (fun whole => no_line (.inl (.inl (mem_sum.2 ⟨_, mem, whole⟩)))) number
      · rw [same] at word
        exact parse_of_jump lexical ordered some_left goes_on word stumbles number
    · refine parse_of_no_jump some_left (fun t first => ?_) stumbles fun no_line => ?_
      · obtain ⟨r, rfl⟩ := List.head?_eq_some_iff.1 first
        rw [(cons_mem_singleWord_mul.1 label).1.2]
        decide
      · exact parse_of_colon lexical some_left label (fun whole => no_line (.inl (.inr whole)))
          number
  · have both : ts ++ more = [] := nothing
    exact absurd (List.append_eq_nil_iff.1 both).2 goes_on

/-- Whatever tokens make a line of those of a text, tokens that a text can have do so too. -/
theorem exists_lexical_end {line : Line} (lexical : ∀ t ∈ ts, t.IsLexical) (goes_on : more ≠ [])
    (whole : parse (ts ++ more) number = .ok line) :
    ∃ others, others ≠ [] ∧ ts ++ others ∈ Sentence.line := by
  obtain ⟨d, found, -⟩ := parse_eq_ok.1 whole
  obtain ⟨derived, done, -⟩ := book.complete_eq_ok found
  obtain ⟨w, v, taken, replaces, covers⟩ :=
    exists_replacement passable_rule builds_line passable_lineRule derived
  obtain rfl : ts ++ more = w := taken.all done
  obtain ⟨others, rfl, behind⟩ := replaces.exists_append lexical
  refine ⟨others, fun nothing => ?_, ?_⟩
  · have lengths := behind.length_eq
    rw [nothing] at lengths
    exact goes_on (List.length_eq_zero_iff.1 lengths)
  · let start : Candidate Token Node := .start (ts ++ others)
    obtain ⟨e, derived', taken'⟩ := covers (c := start) (List.append_nil _).symm
    obtain ⟨u, word, taken''⟩ :=
      (scans_lineRule _).sound (c := start) replaces.all_valid (Nat.le_refl _) derived'
    rwa [taken'.unique taken'']

end Line

/-- Whatever text they are read from, tokens that are no line, but would be with more behind them,
are refused because a token is expected. The exception is a line that begins with a whole jump and
is not just turns behind `ALIGNED`: there the token behind the longest such jump is blamed. -/
theorem unfinished_line_expects_token {text : String} {ts more : List Token} {number number' : Nat}
    {line : Line} (lexed : tokenize text = .ok ts) (goes_on : more ≠ [])
    (whole : Line.parse (ts ++ more) number' = .ok line)
    (refused : ¬ ∃ line, Line.parse ts number = .ok line) :
    (¬ Sentence.Overtaken ts → Line.parse ts number = .error (.tokenExpected number)) ∧
    (Sentence.Overtaken ts →
      ∃ t, Sentence.BehindJump ts t ∧ Line.parse ts number = .error (.unexpectedToken t)) := by
  have lexical := isLexical_of_tokenize lexed
  obtain ⟨others, some_more, word⟩ := Line.exists_lexical_end lexical goes_on whole
  exact Line.parse_unfinished lexical (Lexer.ascending_of_tokens .start lexed).2 some_more word
    refused

/-- A counter waits for its number. -/
theorem set_expects_number :
    let ts : List Token := [⟨.word, "SET", ⟨1, 1, 0⟩⟩, ⟨.word, "GOLD", ⟨1, 5, 4⟩⟩]
    tokenize "SET GOLD" = .ok ts ∧ Line.parse ts 1 = .error (.tokenExpected 1) := by
  intro ts
  have lexed : tokenize "SET GOLD" = .ok ts := by
    rw [tokenize_eq, show "SET GOLD".toList = ['S', 'E', 'T', ' ', 'G', 'O', 'L', 'D'] by simp]
    refine Lexer.tokens_of_read ⟨.word, ['S', 'E', 'T'], 2⟩ rfl rfl rfl ?_
    refine (Lexer.tokens_blank rfl _).trans ?_
    refine Lexer.tokens_of_read ⟨.word, ['G', 'O', 'L', 'D'], 3⟩ rfl rfl rfl ?_
    exact Lexer.tokens_nil ..
  have whole : Line.parse (ts ++ [⟨.number, "3", ⟨1, 10, 9⟩⟩]) 1 =
      .ok (.command (.set "gold" ⟨3, by decide⟩)) := rfl
  have stopped : ¬ ∃ line, Line.parse ts 1 = .ok line := by
    rintro ⟨line, read⟩
    have failed : Line.parse ts 1 = .error (.tokenExpected 1) := rfl
    rw [failed] at read
    cases read
  have not_overtaken : ¬ Sentence.Overtaken ts := by
    intro overtaken
    have shown := (Sentence.shows_if (.inl overtaken)).2
    exact absurd shown (by decide)
  exact ⟨lexed, (unfinished_line_expects_token lexed (List.cons_ne_nil _ []) whole stopped).1
    not_overtaken⟩

/-- The end of a jump is blamed where `n` could have been its label. -/
theorem jump_blamed_for_its_end :
    let ts : List Token := [⟨.word, "if", ⟨1, 1, 0⟩⟩, ⟨.word, "aligned", ⟨1, 4, 3⟩⟩,
      ⟨.word, "n", ⟨1, 12, 11⟩⟩, ⟨.word, "then", ⟨1, 14, 13⟩⟩]
    tokenize "if aligned n then" = .ok ts ∧
      (∃ line, Line.parse (ts ++ [⟨.word, "done", ⟨1, 19, 18⟩⟩]) 1 = .ok line) ∧
      Line.parse ts 1 = .error (.unexpectedToken ⟨.word, "then", ⟨1, 14, 13⟩⟩) := by
  intro ts
  have lexed : tokenize "if aligned n then" = .ok ts := by
    rw [tokenize_eq, show "if aligned n then".toList = ['i', 'f', ' ', 'a', 'l', 'i', 'g', 'n',
      'e', 'd', ' ', 'n', ' ', 't', 'h', 'e', 'n'] by simp]
    refine Lexer.tokens_of_read ⟨.word, ['i', 'f'], 1⟩ rfl rfl rfl ?_
    refine (Lexer.tokens_blank rfl _).trans ?_
    refine Lexer.tokens_of_read ⟨.word, ['a', 'l', 'i', 'g', 'n', 'e', 'd'], 6⟩ rfl rfl rfl ?_
    refine (Lexer.tokens_blank rfl _).trans ?_
    refine Lexer.tokens_of_read ⟨.word, ['n'], 0⟩ rfl rfl rfl ?_
    refine (Lexer.tokens_blank rfl _).trans ?_
    refine Lexer.tokens_of_read ⟨.word, ['t', 'h', 'e', 'n'], 3⟩ rfl rfl rfl ?_
    exact Lexer.tokens_nil ..
  have whole : Line.parse (ts ++ [⟨.word, "done", ⟨1, 19, 18⟩⟩]) 1 =
      .ok (.command (.jumpIf (.aligned (some ⟨.fixed .north, []⟩)) "done")) := by decide +kernel
  have refused : Line.parse ts 1 = .error (.unexpectedToken ⟨.word, "then", ⟨1, 14, 13⟩⟩) := by
    decide +kernel
  exact ⟨lexed, ⟨_, whole⟩, refused⟩

end ActorScript
