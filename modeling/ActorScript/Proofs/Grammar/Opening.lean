import ActorScript.Proofs.Command.Unambiguous
import ActorScript.Proofs.Grammar.Unfinished
import ActorScript.Proofs.Match.Blame

/-!
What the first token of a line decides. A line that begins as no command and no label does is
refused for that token, and a word that begins it is an unknown command. Any other line is committed
behind its first token, which is then never blamed.
-/
namespace ActorScript

section Upper

theorem toUpper_cases (c : Char) :
    c.toUpper = c ∧ (c.val.toNat < 97 ∨ 122 < c.val.toNat) ∨ 97 ≤ c.val.toNat ∧
      c.val.toNat ≤ 122 ∧ c.toUpper.val.toNat + 32 = c.val.toNat := by
  by_cases small : 'a'.val ≤ c.val ∧ c.val ≤ 'z'.val
  · right
    have moved : c.toUpper.val = c.val + ('A'.val - 'a'.val) := by
      delta Char.toUpper
      rw [dif_pos small]
    simp only [UInt32.le_iff_toNat_le] at small
    have first : 97 ≤ c.val.toNat := small.1
    have last : c.val.toNat ≤ 122 := small.2
    refine ⟨first, last, ?_⟩
    have down : ('A'.val - 'a'.val).toNat = 2 ^ 32 - 32 := rfl
    rw [moved, UInt32.toNat_add, down]
    omega
  · left
    constructor
    · delta Char.toUpper
      exact dif_neg small
    · simp only [UInt32.le_iff_toNat_le] at small
      have bounds : ¬ (97 ≤ c.val.toNat ∧ c.val.toNat ≤ 122) := small
      omega

theorem toUpper_toLower (c : Char) : c.toLower.toUpper = c.toUpper := by
  rcases toLower_cases c with same | ⟨first, last, moved⟩
  · rw [same]
  · apply Char.ext
    apply UInt32.toNat_inj.1
    rcases toUpper_cases c with ⟨kept, -⟩ | small
    · rcases toUpper_cases c.toLower with ⟨-, big⟩ | ⟨-, -, back⟩
      · omega
      · rw [kept]
        omega
    · omega

theorem toList_toUpper (s : String) : s.toUpper.toList = s.toList.map Char.toUpper :=
  String.toList_map

theorem toUpper_congr {a b : String} (same : sameWord a b = true) : a.toUpper = b.toUpper := by
  have upper (s : String) : s.toUpper.toList = (lowerCase s).toList.map Char.toUpper := by
    rw [toList_toUpper, toList_lowerCase, List.map_map]
    apply List.map_congr_left
    intro c _
    exact (toUpper_toLower c).symm
  rw [← String.toList_inj, upper, upper, sameWord_iff.1 same]

theorem Command.toUpper_keyword (c : Command) : c.keyword.toUpper = c.keyword := by
  have capitals : ∀ text ∈ Sentence.commandForms.map (·.1),
      text.toList.map Char.toUpper = text.toList := by decide
  rw [← String.toList_inj, toList_toUpper, capitals c.keyword c.keyword_mem]

end Upper

namespace Grammar

open Rule Phrase

variable {t u : Token} {r : List Token}

/-- A line can begin with this token, which is the keyword of a command or the colon of a label. -/
def BeginsLine (t : Token) : Prop :=
  (t.kind = .word ∧ ∃ c : Command, sameWord t.value c.keyword = true) ∨
    t.kind = .operator ∧ t.value = ":"

theorem exists_command {text : String} (listed : text ∈ Sentence.commandForms.map (·.1)) :
    ∃ c : Command, c.keyword = text := by
  have all : Sentence.commandForms.map (·.1) = ([.move default .one false, .attempt default none,
    .wait .one, .say "", .scroll [], .finish, .die, .jumpIf .adjacent "", .put default default,
    .send none "", .set "" .one, .give "" .one, .take "" .one none, .become default,
    .change default default, .char .one, .torch .one, .shoot default, .throwStar default,
    .walk default, .stand, .lock, .unlock, .restore "", .zap "",
    .play "" false] : List Command).map Command.keyword := rfl
  rw [all] at listed
  obtain ⟨c, -, keyword⟩ := List.mem_map.1 listed
  exact ⟨c, keyword⟩

theorem opened_iff (lexical : t.IsLexical) :
    (∃ opening ∈ lineOpenings, opening t = true) ↔ BeginsLine t := by
  have names : ∀ text ∈ Sentence.commandForms.map (·.1), kindOf? text = some .word := by decide
  constructor
  · rintro ⟨_, mem, accepted⟩
    obtain ⟨text, listed, rfl⟩ := List.mem_map.1 mem
    rcases List.mem_append.1 listed with keyword | colon
    · obtain ⟨word, shown⟩ := (Token.isLiteral_name (names text keyword) lexical).1 accepted
      obtain ⟨c, rfl⟩ := exists_command keyword
      exact .inl ⟨word, c, shown⟩
    · obtain rfl := List.mem_singleton.1 colon
      exact .inr ((Token.isLiteral_sign (by decide) lexical).1 accepted)
  · rintro (⟨word, c, shown⟩ | colon)
    · have listed := c.keyword_mem
      exact ⟨_, List.mem_map_of_mem (List.mem_append_left _ listed),
        (Token.isLiteral_name (names _ listed) lexical).2 ⟨word, shown⟩⟩
    · exact ⟨_, List.mem_map_of_mem (List.mem_append_right _ (List.mem_singleton_self _)),
        (Token.isLiteral_sign (by decide) lexical).2 colon⟩

theorem complete_of_closed (closed : ∀ opening ∈ lineOpenings, opening t = false) :
    book.complete lineRule (.start (t :: r)) = .error (.unexpected t) := by
  have read : book.read lineRule [.start (t :: r)] = .ok [.start (t :: r)] := by
    rw [Rulebook.read, lineRule_eq, advance, advanceEach_append,
      advanceEach_of_closed lines_open fun opening mem u next => ?_]
    · rfl
    · obtain rfl : t = u := Option.some.inj next
      exact closed opening mem
  exact book.complete_of_stuck read rfl rfl

/-- Behind a token that begins it, a line is refused for a later one, if for any. -/
theorem complete_of_opened (opened : ∃ opening ∈ lineOpenings, opening t = true)
    (failed : book.complete lineRule (.start (t :: r)) = .error (.unexpected u)) : u ∈ r := by
  obtain ⟨opening, mem, accepted⟩ := opened
  obtain ⟨phrase, among, opens⟩ := exists_of_forall₂ lines_open.flip mem
  have builds := builds_of_mem among
  have sound := book.enter_sound (book.depth [.start (t :: r)])
  rcases book.complete_eq_error failed with failed | ⟨outs, read, stuck⟩
  · rw [Rulebook.read, advance_lineRule among opens rfl accepted] at failed
    obtain ⟨c, given, left⟩ :=
      opens.blames_behind builds sound (book.enter_blames keepsPlace_of_name _)
        (bind_pure_eq_error.1 failed)
    obtain rfl := List.mem_singleton.1 given
    exact left
  · rw [Rulebook.read, advance_lineRule among opens rfl accepted] at read
    obtain ⟨found, phrase_read, joined⟩ := bind_eq_ok.1 read
    obtain rfl := Except.ok.inj joined
    obtain ⟨o, o_found⟩ := List.exists_mem_of_ne_nil found (opens.ne_nil rfl accepted phrase_read)
    obtain ⟨d, given, left⟩ := mem_of_nextTokenError stuck.symm
    obtain rfl := List.mem_singleton.1 given
    cases furthest : Pool.furthest? (found ++ [.start (t :: r)]) with
    | none => simp [Pool.furthest?_eq_none] at furthest
    | some d =>
      rw [furthest] at left
      have d_found := Pool.mem_of_furthest?_append o_found (by simp [Candidate.start]) furthest
      have derived := (advance_sound sound phrase).of_singleton phrase_read d_found
      exact (opens.rest_suffix builds derived).mem left

end Grammar

namespace Line

open Grammar

variable {ts r : List Token} {t u : Token} {number : Nat}

theorem parse_eq_error (lexical : ∀ t ∈ ts, t.IsLexical) {e : ParseError} :
    parse ts number = .error e ↔
      ∃ error, book.complete lineRule (.start ts) = .error error ∧ e = blame ts number error := by
  cases found : book.complete lineRule (.start ts) with
  | error error =>
    rw [parse.eq_def, found]
    simp [eq_comm]
  | ok c =>
    obtain ⟨derived, -, -⟩ := book.complete_eq_ok found
    obtain ⟨w, -, left⟩ := leaves_lineRule (.start ts) c lexical (Nat.le_refl _) derived
    obtain ⟨line, -, left⟩ := left rfl
    have read : parse ts number = .ok line :=
      parse_eq_ok.2 ⟨c, found, left.imp_right fun alone => ⟨[], alone⟩⟩
    simp [read]

theorem blame_first : blame (t :: r) number (.unexpected t) =
    if t.isWord then .unknownCommand t else .unexpectedToken t := by
  simp [blame]

theorem blame_later (ordered : (t :: r).Pairwise fun t u => t.place.offset < u.place.offset)
    (later : u ∈ r) : blame (t :: r) number (.unexpected u) = .unexpectedToken u := by
  have before := (List.pairwise_cons.1 ordered).1 u later
  have elsewhere : (t.place.offset == u.place.offset) = false := by
    rw [beq_eq_false_iff_ne]
    omega
  simp [blame, elsewhere]

theorem parse_of_no_beginning (lexical : ∀ u ∈ t :: r, u.IsLexical) (no_line : ¬ BeginsLine t) :
    parse (t :: r) number =
      .error (if t.isWord then .unknownCommand t else .unexpectedToken t) := by
  have closed : ∀ opening ∈ lineOpenings, opening t = false := by
    intro opening mem
    rw [Bool.eq_false_iff]
    intro accepted
    exact no_line ((opened_iff (lexical t List.mem_cons_self)).1 ⟨opening, mem, accepted⟩)
  exact (parse_eq_error lexical).2 ⟨_, complete_of_closed closed, blame_first.symm⟩

theorem parse_of_beginning (lexical : ∀ u ∈ t :: r, u.IsLexical)
    (ordered : (t :: r).Pairwise fun t u => t.place.offset < u.place.offset)
    (begins : BeginsLine t) {e : ParseError} (refused : parse (t :: r) number = .error e) :
    (∃ u ∈ r, e = .unexpectedToken u) ∨ e = .tokenExpected number := by
  obtain ⟨error, failed, rfl⟩ := (parse_eq_error lexical).1 refused
  cases error with
  | unexpected u =>
    have opened := (opened_iff (lexical t List.mem_cons_self)).2 begins
    have later := complete_of_opened opened failed
    exact .inl ⟨u, later, blame_later ordered later⟩
  | exhausted => exact .inr rfl
  | tooDeep => exact .inr rfl

section Errors

variable (lexical : ∀ u ∈ t :: r, u.IsLexical)
  (ordered : (t :: r).Pairwise fun t u => t.place.offset < u.place.offset)

include lexical

theorem unexpected_first (no_word : t.kind ≠ .word)
    (no_colon : ¬ (t.kind = .operator ∧ t.value = ":")) :
    parse (t :: r) number = .error (.unexpectedToken t) := by
  have no_line : ¬ BeginsLine t := by
    rintro (⟨word, -⟩ | colon)
    · exact no_word word
    · exact no_colon colon
  rw [parse_of_no_beginning lexical no_line, if_neg (by simp [Token.isWord, no_word])]

include ordered

theorem unknown_iff {word : Token} : parse (t :: r) number = .error (.unknownCommand word) ↔
    word = t ∧ t.kind = .word ∧ ∀ c : Command, sameWord t.value c.keyword = false := by
  constructor
  · intro unknown
    have no_line : ¬ BeginsLine t := by
      intro begins
      rcases parse_of_beginning lexical ordered begins unknown with ⟨u, -, same⟩ | same
      · cases same
      · cases same
    have refused := Except.error.inj (unknown.symm.trans (parse_of_no_beginning lexical no_line))
    split at refused
    · rename_i is_word
      obtain rfl := ParseError.unknownCommand.inj refused
      have kind : word.kind = .word := by simpa [Token.isWord] using is_word
      refine ⟨rfl, kind, fun c => ?_⟩
      rw [Bool.eq_false_iff]
      intro shown
      exact no_line (.inl ⟨kind, c, shown⟩)
    · cases refused
  · rintro ⟨rfl, kind, strange⟩
    have no_line : ¬ BeginsLine word := by
      rintro (⟨-, c, shown⟩ | ⟨operator, -⟩)
      · rw [strange c] at shown
        cases shown
      · rw [kind] at operator
        cases operator
    rw [parse_of_no_beginning lexical no_line, if_pos (by simp [Token.isWord, kind])]

theorem unexpected_later (opens : t.kind = .word ∨ t.kind = .operator ∧ t.value = ":")
    (blamed : parse (t :: r) number = .error (.unexpectedToken u)) : u ∈ r := by
  by_cases begins : BeginsLine t
  · rcases parse_of_beginning lexical ordered begins blamed with ⟨v, later, same⟩ | same
    · rwa [ParseError.unexpectedToken.inj same]
    · cases same
  · have refused := Except.error.inj (blamed.symm.trans (parse_of_no_beginning lexical begins))
    split at refused
    · cases refused
    · rename_i no_word
      rcases opens with word | colon
      · exact absurd word (by simpa [Token.isWord] using no_word)
      · exact absurd (.inr colon) begins

end Errors

theorem keyword_of_parse {c : Command} (lexical : ∀ u ∈ t :: r, u.IsLexical)
    (read : parse (t :: r) number = .ok (.command c)) : t.value.toUpper = c.keyword := by
  have spelled := mem_spellings_of_parse lexical read
  obtain ⟨⟨-, shown⟩, -⟩ := cons_mem_singleWord_mul.1 spelled
  rw [toUpper_congr shown, c.toUpper_keyword]

end Line

/-- A line is refused as an unknown command if its first token is a word that is the keyword of
none, and for its first token if that is neither a word nor a colon. What else is unexpected comes
later, and a line that is read as a command begins with its keyword. -/
theorem line_judged_by_first_token {text : String} {first : Token} {rest : List Token}
    (lexed : tokenize text = .ok (first :: rest)) (number : Nat) :
    (∀ word, Line.parse (first :: rest) number = .error (.unknownCommand word) ↔
      word = first ∧ first.kind = .word ∧ ∀ c : Command, sameWord first.value c.keyword = false) ∧
    (first.kind ≠ .word → ¬ (first.kind = .operator ∧ first.value = ":") →
      Line.parse (first :: rest) number = .error (.unexpectedToken first)) ∧
    (first.kind = .word ∨ first.kind = .operator ∧ first.value = ":" →
      ∀ t, Line.parse (first :: rest) number = .error (.unexpectedToken t) → t ∈ rest) ∧
    ∀ c, Line.parse (first :: rest) number = .ok (.command c) →
      first.value.toUpper = c.keyword := by
  have lexical := isLexical_of_tokenize lexed
  have ordered := (Lexer.ascending_of_tokens .start lexed).2
  refine ⟨fun word => ?_, fun no_word no_colon => ?_, fun opens t blamed => ?_, fun c read => ?_⟩
  · exact Line.unknown_iff lexical ordered
  · exact Line.unexpected_first lexical no_word no_colon
  · exact Line.unexpected_later lexical ordered opens blamed
  · exact Line.keyword_of_parse lexical read

/-- The known part of a line is not blamed for the unknown. -/
theorem sideways_is_blamed :
    let rest : List Token := [⟨.word, "blocked", ⟨1, 4, 3⟩⟩, ⟨.word, "sideways", ⟨1, 12, 11⟩⟩]
    let ts : List Token := ⟨.word, "if", ⟨1, 1, 0⟩⟩ :: rest
    tokenize "if blocked sideways" = .ok ts ∧
      (∃ t ∈ rest, Line.parse ts 1 = .error (.unexpectedToken t)) ∧
      ∃ c : Command, sameWord "if" c.keyword = true := by
  intro rest ts
  have lexed : tokenize "if blocked sideways" = .ok ts := by
    rw [tokenize_eq, show "if blocked sideways".toList = ['i', 'f', ' ', 'b', 'l', 'o', 'c', 'k',
      'e', 'd', ' ', 's', 'i', 'd', 'e', 'w', 'a', 'y', 's'] by simp]
    refine Lexer.tokens_of_read ⟨.word, ['i', 'f'], 1⟩ rfl rfl rfl ?_
    refine (Lexer.tokens_blank rfl _).trans ?_
    refine Lexer.tokens_of_read ⟨.word, ['b', 'l', 'o', 'c', 'k', 'e', 'd'], 6⟩ rfl rfl rfl ?_
    refine (Lexer.tokens_blank rfl _).trans ?_
    refine Lexer.tokens_of_read
      ⟨.word, ['s', 'i', 'd', 'e', 'w', 'a', 'y', 's'], 7⟩ rfl rfl rfl ?_
    exact Lexer.tokens_nil ..
  have refused : Line.parse ts 1 = .error (.unexpectedToken ⟨.word, "sideways", ⟨1, 12, 11⟩⟩) := by
    decide +kernel
  obtain ⟨unknown, -, later, -⟩ := line_judged_by_first_token lexed 1
  refine ⟨lexed, ⟨_, later (.inl rfl) _ refused, refused⟩, ?_⟩
  by_contra strange
  have also := (unknown _).2 ⟨rfl, rfl, fun c => by
    rw [Bool.eq_false_iff]
    intro shown
    exact strange ⟨c, shown⟩⟩
  rw [refused] at also
  cases also

end ActorScript
