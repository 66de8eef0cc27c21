import ActorScript.Proofs.Grammar.Opening
import ActorScript.Proofs.Grammar.Renaming

/-!
Lines that differ by blanks, comments and case alone. Their tokens are put in a common form, which
has the number of a token for its place, so that it tells what is blamed in both.
-/
namespace ActorScript

/-- The same token up to its place and, outside quotes, up to case. -/
def Token.Alike (t u : Token) : Prop :=
  t.kind = u.kind ∧
    if t.kind = .quoted then t.value = u.value else sameWord t.value u.value = true

/-- The same error, which names the token of the same number in each list if it names one. -/
inductive ParseError.Alike (ts us : List Token) : ParseError → ParseError → Prop where
  | unexpectedToken {i : Nat} {t u : Token} (here : ts[i]? = some t) (there : us[i]? = some u) :
      Alike ts us (.unexpectedToken t) (.unexpectedToken u)
  | tokenExpected {line : Nat} : Alike ts us (.tokenExpected line) (.tokenExpected line)
  | unknownCommand {i : Nat} {t u : Token} (here : ts[i]? = some t) (there : us[i]? = some u) :
      Alike ts us (.unknownCommand t) (.unknownCommand u)

namespace Token

variable {t u : Token} {ts us : List Token}

theorem lowerCase_digits {s : String} (digits : ∀ c ∈ s.toList, c.isDigit = true) :
    lowerCase s = s := by
  rw [← String.toList_inj, toList_lowerCase]
  exact (List.map_congr_left fun c mem => toLower_of_isDigit (digits c mem)).trans
    (List.map_id s.toList)

theorem Alike.plain_eq (alike : t.Alike u) (lexical : t.IsLexical) (lexical' : u.IsLexical) :
    t.plain = u.plain := by
  obtain ⟨kind, value⟩ := alike
  suffices same : (if t.kind = .word then lowerCase t.value else t.value) =
      if u.kind = .word then lowerCase u.value else u.value by
    rw [plain, plain, same, kind]
  rw [← kind]
  rw [IsLexical] at lexical
  rw [IsLexical, ← kind] at lexical'
  cases same : t.kind with
  | word =>
    rw [same] at value
    exact sameWord_iff.1 value
  | number =>
    rw [same] at value lexical lexical'
    obtain ⟨c, cs, spelled, digits, -⟩ := lexical
    obtain ⟨d, ds, spelled', digits', -⟩ := lexical'
    have lower := sameWord_iff.1 value
    rwa [lowerCase_digits (by rwa [spelled]), lowerCase_digits (by rwa [spelled'])] at lower
  | quoted =>
    rw [same] at value
    exact value
  | operator =>
    rw [same] at value lexical lexical'
    have apart : ∀ a ∈ ["<", ">", "<=", ">=", "=", ":"], ∀ b ∈ ["<", ">", "<=", ">=", "=", ":"],
        sameWord a b = true → a = b := by decide
    exact apart _ lexical _ lexical' value
  | punctuation =>
    rw [same] at lexical lexical'
    exact lexical.trans lexical'.symm
  | newline =>
    rw [same] at lexical lexical'
    exact lexical.trans lexical'.symm
  | comment =>
    rw [same] at lexical
    exact lexical.elim

/-- The token in its common form, with its number among others for its place. -/
def numbered (ts : List Token) (t : Token) : Token := { t.plain with place := ⟨1, 1, ts.idxOf t⟩ }

theorem faithful_numbered (ts : List Token) : Faithful (numbered ts) where
  kind := faithful_plain.kind
  word := faithful_plain.word
  value := faithful_plain.value

theorem nodup_of_ordered (ordered : ts.Pairwise fun t u => t.place.offset < u.place.offset) :
    ts.Nodup := by
  refine ordered.imp fun {t u} before same => ?_
  rw [same] at before
  exact absurd before (Nat.lt_irrefl _)

theorem map_numbered (alike : List.Forall₂ Alike ts us) (lexical : ∀ t ∈ ts, t.IsLexical)
    (lexical' : ∀ u ∈ us, u.IsLexical) (distinct : ts.Nodup) (distinct' : us.Nodup) :
    ts.map (numbered ts) = us.map (numbered us) := by
  obtain ⟨length, each⟩ := List.forall₂_iff_get.1 alike
  apply List.ext_getElem
  · rw [List.length_map, List.length_map, length]
  · intro i here there
    rw [List.length_map] at here there
    have same := (each i here there).plain_eq (lexical _ (List.get_mem ts _))
      (lexical' _ (List.get_mem us _))
    rw [List.get_eq_getElem, List.get_eq_getElem] at same
    rw [List.getElem_map, List.getElem_map, numbered, numbered, same, distinct.idxOf_getElem,
      distinct'.idxOf_getElem]

end Token

namespace Line

open Grammar

variable {ts us : List Token} {number : Nat}

theorem blame_here {i : Nat} {t : Token}
    (ordered : ts.Pairwise fun t u => t.place.offset < u.place.offset) (here : ts[i]? = some t) :
    blame ts number (.unexpected t) =
      if i = 0 ∧ t.isWord then .unknownCommand t else .unexpectedToken t := by
  cases ts with
  | nil => simp at here
  | cons first rest =>
    cases i with
    | zero =>
      obtain rfl := Option.some.inj here
      simp [blame_first]
    | succ i =>
      have later : t ∈ rest := List.mem_of_getElem? here
      simp [blame_later ordered later]

theorem complete_numbered {e : MatchError Token} (lexical : ∀ t ∈ ts, t.IsLexical)
    (failed : book.complete lineRule (.start ts) = .error e) :
    book.complete lineRule (.start (ts.map (Token.numbered ts))) =
      .error (e.rename (Token.numbered ts)) := by
  have faithful := Token.faithful_numbered ts
  have renamed := book.complete_rename (unaware_rule faithful) (unaware_lineRule faithful)
    (.start ts) lexical
  rw [failed] at renamed
  exact renamed

theorem blame_alike {e e' : MatchError Token}
    (ordered : ts.Pairwise fun t u => t.place.offset < u.place.offset)
    (ordered' : us.Pairwise fun t u => t.place.offset < u.place.offset)
    (failed : book.complete lineRule (.start ts) = .error e)
    (failed' : book.complete lineRule (.start us) = .error e')
    (same : e.rename (Token.numbered ts) = e'.rename (Token.numbered us)) :
    ParseError.Alike ts us (blame ts number e) (blame us number e') := by
  cases e with
  | unexpected t =>
    cases e' with
    | unexpected u =>
      have form : Token.numbered ts t = Token.numbered us u := MatchError.unexpected.inj same
      have place : ts.idxOf t = us.idxOf u := congrArg (·.place.offset) form
      have kind : t.kind = u.kind := congrArg (·.kind) form
      have here : ts[ts.idxOf t]? = some t :=
        List.getElem?_idxOf (book.mem_of_complete builds_line failed)
      have there : us[us.idxOf u]? = some u :=
        List.getElem?_idxOf (book.mem_of_complete builds_line failed')
      rw [← place] at there
      have bare : u.isWord = t.isWord := by rw [Token.isWord, Token.isWord, kind]
      rw [blame_here ordered here, blame_here ordered' there, bare]
      split
      · exact .unknownCommand here there
      · exact .unexpectedToken here there
    | exhausted => cases same
    | tooDeep => cases same
  | exhausted | tooDeep =>
    cases e' with
    | unexpected u => cases same
    | exhausted | tooDeep => exact .tokenExpected

theorem parse_alike (lexical : ∀ t ∈ ts, t.IsLexical) (lexical' : ∀ u ∈ us, u.IsLexical)
    (ordered : ts.Pairwise fun t u => t.place.offset < u.place.offset)
    (ordered' : us.Pairwise fun t u => t.place.offset < u.place.offset)
    (alike : List.Forall₂ Token.Alike ts us) (number : Nat) :
    (∃ line, parse ts number = .ok line ∧ parse us number = .ok line) ∨
      ∃ e e', parse ts number = .error e ∧ parse us number = .error e' ∧
        ParseError.Alike ts us e e' := by
  have form := Token.map_numbered alike lexical lexical' (Token.nodup_of_ordered ordered)
    (Token.nodup_of_ordered ordered')
  have same_line (line : Line) : parse ts number = .ok line ↔ parse us number = .ok line := by
    rw [← parse_map_eq_ok (Token.faithful_numbered ts) lexical number number, form,
      parse_map_eq_ok (Token.faithful_numbered us) lexical' number number]
  cases read : parse ts number with
  | ok line => exact .inl ⟨line, rfl, (same_line line).1 read⟩
  | error e =>
    cases read' : parse us number with
    | ok line =>
      rw [(same_line line).2 read'] at read
      cases read
    | error e' =>
      obtain ⟨error, failed, rfl⟩ := (parse_eq_error lexical).1 read
      obtain ⟨error', failed', rfl⟩ := (parse_eq_error lexical').1 read'
      have renamed := complete_numbered lexical failed
      rw [form] at renamed
      have same := Except.error.inj (renamed.symm.trans (complete_numbered lexical' failed'))
      exact .inr ⟨_, _, rfl, rfl, blame_alike ordered ordered' failed failed' same⟩

end Line

/-- Two texts with the same tokens, up to place and outside quotes up to case, are the same line, or
are refused alike. -/
theorem alike_texts_read_alike {text text' : String} {ts us : List Token}
    (lexed : tokenize text = .ok ts) (lexed' : tokenize text' = .ok us)
    (alike : List.Forall₂ Token.Alike ts us) :
    (∃ line, Line.ofText text = .ok line ∧ Line.ofText text' = .ok line) ∨
      ∃ e e', Line.ofText text = .error (.grammatical e) ∧
        Line.ofText text' = .error (.grammatical e') ∧ ParseError.Alike ts us e e' := by
  have ordered := (Lexer.ascending_of_tokens .start lexed).2
  have ordered' := (Lexer.ascending_of_tokens .start lexed').2
  rcases Line.parse_alike (isLexical_of_tokenize lexed) (isLexical_of_tokenize lexed') ordered
    ordered' alike 1 with ⟨line, read, read'⟩ | ⟨e, e', refused, refused', same⟩
  · exact .inl ⟨line, Line.ofText_iff.2 ⟨ts, lexed, read⟩, Line.ofText_iff.2 ⟨us, lexed', read'⟩⟩
  · refine .inr ⟨e, e', ?_, ?_, same⟩
    · simp [Line.ofText, lexed, refused]
    · simp [Line.ofText, lexed', refused']

/-- The number that is too many is blamed wherever it stands. -/
theorem second_number_is_blamed :
    let ts : List Token := [⟨.word, "GIVE", ⟨1, 1, 0⟩⟩, ⟨.word, "Gold", ⟨1, 6, 5⟩⟩,
      ⟨.number, "3", ⟨1, 11, 10⟩⟩, ⟨.number, "4", ⟨1, 13, 12⟩⟩]
    let us : List Token := [⟨.word, "give", ⟨1, 2, 1⟩⟩, ⟨.word, "gold", ⟨1, 7, 6⟩⟩,
      ⟨.number, "3", ⟨1, 12, 11⟩⟩, ⟨.number, "4", ⟨1, 15, 14⟩⟩]
    tokenize "GIVE\tGold 3 4" = .ok ts ∧ tokenize " give gold 3  4" = .ok us ∧
      List.Forall₂ Token.Alike ts us ∧
      ∃ e e', Line.ofText "GIVE\tGold 3 4" = .error (.grammatical e) ∧
        Line.ofText " give gold 3  4" = .error (.grammatical e') ∧
          ParseError.Alike ts us e e' := by
  intro ts us
  have lexed : tokenize "GIVE\tGold 3 4" = .ok ts := by
    rw [tokenize_eq, show "GIVE\tGold 3 4".toList =
      ['G', 'I', 'V', 'E', '\t', 'G', 'o', 'l', 'd', ' ', '3', ' ', '4'] by simp]
    refine Lexer.tokens_of_read ⟨.word, ['G', 'I', 'V', 'E'], 3⟩ rfl rfl rfl ?_
    refine (Lexer.tokens_blank rfl _).trans ?_
    refine Lexer.tokens_of_read ⟨.word, ['G', 'o', 'l', 'd'], 3⟩ rfl rfl rfl ?_
    refine (Lexer.tokens_blank rfl _).trans ?_
    refine Lexer.tokens_of_read ⟨.number, ['3'], 0⟩ rfl rfl rfl ?_
    refine (Lexer.tokens_blank rfl _).trans ?_
    refine Lexer.tokens_of_read ⟨.number, ['4'], 0⟩ rfl rfl rfl ?_
    exact Lexer.tokens_nil ..
  have lexed' : tokenize " give gold 3  4" = .ok us := by
    rw [tokenize_eq, show " give gold 3  4".toList =
      [' ', 'g', 'i', 'v', 'e', ' ', 'g', 'o', 'l', 'd', ' ', '3', ' ', ' ', '4'] by simp]
    refine (Lexer.tokens_blank rfl _).trans ?_
    refine Lexer.tokens_of_read ⟨.word, ['g', 'i', 'v', 'e'], 3⟩ rfl rfl rfl ?_
    refine (Lexer.tokens_blank rfl _).trans ?_
    refine Lexer.tokens_of_read ⟨.word, ['g', 'o', 'l', 'd'], 3⟩ rfl rfl rfl ?_
    refine (Lexer.tokens_blank rfl _).trans ?_
    refine Lexer.tokens_of_read ⟨.number, ['3'], 0⟩ rfl rfl rfl ?_
    refine (Lexer.tokens_blank rfl _).trans ?_
    refine (Lexer.tokens_blank rfl _).trans ?_
    refine Lexer.tokens_of_read ⟨.number, ['4'], 0⟩ rfl rfl rfl ?_
    exact Lexer.tokens_nil ..
  have alike : List.Forall₂ Token.Alike ts us :=
    .cons ⟨rfl, rfl⟩ (.cons ⟨rfl, rfl⟩ (.cons ⟨rfl, rfl⟩ (.cons ⟨rfl, rfl⟩ .nil)))
  refine ⟨lexed, lexed', alike, ?_⟩
  have refused : Line.parse ts 1 = .error (.unexpectedToken ⟨.number, "4", ⟨1, 13, 12⟩⟩) := rfl
  rcases alike_texts_read_alike lexed lexed' alike with ⟨line, read, -⟩ | blamed
  · obtain ⟨ts', lexed'', parsed⟩ := Line.ofText_iff.1 read
    obtain rfl := Except.ok.inj (lexed.symm.trans lexed'')
    rw [refused] at parsed
    cases parsed
  · exact blamed

end ActorScript
