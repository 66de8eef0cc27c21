import ActorScript.Proofs.Command.Unambiguous
import ActorScript.Proofs.Grammar.Acceptance
import ActorScript.Proofs.Grammar.Renaming
import ActorScript.Proofs.Token.Writing

/-!
Sources are read again. A line that is read as a command can be written as the source of the
command, and that is read as the same command.
-/
namespace ActorScript

open Computability Sentence Token

section Yields

variable {spell : Aim → String} {text : String} {ts : List Token}

theorem yields_ofWord (lexical : ∀ t ∈ ofWord text :: ts, t.IsLexical) :
    Yields text [ofWord text] :=
  yields_written (lexical _ List.mem_cons_self)

theorem yields_ofNumeral (n : Numeral) : Yields n.render [ofNumeral n] :=
  yields_written (isLexical_ofNumeral n)

theorem yields_ofQuoted (text : String) : Yields (quote text) [ofQuoted text] :=
  yields_written (t := ofQuoted text) trivial

theorem yields_ofComparison (c : Comparison) : Yields c.sign [ofComparison c] :=
  yields_written ((written_comparison c).lexical _ List.mem_cons_self)

theorem Yields.alone (yields : Yields text ts) : YieldAll [text] ts := by
  rw [← List.append_nil ts]
  exact .cons yields .nil

theorem yield_perhaps {text : Option String}
    (lexical : ∀ t ∈ perhapsTokens nameTokens text, t.IsLexical) :
    YieldAll text.toList (perhapsTokens nameTokens text) := by
  cases text with
  | none => exact .nil
  | some text => exact (yields_ofWord lexical).alone

theorem yield_flag (word : isWordText text = true) (isSet : Bool) :
    YieldAll (if isSet then [text] else []) (flagTokens text isSet) := by
  cases isSet with
  | false => exact .nil
  | true => exact (yields_ofWord (written_key word).lexical).alone

theorem yields_series (lines : List String) :
    Yields (String.intercalate ", " (lines.map quote)) (seriesTokens lines) := by
  induction lines with
  | nil => exact yields_nothing
  | cons line lines ih =>
    cases lines with
    | nil => exact yields_ofQuoted line
    | cons next lines =>
      have joined : String.intercalate ", " ((line :: next :: lines).map quote) =
          quote line ++ ", " ++ String.intercalate ", " ((next :: lines).map quote) := by
        rw [← String.toList_inj]
        simp
      rw [joined]
      exact ih.after_comma line

theorem yields_tile {tile : Tile} (lexical : ∀ t ∈ tile.tokens, t.IsLexical) :
    Yields tile.render tile.tokens := by
  obtain ⟨color, thing⟩ := tile
  obtain ⟨colored, named⟩ := List.forall_mem_append.1 lexical
  cases color with
  | none => exact yields_ofWord named
  | some color => exact (yields_ofWord colored).blank (yields_ofWord named)

theorem yields_heading {h : Heading} (lexical : ∀ t ∈ h.tokens spell, t.IsLexical) :
    Yields (h.source spell) (h.tokens spell) := by
  obtain ⟨aim, turns⟩ := h
  apply yields_words
  induction turns with
  | nil => exact (yields_ofWord lexical).alone
  | cons turn turns ih =>
    have others := ih (List.forall_mem_cons.1 lexical).2
    show YieldAll (turn.keyword :: _) ([ofWord turn.keyword] ++ Heading.tokens spell ⟨aim, turns⟩)
    exact .cons (yields_ofWord lexical) others

theorem yields_condition {q : Condition} (lexical : ∀ t ∈ q.tokens spell, t.IsLexical) :
    Yields (q.source spell) (q.tokens spell) := by
  have keyed {text : String} {ts : List Token} (word : isWordText text = true)
      {texts : List String} (yield : YieldAll texts ts) :
      Yields (sourceWords (text :: texts)) (ofWord text :: ts) :=
    yields_words (.cons (yields_ofWord (written_key word).lexical) yield)
  induction q with
  | not inner ih =>
    exact keyed (by decide) (ih (List.forall_mem_cons.1 lexical).2).alone
  | adjacent => exact yields_ofWord lexical
  | blocked heading =>
    exact keyed (by decide) (yields_heading (List.forall_mem_cons.1 lexical).2).alone
  | aligned heading =>
    cases heading with
    | none => exact yields_ofWord lexical
    | some heading =>
      exact keyed (by decide) (yields_heading (List.forall_mem_cons.1 lexical).2).alone
  | peep radius => exact keyed (by decide) (yields_ofNumeral radius).alone
  | present tile count =>
    have named := (List.forall_mem_append.1 (List.forall_mem_cons.1 lexical).2).1
    exact keyed (by decide) (.cons (yields_tile named) (yields_ofNumeral count).alone)
  | testing counter comparison value =>
    have named := (List.forall_mem_cons.1 lexical).2
    exact keyed (by decide) (.cons (yields_ofWord named)
      (.cons (yields_ofComparison comparison) (yields_ofNumeral value).alone))

theorem yield_operands {c : Command} (lexical : ∀ t ∈ c.operandTokens spell, t.IsLexical) :
    YieldAll (c.operands spell) (c.operandTokens spell) := by
  cases c with
  | move heading count forceful =>
    obtain ⟨headed, -⟩ := List.forall_mem_append.1 lexical
    exact .cons (yields_heading headed)
      (.cons (yields_ofNumeral count) (yield_flag (by decide) forceful))
  | attempt heading otherwise =>
    obtain ⟨headed, jump⟩ := List.forall_mem_append.1 lexical
    exact .cons (yields_heading headed) (yield_perhaps jump)
  | wait ticks => exact (yields_ofNumeral ticks).alone
  | say text => exact (yields_ofQuoted text).alone
  | scroll lines => exact (yields_series lines).alone
  | jumpIf q label =>
    obtain ⟨asked, jump⟩ := List.forall_mem_append.1 lexical
    have named := (List.forall_mem_cons.1 jump).2
    exact .cons (yields_condition asked)
      (.cons (yields_ofWord jump) (yields_ofWord named).alone)
  | put heading tile =>
    obtain ⟨headed, tiled⟩ := List.forall_mem_append.1 lexical
    exact .cons (yields_heading headed) (yields_tile tiled).alone
  | send recipient message =>
    obtain ⟨addressed, named⟩ := List.forall_mem_append.1 lexical
    exact (yield_perhaps addressed).append (yields_ofWord named).alone
  | set counter value =>
    exact .cons (yields_ofWord lexical) (yields_ofNumeral value).alone
  | give counter amount =>
    exact .cons (yields_ofWord lexical) (yields_ofNumeral amount).alone
  | take counter amount otherwise =>
    obtain ⟨named, jump⟩ := List.forall_mem_append.1 lexical
    obtain ⟨-, jump⟩ := List.forall_mem_append.1 jump
    exact .cons (yields_ofWord named)
      (.cons (yields_ofNumeral amount) (yield_perhaps jump))
  | become tile => exact (yields_tile lexical).alone
  | change source target =>
    obtain ⟨tiled, tiled'⟩ := List.forall_mem_append.1 lexical
    exact .cons (yields_tile tiled) (yields_tile tiled').alone
  | char code => exact (yields_ofNumeral code).alone
  | torch radius => exact (yields_ofNumeral radius).alone
  | shoot heading => exact (yields_heading lexical).alone
  | throwStar heading => exact (yields_heading lexical).alone
  | walk heading => exact (yields_heading lexical).alone
  | restore label => exact (yields_ofWord lexical).alone
  | zap label => exact (yields_ofWord lexical).alone
  | play tune exclusive =>
    exact .cons (yields_ofQuoted tune) (yield_flag (by decide) exclusive)
  | finish => exact .nil
  | die => exact .nil
  | stand => exact .nil
  | lock => exact .nil
  | unlock => exact .nil

theorem yields_source {c : Command} (lexical : ∀ t ∈ c.tokens spell, t.IsLexical) :
    Yields (c.source spell) (c.tokens spell) := by
  have behind := (List.forall_mem_cons.1 lexical).2
  exact yields_words (.cons (yields_ofWord lexical) (yield_operands behind))

end Yields

section Stumbling

theorem mem_stumbling {w : List Token} (stumbles : w ∈ stumbling) :
    (∃ t r, w = t :: r ∧ sameWord t.value "IF" = true) ∧
      ∃ v a t, w = v ++ [a, t] ∧ sameWord a.value "ALIGNED" = true := by
  rw [stumbling, mul_assoc, mul_assoc] at stumbles
  obtain ⟨k, _, ⟨-, jump⟩, others, rfl⟩ := mem_singleWord_mul.1 stumbles
  refine ⟨⟨k, _, rfl, jump⟩, ?_⟩
  obtain ⟨nots, -, _, ends, rfl⟩ := Language.mem_mul.1 others
  obtain ⟨a, _, ⟨-, aligned⟩, ⟨t, -, rfl⟩, rfl⟩ := mem_singleWord_mul.1 ends
  exact ⟨k :: nots, a, t, rfl, aligned⟩

theorem source_does_not_stumble (spell : Aim → String) (c : Command) :
    c.tokens spell ∉ stumbling := by
  intro stumbles
  obtain ⟨⟨k, r, first, jump⟩, v, a, t, last, aligned⟩ := mem_stumbling stumbles
  obtain ⟨rfl, -⟩ := List.cons.inj first
  rw [value_ofWord] at jump
  have keyword : "IF" = c.keyword := keywords_apart _ c.keyword_mem _ (by decide) jump
  cases c with
  | jumpIf q label =>
    have ends : ofWord "IF" :: q.tokens spell ++ [ofWord "THEN", ofWord label] = v ++ [a, t] := last
    obtain ⟨-, same⟩ := List.append_inj' ends rfl
    obtain ⟨rfl, -⟩ := List.cons.inj same
    exact absurd aligned (by decide)
  | _ => exact absurd keyword (of_decide_eq_false rfl)

end Stumbling

section Change

variable {t : Token} {w : List Token}

theorem map_plain {ts us : List Token} (same : us.map Token.spelling = ts.map Token.spelling) :
    us.map plain = ts.map plain := by
  have of_spelling : plain = (fun said : Kind × String =>
      ⟨said.1, if said.1 = .word then lowerCase said.2 else said.2, .start⟩) ∘ Token.spelling := rfl
  rw [of_spelling, ← List.map_map, same, List.map_map]

theorem plain_ofWord {text : String} (word : t.kind = .word) (same : sameWord t.value text = true) :
    t.plain = (ofWord text).plain := by
  rw [plain, plain, word, sameWord_iff.1 same]
  rfl

theorem plain_name {text : String} (word : w ∈ name text) :
    w.map plain = (nameTokens text).map plain := by
  obtain ⟨t, ⟨bare, rfl⟩, rfl⟩ := word
  have same : sameWord t.value (Grammar.nameOf t) = true :=
    sameWord_iff.2 (lowerCase_lowerCase t.value).symm
  exact congrArg (fun u => [u]) (plain_ofWord bare same)

theorem plain_tile {tile : Tile} (word : w ∈ tile.spellings) :
    w.map plain = tile.tokens.map plain := by
  obtain ⟨color, thing⟩ := tile
  obtain ⟨v, colored, u, named, rfl⟩ := Language.mem_mul.1 word
  rw [Tile.tokens, List.map_append, List.map_append, plain_name named]
  cases color with
  | none =>
    obtain rfl : v = [] := colored
    rfl
  | some color =>
    obtain ⟨t, ⟨bare, known⟩, rfl⟩ := colored
    have same : sameWord t.value color.render = true := by
      have known := Color.sameWord_of_named known
      rw [sameWord_iff] at known ⊢
      rw [known, Color.render, lowerCase_lowerCase]
    exact congrArg (fun u => u :: _) (plain_ofWord bare same)

theorem plain_change {spell : Aim → String} {source target : Tile}
    (word : w ∈ (Command.change source target).spellings) :
    w.map plain = ((Command.change source target).tokens spell).map plain := by
  obtain ⟨k, _, ⟨bare, keyed⟩, others, rfl⟩ := mem_singleWord_mul.1 word
  obtain ⟨u, first, v, second, rfl⟩ := Language.mem_mul.1 others
  have tiles : (u ++ v).map plain = (source.tokens ++ target.tokens).map plain := by
    rw [List.map_append, List.map_append, plain_tile first, plain_tile second]
  rw [List.map_cons, tiles, plain_ofWord bare keyed]
  rfl

end Change

section Again

variable {spell : Aim → String} (listed : ∀ aim, (spell aim, aim) ∈ Aim.words)

include listed

theorem parse_tokens {c : Command} (writable : Writable c.spellings)
    (no_change : c.keyword ≠ "CHANGE") (number : Nat) :
    Line.parse (c.tokens spell) number = .ok (.command c) := by
  obtain ⟨spelled, lexical⟩ := written_command listed writable
  obtain ⟨line, read⟩ := (Line.exists_parse_iff lexical number).2
    ⟨spellings_le_line c spelled, source_does_not_stumble spell c⟩
  -- Some line is read, and the same tokens spell it.
  have spelled' := Line.mem_spellings_of_parse lexical read
  cases line with
  | command c' =>
    obtain rfl := settled_source listed writable no_change spelled'
    exact read
  | label text =>
    obtain ⟨⟨operator, -⟩, -⟩ := cons_mem_singleWord_mul.1 spelled'
    exact absurd operator (by simp [ofWord])
  | blank => exact absurd spelled' (List.cons_ne_nil _ _)

theorem parse_source {c : Command} {ts : List Token} (lexical : ∀ t ∈ ts, t.IsLexical)
    {number : Nat} (read : Line.parse ts number = .ok (.command c)) (number' : Nat) :
    Line.parse (c.tokens spell) number' = .ok (.command c) := by
  have spelled := Line.mem_spellings_of_parse lexical read
  have writable : Writable c.spellings := ⟨ts, spelled, lexical⟩
  by_cases change : c.keyword = "CHANGE"
  · cases c with
    | change source target =>
      -- Here the tokens do not settle the command, but they are the ones that were read before.
      have lexical' := (written_command listed writable).lexical
      exact (Line.parse_congr lexical lexical' (plain_change spelled) number number' _).1 read
    | _ => exact absurd change (of_decide_eq_false rfl)
  · exact parse_tokens listed writable change number'

end Again

/-- The source of a command that was read from a text is read as the same command, whichever of
their words its aims are written with. -/
theorem source_read_again {text : String} {c : Command} {spell : Aim → String}
    (listed : ∀ aim, (spell aim, aim) ∈ Aim.words) (read : Line.ofText text = .ok (.command c)) :
    Line.ofText (c.source spell) = .ok (.command c) := by
  obtain ⟨ts, lexed, parsed⟩ := Line.ofText_iff.1 read
  have lexical := isLexical_of_tokenize lexed
  have spelled := Line.mem_spellings_of_parse lexical parsed
  have lexical' := (written_command listed ⟨ts, spelled, lexical⟩).lexical
  obtain ⟨us, lexed', same⟩ := tokenize_of_yields (yields_source lexical')
  have again := parse_source listed lexical parsed 1
  have congr := Line.parse_congr (isLexical_of_tokenize lexed') lexical' (map_plain same) 1 1
  exact Line.ofText_iff.2 ⟨us, lexed', (congr _).2 again⟩

/-- The source has both words of the heading in front of a `THEN` that the text was without. -/
theorem jump_read_again :
    let c : Command := .jumpIf (.blocked ⟨.fixed .north, [.clockwise]⟩) "touch"
    c.source Aim.keyword = "IF BLOCKED CW NORTH THEN touch" ∧
      Line.ofText "if blocked cw n touch" = .ok (.command c) ∧
        Line.ofText (c.source Aim.keyword) = .ok (.command c) := by
  intro c
  have lexed : tokenize "if blocked cw n touch" = .ok [⟨.word, "if", ⟨1, 1, 0⟩⟩,
      ⟨.word, "blocked", ⟨1, 4, 3⟩⟩, ⟨.word, "cw", ⟨1, 12, 11⟩⟩, ⟨.word, "n", ⟨1, 15, 14⟩⟩,
      ⟨.word, "touch", ⟨1, 17, 16⟩⟩] := by
    rw [tokenize_eq, show "if blocked cw n touch".toList =
      ['i', 'f', ' ', 'b', 'l', 'o', 'c', 'k', 'e', 'd', ' ', 'c', 'w', ' ', 'n', ' ',
        't', 'o', 'u', 'c', 'h'] by simp]
    refine Lexer.tokens_of_read ⟨.word, ['i', 'f'], 1⟩ rfl rfl rfl ?_
    refine (Lexer.tokens_blank rfl _).trans ?_
    refine Lexer.tokens_of_read ⟨.word, ['b', 'l', 'o', 'c', 'k', 'e', 'd'], 6⟩ rfl rfl rfl ?_
    refine (Lexer.tokens_blank rfl _).trans ?_
    refine Lexer.tokens_of_read ⟨.word, ['c', 'w'], 1⟩ rfl rfl rfl ?_
    refine (Lexer.tokens_blank rfl _).trans ?_
    refine Lexer.tokens_of_read ⟨.word, ['n'], 0⟩ rfl rfl rfl ?_
    refine (Lexer.tokens_blank rfl _).trans ?_
    refine Lexer.tokens_of_read ⟨.word, ['t', 'o', 'u', 'c', 'h'], 4⟩ rfl rfl rfl ?_
    exact Lexer.tokens_nil ..
  have read : Line.ofText "if blocked cw n touch" = .ok (.command c) :=
    Line.ofText_iff.2 ⟨_, lexed, by decide +kernel⟩
  have listed : ∀ aim, (aim.keyword, aim) ∈ Aim.words := by
    intro aim
    cases aim with
    | fixed direction => cases direction <;> decide
    | _ => decide
  exact ⟨by decide, read, source_read_again listed read⟩

end ActorScript
