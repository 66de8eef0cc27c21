import ActorScript.Proofs.Script.Lines

/-!
Which error a script reports. All of its text is read into tokens before any line is read, so that a
part with a lexical error comes before all parts that make no line, wherever they stand; among parts
that fail alike the first counts. The error is the one that the part has by itself, moved down to
its line.
-/
namespace ActorScript

/-- The part of this number is the first that a check refuses, and this is why. -/
def FirstRefused {ε α : Type} (check : String → Except ε α) (parts : List String) (i : Nat)
    (error : ε) : Prop :=
  (∃ part, parts[i]? = some part ∧ check part = .error error) ∧
    ∀ part ∈ parts.take i, ∃ a, check part = .ok a

/-- The error that counts among those of the parts of a text: the first lexical one, or, where all
parts can be read into tokens, the first of a part that makes no line. -/
inductive Decisive (parts : List String) (i : Nat) : ScriptError → Prop where
  | lexical {error : LexError} (first : FirstRefused tokenize parts i error) :
      Decisive parts i (.lexical error)
  | grammatical {error : ParseError} (lexed : ∀ part ∈ parts, ∃ ts, tokenize part = .ok ts)
      (first : FirstRefused Line.ofText parts i (.grammatical error)) :
      Decisive parts i (.grammatical error)

def ParseError.lower (lines : Nat) : ParseError → ParseError
  | .unexpectedToken token => .unexpectedToken (token.shift lines 0)
  | .tokenExpected line => .tokenExpected (line + lines)
  | .unknownCommand word => .unknownCommand (word.shift lines 0)

/-- The error of a line that stands so many lines further down. -/
def ScriptError.lower (lines : Nat) : ScriptError → ScriptError
  | .lexical error => .lexical (error.shift lines)
  | .grammatical error => .grammatical (error.lower lines)

namespace FirstRefused

variable {ε α : Type} {check : String → Except ε α} {parts : List String} {part : String}
  {i j : Nat} {error error' : ε}

theorem head (refused : check part = .error error) : FirstRefused check (part :: parts) 0 error :=
  ⟨⟨part, rfl, refused⟩, by simp⟩

theorem tail {a : α} (passed : check part = .ok a) (first : FirstRefused check parts i error) :
    FirstRefused check (part :: parts) (i + 1) error := by
  refine ⟨first.1, ?_⟩
  rw [List.take_succ_cons, List.forall_mem_cons]
  exact ⟨⟨a, passed⟩, first.2⟩

theorem mem (first : FirstRefused check parts i error) :
    ∃ part ∈ parts, check part = .error error := by
  obtain ⟨⟨part, here, refused⟩, -⟩ := first
  exact ⟨part, List.mem_of_getElem? here, refused⟩

theorem not_lt (first : FirstRefused check parts i error)
    (second : FirstRefused check parts j error') : ¬ i < j := by
  intro above
  obtain ⟨⟨part, here, refused⟩, -⟩ := first
  have among : part ∈ parts.take j := by
    apply List.mem_of_getElem? (i := i)
    rw [List.getElem?_take_of_lt above, here]
  obtain ⟨a, passed⟩ := second.2 part among
  simp [passed] at refused

theorem unique (first : FirstRefused check parts i error)
    (second : FirstRefused check parts j error') : i = j ∧ error = error' := by
  have not_above := first.not_lt second
  have not_below := second.not_lt first
  obtain rfl : i = j := by omega
  obtain ⟨⟨part, here, refused⟩, -⟩ := first
  obtain ⟨⟨part', here', refused'⟩, -⟩ := second
  rw [here] at here'
  obtain rfl := Option.some.inj here'
  rw [refused] at refused'
  exact ⟨rfl, Except.error.inj refused'⟩

end FirstRefused

namespace Decisive

variable {parts : List String} {i j : Nat} {error error' : ScriptError}

theorem unique (first : Decisive parts i error) (second : Decisive parts j error') :
    i = j ∧ error = error' := by
  cases first with
  | lexical first =>
    cases second with
    | lexical second =>
      obtain ⟨rfl, rfl⟩ := first.unique second
      exact ⟨rfl, rfl⟩
    | grammatical lexed second =>
      obtain ⟨part, among, refused⟩ := first.mem
      obtain ⟨ts, passed⟩ := lexed part among
      simp [passed] at refused
  | grammatical lexed first =>
    cases second with
    | lexical second =>
      obtain ⟨part, among, refused⟩ := second.mem
      obtain ⟨ts, passed⟩ := lexed part among
      simp [passed] at refused
    | grammatical _ second => exact first.unique second

theorem exists_refused (first : Decisive parts i error) :
    ∃ part, parts[i]? = some part ∧ Line.ofText part = .error error := by
  cases first with
  | lexical first =>
    obtain ⟨⟨part, here, refused⟩, -⟩ := first
    refine ⟨part, here, ?_⟩
    rw [Line.ofText, refused]
  | grammatical _ first =>
    exact first.1

end Decisive

namespace Line

theorem line_of_ofText {text : String} {error : ScriptError} (plain : '\n' ∉ text.toList)
    (refused : ofText text = .error error) : error.line = 1 := by
  obtain ⟨of_failed, of_read⟩ := Lexer.line_of_tokens false .start plain
  rw [ofText, tokenize_eq] at refused
  cases lexed : Lexer.tokens ⟨false, .start, text.toList⟩ with
  | error fault =>
    rw [lexed] at refused
    obtain rfl := Except.error.inj refused
    exact of_failed fault lexed
  | ok ts =>
    -- Tokens of the first line are the same when they are put on it, and so is what is blamed.
    let onFirst (t : Token) : Token := { t with place := { t.place with line := 1 } }
    have faithful : Token.Faithful onFirst := ⟨fun _ => rfl, fun _ => rfl, fun _ _ => rfl⟩
    have kept : ts.map onFirst = ts := by
      refine (List.map_congr_left fun t mem => ?_).trans (List.map_id ts)
      have first : t.place.line = 1 := of_read ts lexed t mem
      show { t with place := { t.place with line := 1 } } = t
      rw [← first]
    have moved := parse_map faithful (fun _ _ => rfl) (Lexer.isLexical_of_tokens lexed) 1 1
    rw [kept] at moved
    rw [lexed] at refused
    dsimp only at refused
    cases parsed : parse ts 1 with
    | ok line => simp [parsed] at refused
    | error blamed =>
      rw [parsed] at refused moved
      obtain rfl := Except.error.inj refused
      have same : blamed = blamed.rename onFirst 1 := Except.error.inj moved
      show blamed.line = 1
      rw [same]
      cases blamed <;> rfl

theorem exists_of_parse_eq_error {lines offset number : Nat} {cs : List Char} {ts : List Token}
    {error : ParseError}
    (lexed : Lexer.tokens ⟨false, Place.start.shift lines offset, cs⟩ = .ok ts)
    (refused : parse ts number = .error error) :
    ∃ blamed, ofText (String.ofList cs) = .error (.grammatical blamed) ∧
      error = blamed.rename (Token.shift lines offset) number := by
  have apart (t u : Token) : ((t.shift lines offset).place.offset ==
      (u.shift lines offset).place.offset) = (t.place.offset == u.place.offset) := by
    simp [Token.shift, Place.shift]
  rw [Lexer.tokens_shift] at lexed
  rw [ofText, tokenize_eq, String.toList_ofList]
  cases own : Lexer.tokens ⟨false, .start, cs⟩ with
  | error fault => simp [own] at lexed
  | ok us =>
    rw [own] at lexed
    obtain rfl := Except.ok.inj lexed
    have moved := parse_map (Token.faithful_shift lines offset) apart
      (Lexer.isLexical_of_tokens own) 1 number
    rw [refused] at moved
    dsimp only
    cases parsed : parse us 1 with
    | ok line => simp [parsed, Except.mapError] at moved
    | error blamed =>
      rw [parsed] at moved
      exact ⟨blamed, rfl, Except.error.inj moved⟩

end Line

theorem ParseError.message_rename {blamed : ParseError} (first : blamed.line = 1)
    (lines offset : Nat) :
    let moved := blamed.rename (Token.shift lines offset) (lines + 1)
    moved.line = lines + 1 ∧ moved.message = (blamed.lower lines).message := by
  intro moved
  cases blamed with
  | tokenExpected line =>
    obtain rfl : line = 1 := first
    refine ⟨rfl, ?_⟩
    show message (.tokenExpected (lines + 1)) = message (.tokenExpected (1 + lines))
    rw [Nat.add_comm]
  | unexpectedToken token =>
    refine ⟨?_, rfl⟩
    show token.place.line + lines = lines + 1
    rw [show token.place.line = 1 from first, Nat.add_comm]
  | unknownCommand word =>
    refine ⟨?_, rfl⟩
    show word.place.line + lines = lines + 1
    rw [show word.place.line = 1 from first, Nat.add_comm]

namespace Program

/-- The parts of a text between its line feeds, as texts of their own. -/
def partsOf (cs : List Char) : List String := (cs.splitOn '\n').map String.ofList

variable {above offset : Nat} {cs ds : List Char}

theorem partsOf_of_plain (plain : '\n' ∉ cs) : partsOf cs = [String.ofList cs] := by
  rw [partsOf, List.splitOn_eq_singleton plain]
  rfl

theorem partsOf_append_feed (plain : '\n' ∉ cs) (ds : List Char) :
    partsOf (cs ++ '\n' :: ds) = String.ofList cs :: partsOf ds := by
  rw [partsOf, List.splitOn_append_cons_self_of_not_mem plain]
  rfl

theorem line_behind (plain : '\n' ∉ cs) :
    ((Place.start.shift above offset).afterAll cs).line = above + 1 := by
  rw [Place.line_afterAll plain]
  exact Nat.add_comm 1 above

theorem tokenize_part (lines offset : Nat) (cs : List Char) :
    Lexer.tokens ⟨false, Place.start.shift lines offset, cs⟩ =
      match tokenize (String.ofList cs) with
      | .ok ts => .ok (ts.map (Token.shift lines offset))
      | .error fault => .error (fault.shift lines) := by
  have moved := Lexer.tokens_shift lines offset false .start cs
  cases own : tokenize (String.ofList cs) with
  | ok ts =>
    rw [tokenize_eq, String.toList_ofList] at own
    rw [own] at moved
    exact moved
  | error fault =>
    rw [tokenize_eq, String.toList_ofList] at own
    rw [own] at moved
    exact moved

theorem tokens_of_parts (above offset : Nat) (cs : List Char) :
    match Lexer.tokens ⟨false, Place.start.shift above offset, cs⟩ with
    | .ok _ => ∀ part ∈ partsOf cs, ∃ ts, tokenize part = .ok ts
    | .error error => ∃ i fault, FirstRefused tokenize (partsOf cs) i fault ∧
        error = fault.shift (above + i) := by
  -- The first line feed parts one line from the rest, whatever place that begins at.
  induction cs using line_induction generalizing above offset with
  | last cs plain =>
    rw [partsOf_of_plain plain, tokenize_part]
    cases own : tokenize (String.ofList cs) with
    | error fault => exact ⟨0, fault, .head own, rfl⟩
    | ok ts => exact List.forall_mem_singleton.2 ⟨ts, own⟩
  | append_feed part rest plain ih =>
    have later := ih (above + 1) (((Place.start.shift above offset).afterAll part).offset + 1)
    rw [Lexer.tokens_append_feed, Place.after_feed, line_behind plain, partsOf_append_feed plain,
      tokenize_part]
    cases own : tokenize (String.ofList part) with
    | error fault => exact ⟨0, fault, .head own, rfl⟩
    | ok ts =>
      cases more : Lexer.tokens ⟨false, Place.start.shift (above + 1)
          (((Place.start.shift above offset).afterAll part).offset + 1), rest⟩ with
      | error error =>
        rw [more] at later
        obtain ⟨i, fault, first, rfl⟩ := later
        refine ⟨i + 1, fault, .tail own first, ?_⟩
        rw [Nat.add_right_comm]
        rfl
      | ok us =>
        rw [more] at later
        exact List.forall_mem_cons.2 ⟨⟨ts, own⟩, later⟩

theorem exists_of_readLines_eq_error {ts : List Token} {error : ParseError}
    (lexed : Lexer.tokens ⟨false, Place.start.shift above offset, cs⟩ = .ok ts)
    (refused : readLines (tokenLines (above + 1) [] ts) = .error error) :
    ∃ i blamed offset', FirstRefused Line.ofText (partsOf cs) i (.grammatical blamed) ∧
      error = blamed.rename (Token.shift (above + i) offset') (above + i + 1) := by
  induction cs using line_induction generalizing above offset ts with
  | last cs plain =>
    rw [tokenLines_of_plain _ _ (Lexer.kind_ne_newline_of_tokens plain lexed), readLines] at refused
    rw [partsOf_of_plain plain]
    cases parsed : Line.parse ts (above + 1) with
    | ok made => simp [parsed, readLines] at refused
    | error blamed =>
      rw [List.reverse_nil, List.nil_append, parsed] at refused
      obtain ⟨own_error, alone, rfl⟩ := Line.exists_of_parse_eq_error lexed parsed
      exact ⟨0, own_error, offset, .head alone, (Except.error.inj refused).symm⟩
  | append_feed part rest plain ih =>
    rw [Lexer.tokens_append_feed, Place.after_feed, line_behind plain] at lexed
    cases own : Lexer.tokens ⟨false, Place.start.shift above offset, part⟩ with
    | error fault => simp [own, bind, Except.bind] at lexed
    | ok line =>
      cases more : Lexer.tokens ⟨false, Place.start.shift (above + 1)
          (((Place.start.shift above offset).afterAll part).offset + 1), rest⟩ with
      | error fault => simp [own, more, bind, Except.bind] at lexed
      | ok us =>
        rw [own, more] at lexed
        obtain rfl := Except.ok.inj lexed
        rw [tokenLines_append_feed (above + 1) [] (Lexer.kind_ne_newline_of_tokens plain own) rfl,
          line_behind plain, readLines, List.reverse_nil, List.nil_append] at refused
        rw [partsOf_append_feed plain]
        cases parsed : Line.parse line (above + 1) with
        | error blamed =>
          rw [parsed] at refused
          obtain ⟨own_error, alone, rfl⟩ := Line.exists_of_parse_eq_error own parsed
          exact ⟨0, own_error, offset, .head alone, (Except.error.inj refused).symm⟩
        | ok made =>
          rw [parsed] at refused
          dsimp only at refused
          cases read : readLines (tokenLines (above + 1 + 1) [] us) with
          | ok lines => simp [read] at refused
          | error blamed =>
            rw [read] at refused
            obtain rfl := Except.error.inj refused
            obtain ⟨i, own_error, offset', first, rfl⟩ := ih more read
            have passed := (Line.ofText_eq_ok above offset (above + 1)).2 ⟨line, own, parsed⟩
            refine ⟨i + 1, own_error, offset', .tail passed first, ?_⟩
            rw [Nat.add_right_comm above 1 i]
            rfl

theorem plain_of_mem_partsOf : ∀ part ∈ partsOf cs, '\n' ∉ part.toList := by
  induction cs using line_induction with
  | last cs plain =>
    rw [partsOf_of_plain plain, List.forall_mem_singleton, String.toList_ofList]
    exact plain
  | append_feed part rest plain ih =>
    rw [partsOf_append_feed plain, List.forall_mem_cons, String.toList_ofList]
    exact ⟨plain, ih⟩

/-- The error of a text is the decisive one of its parts, moved down to its line. -/
theorem exists_decisive {text : String} {error : ScriptError}
    (refused : ofText text = .error error) :
    ∃ i own, Decisive (lineTexts text) i own ∧ error.line = i + 1 ∧
      error.message = (own.lower i).message := by
  have parts := tokens_of_parts 0 0 text.toList
  have whole : tokenize text = Lexer.tokens ⟨false, Place.start.shift 0 0, text.toList⟩ := rfl
  have on_first {i : Nat} {own : ScriptError} (decisive : Decisive (lineTexts text) i own) :
      own.line = 1 := by
    obtain ⟨part, here, alone⟩ := decisive.exists_refused
    exact Line.line_of_ofText (plain_of_mem_partsOf part (List.mem_of_getElem? here)) alone
  rw [ofText, whole] at refused
  cases lexed : Lexer.tokens ⟨false, Place.start.shift 0 0, text.toList⟩ with
  | error fault =>
    rw [lexed] at refused parts
    obtain rfl := Except.error.inj refused
    obtain ⟨i, own, first, rfl⟩ := parts
    have decisive : Decisive (lineTexts text) i (.lexical own) := .lexical first
    have first_line : own.line = 1 := on_first decisive
    rw [Nat.zero_add]
    refine ⟨i, .lexical own, decisive, ?_, rfl⟩
    show own.line + i = i + 1
    rw [first_line, Nat.add_comm]
  | ok ts =>
    rw [lexed] at refused parts
    dsimp only at refused
    cases read : readLines (tokenLines 1 [] ts) with
    | ok lines => simp [read] at refused
    | error blamed =>
      rw [read] at refused
      obtain rfl := Except.error.inj refused
      obtain ⟨i, own, offset, first, rfl⟩ := exists_of_readLines_eq_error lexed read
      have decisive : Decisive (lineTexts text) i (.grammatical own) := .grammatical parts first
      rw [Nat.zero_add]
      exact ⟨i, .grammatical own, decisive, ParseError.message_rename (on_first decisive) i offset⟩

theorem exists_ofText_eq_error {text : String} {i : Nat} {own : ScriptError}
    (decisive : Decisive (lineTexts text) i own) : ∃ error, ofText text = .error error := by
  cases read : ofText text with
  | error error => exact ⟨error, rfl⟩
  | ok program =>
    obtain ⟨lines, each, -⟩ := ofText_eq_ok.1 read
    obtain ⟨part, here, alone⟩ := decisive.exists_refused
    have passed := exists_forall₂_iff.1 ⟨lines, each⟩ part (List.mem_of_getElem? here)
    obtain ⟨line, made⟩ := passed
    simp [made] at alone

end Program

/-- What a script reports is its decisive error: the first lexical error among its lines, or, where
there is none, the error of the first line that is none. A line that is refused is therefore passed
over where a later one holds what is no token. -/
theorem script_reports_decisive_error (name text : String) (report : Diagnostic) :
    (Script.ofText name text).diagnostic = some report ↔
      ∃ i error, Decisive (lineTexts text) i error ∧
        report = ⟨name, i + 1, (linesOf text)[i]?.getD "", (error.lower i).message⟩ := by
  have reported {error : ScriptError} (refused : Program.ofText text = .error error) :
      ∃ i own, Decisive (lineTexts text) i own ∧ (Script.ofText name text).diagnostic =
        some ⟨name, i + 1, (linesOf text)[i]?.getD "", (own.lower i).message⟩ := by
    obtain ⟨i, own, decisive, line, message⟩ := Program.exists_decisive refused
    refine ⟨i, own, decisive, ?_⟩
    have index : error.line - 1 = i := by omega
    rw [Script.ofText, refused, ← message, ← line]
    dsimp only
    rw [index]
  constructor
  · intro reports
    cases read : Program.ofText text with
    | ok program =>
      rw [Script.ofText, read] at reports
      simp at reports
    | error error =>
      obtain ⟨i, own, decisive, same⟩ := reported read
      rw [same] at reports
      exact ⟨i, own, decisive, (Option.some.inj reports).symm⟩
  · rintro ⟨i, own, decisive, rfl⟩
    obtain ⟨error, refused⟩ := Program.exists_ofText_eq_error decisive
    obtain ⟨j, own', decisive', same⟩ := reported refused
    obtain ⟨rfl, rfl⟩ := decisive.unique decisive'
    exact same

/-- The first line here begins with no keyword, but what is reported is the character below it. -/
theorem character_below_reported_first :
    lineTexts "dance\n#" = ["dance", "#"] ∧
    Line.ofText "dance" = .error (.grammatical (.unknownCommand ⟨.word, "dance", .start⟩)) ∧
    (Script.ofText "s" "dance\n#").diagnostic =
      some ⟨"s", 2, "#", "unrecognized token '#' at line 2, column 1"⟩ := by
  have first_line : tokenize "dance" = .ok [⟨.word, "dance", .start⟩] := by
    rw [tokenize_eq, show "dance".toList = ['d', 'a', 'n', 'c', 'e'] by simp]
    exact Lexer.tokens_of_read ⟨.word, ['d', 'a', 'n', 'c', 'e'], 4⟩ rfl rfl rfl
      (Lexer.tokens_nil _ _)
  have second_line : Lexer.tokens ⟨false, ⟨2, 1, 6⟩, ['#']⟩ =
      .error ⟨.unrecognized '#', 2, 1⟩ := by
    apply Lexer.tokens_of_failed
    rw [scan, if_neg (by decide)]
    rfl
  have whole : tokenize "dance\n#" = .error ⟨.unrecognized '#', 2, 1⟩ := by
    rw [tokenize_eq, show "dance\n#".toList = "dance".toList ++ '\n' :: ['#'] by simp,
      Lexer.tokens_append_feed, ← tokenize_eq, first_line]
    show (Lexer.tokens ⟨false, (Place.start.afterAll "dance".toList).after '\n', ['#']⟩ >>= _) = _
    rw [show "dance".toList = ['d', 'a', 'n', 'c', 'e'] by simp]
    show (Lexer.tokens ⟨false, ⟨2, 1, 6⟩, ['#']⟩ >>= _) = _
    rw [second_line]
    rfl
  refine ⟨?_, ?_, ?_⟩
  · rw [lineTexts, show "dance\n#".toList = ['d', 'a', 'n', 'c', 'e', '\n', '#'] by simp]
    rfl
  · rw [Line.ofText, first_line]
    rfl
  · rw [Script.ofText, Program.ofText, whole]
    have lines : linesOf "dance\n#" = ["dance", "#"] := by
      rw [linesOf, show "dance\n#".toList = ['d', 'a', 'n', 'c', 'e', '\n', '#'] by simp]
      rfl
    dsimp only
    rw [lines]
    rfl

end ActorScript
