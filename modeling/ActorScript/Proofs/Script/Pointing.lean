import ActorScript.Proofs.Grammar.Opening
import ActorScript.Proofs.Script.FirstError
import ActorScript.Proofs.Token.Standing

/-!
Where the diagnostic of a script points. Its number and its column come from the places of tokens,
and its text from cutting the script into lines, which knows of no tokens. Both mean the same line,
and the column leads to the character with which begins what the error is about.
-/
namespace ActorScript

namespace ScriptError

/-- The column of what an error is about. A line that ends too early has none. -/
def column? : ScriptError → Option Nat
  | .lexical error => some error.column
  | .grammatical (.unexpectedToken token) => some token.place.column
  | .grammatical (.tokenExpected _) => none
  | .grammatical (.unknownCommand word) => some word.place.column

/-- One of the tokens of the text `before ++ rest`, and no line feed, stands where `rest` begins. -/
structure Named (token : Token) (before rest : List Char) : Prop where
  among : ∃ ts, tokenize (String.ofList (before ++ rest)) = .ok ts ∧ token ∈ ts
  stands : token.StandsAt before rest
  solid : token.kind ≠ .newline

/-- What the error is about begins where `rest` does, behind `before`: a stretch that is no item, or
one of the tokens. -/
inductive About (before rest : List Char) : ScriptError → Prop where
  | lexical {error : LexError} (stands : error.StandsAt before rest) :
      About before rest (.lexical error)
  | unexpected {token : Token} (named : Named token before rest) :
      About before rest (.grammatical (.unexpectedToken token))
  | unknown {word : Token} (named : Named word before rest) :
      About before rest (.grammatical (.unknownCommand word))

variable {before rest : List Char} {error : ScriptError}

theorem About.place (about : About before rest error) :
    error.line = (Place.behind before).line ∧
      error.column? = some (Place.behind before).column := by
  cases about with
  | lexical stands =>
    obtain ⟨⟨line, column⟩, -⟩ := stands
    exact ⟨line, congrArg some column⟩
  | unexpected named =>
    obtain ⟨place, -⟩ := named.stands
    exact ⟨congrArg Place.line place, congrArg (some ∘ Place.column) place⟩
  | unknown named =>
    obtain ⟨place, -⟩ := named.stands
    exact ⟨congrArg Place.line place, congrArg (some ∘ Place.column) place⟩

theorem About.exists_first (about : About before rest error) :
    ∃ c cs, rest = c :: cs ∧ c ≠ '\n' ∧ c ≠ '\r' := by
  cases about with
  | lexical stands => exact stands.exists_first
  | unexpected named => exact named.stands.exists_first named.solid
  | unknown named => exact named.stands.exists_first named.solid

end ScriptError

namespace Line

theorem exists_blamed {ts : List Token} (lexical : ∀ t ∈ ts, t.IsLexical) {number : Nat}
    {error : ParseError} (refused : parse ts number = .error error) :
    error = .tokenExpected number ∨
      ∃ t ∈ ts, error = .unexpectedToken t ∨ error = .unknownCommand t := by
  obtain ⟨blamed, failed, rfl⟩ := (parse_eq_error lexical).1 refused
  cases blamed with
  | unexpected t =>
    refine .inr ⟨t, Grammar.book.mem_of_complete Grammar.builds_line failed, ?_⟩
    simp only [blame]
    split
    · exact .inr rfl
    · exact .inl rfl
  | exhausted => exact .inl rfl
  | tooDeep => exact .inl rfl

end Line

namespace Program

variable {text : String} {error : ScriptError}

theorem mem_of_readLines {rows : List (Nat × List Token)} {error : ParseError}
    (refused : readLines rows = .error error) :
    ∃ row ∈ rows, Line.parse row.2 row.1 = .error error := by
  induction rows with
  | nil => cases refused
  | cons row rows ih =>
    unfold readLines at refused
    split at refused
    · rename_i failed
      obtain rfl := Except.error.inj refused
      exact ⟨row, List.mem_cons_self, failed⟩
    · split at refused
      · rename_i later
        obtain rfl := Except.error.inj refused
        obtain ⟨row', mem, failed⟩ := ih later
        exact ⟨row', List.mem_cons_of_mem row mem, failed⟩
      · cases refused

theorem mem_of_tokenLines {number : Nat} {line ts : List Token} {row : Nat × List Token}
    (mem : row ∈ tokenLines number line ts) :
    ∀ t ∈ row.2, t ∈ line ∨ t ∈ ts ∧ t.kind ≠ .newline := by
  induction ts generalizing number line with
  | nil =>
    obtain rfl := List.mem_singleton.1 mem
    exact fun t here => .inl (List.mem_reverse.1 here)
  | cons u ts ih =>
    intro t here
    unfold tokenLines at mem
    split at mem
    · rcases List.mem_cons.1 mem with rfl | mem
      · exact .inl (List.mem_reverse.1 here)
      · obtain none | ⟨later, solid⟩ := ih mem t here
        · cases none
        · exact .inr ⟨List.mem_cons_of_mem u later, solid⟩
    · rename_i solid
      obtain among | ⟨later, solid⟩ := ih mem t here
      · rcases List.mem_cons.1 among with rfl | before
        · exact .inr ⟨List.mem_cons_self, solid⟩
        · exact .inl before
      · exact .inr ⟨List.mem_cons_of_mem u later, solid⟩

theorem exists_about (refused : ofText text = .error error) {column : Nat}
    (carried : error.column? = some column) :
    ∃ before rest, text.toList = before ++ rest ∧ error.About before rest := by
  have stands := standsAt_of_tokenize text
  rw [ofText] at refused
  cases lexed : tokenize text with
  | error fault =>
    rw [lexed] at refused stands
    obtain rfl := Except.error.inj refused
    obtain ⟨before, rest, whole, here⟩ := stands
    exact ⟨before, rest, whole, .lexical here⟩
  | ok ts =>
    rw [lexed] at refused stands
    dsimp only at refused
    cases read : readLines (tokenLines 1 [] ts) with
    | ok lines => simp [read] at refused
    | error blamed =>
      rw [read] at refused
      obtain rfl := Except.error.inj refused
      obtain ⟨row, mem, failed⟩ := mem_of_readLines read
      have from_text : ∀ t ∈ row.2, t ∈ ts ∧ t.kind ≠ .newline := fun t here =>
        (mem_of_tokenLines mem t here).resolve_left (List.not_mem_nil)
      have lexical : ∀ t ∈ row.2, t.IsLexical := fun t here =>
        isLexical_of_tokenize lexed t (from_text t here).1
      obtain rfl | ⟨t, here, names⟩ := Line.exists_blamed lexical failed
      · cases carried
      · obtain ⟨among, solid⟩ := from_text t here
        obtain ⟨before, rest, whole, stands⟩ := stands t among
        have named : ScriptError.Named t before rest :=
          ⟨⟨ts, by rw [← whole, String.ofList_toList, lexed], among⟩, stands, solid⟩
        refine ⟨before, rest, whole, ?_⟩
        rcases names with rfl | rfl
        · exact .unexpected named
        · exact .unknown named

theorem exists_isLine_of_refused (refused : ofText text = .error error) :
    ∃ s : Stretch, s.IsLine text.toList error.line := by
  obtain ⟨i, own, decisive, line, -⟩ := exists_decisive refused
  obtain ⟨part, here, alone⟩ := decisive.exists_refused
  rw [lineTexts, List.getElem?_map] at here
  obtain ⟨cs, cut, rfl⟩ := Option.map_eq_some_iff.1 here
  rw [line]
  apply exists_isLine_of_splitOn cut
  rintro rfl
  have blank : Line.ofText (String.ofList []) = .ok .blank := by
    rw [Line.ofText, tokenize_eq, String.toList_ofList, Lexer.tokens_nil]
    rfl
  simp [blank] at alone

/-- An error leads to a line of the text, and its column to what it is about. -/
theorem exists_line_of_error (refused : ofText text = .error error) :
    ∃ s : Stretch, s.IsLine text.toList error.line ∧
      ∀ column, error.column? = some column → ∃ left c right,
        s.line = left ++ c :: right ∧ column = left.length + 1 ∧
        error.About (s.above ++ left) (c :: right ++ (s.ending ++ s.below)) := by
  cases carried : error.column? with
  | none =>
    obtain ⟨s, is_line⟩ := exists_isLine_of_refused refused
    exact ⟨s, is_line, by simp⟩
  | some column =>
    obtain ⟨before, rest, whole, about⟩ := exists_about refused carried
    obtain ⟨line, placed⟩ := about.place
    obtain ⟨c, rest, rfl, feed, carriage⟩ := about.exists_first
    obtain ⟨s, left, right, is_line, rfl, line_eq, rfl, counted⟩ :=
      exists_isLine_of_char before rest feed carriage
    rw [carried, Option.some.injEq, counted] at placed
    rw [whole, line]
    refine ⟨s, is_line, fun column' same => ⟨left, c, right, line_eq, ?_, about⟩⟩
    rw [← Option.some.inj same, placed]

end Program

/-- The diagnostic of a script tells the number and the text of a line that the script has, without
its ending. If the error has a column, what it is about begins there in that line. -/
theorem diagnostic_shows_its_line {name text : String} {report : Diagnostic}
    (reports : (Script.ofText name text).diagnostic = some report) :
    ∃ (error : ScriptError) (s : Stretch),
      Program.ofText text = .error error ∧
      report = ⟨name, error.line, String.ofList s.line, error.message⟩ ∧
      1 ≤ report.lineNumber ∧ report.lineNumber ≤ (linesOf text).length ∧
      s.IsLine text.toList report.lineNumber ∧
      ∀ column, error.column? = some column → ∃ left c right,
        s.line = left ++ c :: right ∧ column = left.length + 1 ∧
        error.About (s.above ++ left) (c :: right ++ (s.ending ++ s.below)) := by
  rw [Script.ofText] at reports
  cases refused : Program.ofText text with
  | ok program => simp [refused] at reports
  | error error =>
    rw [refused] at reports
    obtain rfl := Option.some.inj reports
    obtain ⟨s, is_line, points⟩ := Program.exists_line_of_error refused
    have found : (linesOf text)[error.line - 1]? = some (String.ofList s.line) := by
      rw [linesOf, List.getElem?_map, is_line.getElem?_linesFrom]
      rfl
    have positive : 1 ≤ error.line := by
      rw [is_line.number]
      omega
    obtain ⟨within, -⟩ := List.getElem?_eq_some_iff.1 found
    have bounded : error.line ≤ (linesOf text).length := by omega
    refine ⟨error, s, rfl, ?_, positive, bounded, is_line, points⟩
    rw [found]
    rfl

/-- The number that this script cannot take stands on its second line, behind a comment with a
letter of two bytes and lines that end in a carriage return. -/
theorem seven_is_pointed_at :
    let text := "// é\r\n\tsay 7\r\n"
    let report : Diagnostic := ⟨"s", 2, "\tsay 7", "unexpected token '7' at line 2, column 6"⟩
    (Script.ofText "s" text).diagnostic = some report ∧
      ∃ (s : Stretch) (left right : List Char), s.IsLine text.toList report.lineNumber ∧
        s.line = left ++ '7' :: right ∧ left.length + 1 = 6 := by
  intro text report
  let seven : Token := ⟨.number, "7", ⟨2, 6, 11⟩⟩
  have lexed : tokenize text =
      .ok [⟨.newline, "\n", ⟨1, 6, 5⟩⟩, ⟨.word, "say", ⟨2, 2, 7⟩⟩, seven,
        ⟨.newline, "\n", ⟨2, 8, 13⟩⟩] := by
    have whole : Lexer.tokens ⟨true, .start, text.toList⟩ =
        .ok [⟨.comment, " é\r", .start⟩, ⟨.newline, "\n", ⟨1, 6, 5⟩⟩, ⟨.word, "say", ⟨2, 2, 7⟩⟩,
          seven, ⟨.newline, "\n", ⟨2, 8, 13⟩⟩] := by
      rw [show text.toList = ['/', '/', ' ', 'é', '\r', '\n', '\t', 's', 'a', 'y', ' ', '7', '\r',
        '\n'] by simp [text]]
      refine Lexer.tokens_of_read ⟨.comment, [' ', 'é', '\r'], 4⟩ rfl rfl rfl ?_
      refine Lexer.tokens_of_read ⟨.newline, ['\n'], 0⟩ rfl rfl rfl ?_
      refine (Lexer.tokens_blank rfl _).trans ?_
      refine Lexer.tokens_of_read ⟨.word, ['s', 'a', 'y'], 2⟩ rfl rfl rfl ?_
      refine (Lexer.tokens_blank rfl _).trans ?_
      refine Lexer.tokens_of_read ⟨.number, ['7'], 0⟩ rfl rfl rfl ?_
      refine (Lexer.tokens_blank rfl _).trans ?_
      exact Lexer.tokens_of_read ⟨.newline, ['\n'], 0⟩ rfl rfl rfl (Lexer.tokens_nil _ _)
    rw [tokenize_eq, Lexer.tokens_dropping, whole]
    rfl
  have refused : Program.ofText text = .error (.grammatical (.unexpectedToken seven)) := by
    have stuck : Program.readLines (Program.tokenLines 1 [] [⟨.newline, "\n", ⟨1, 6, 5⟩⟩,
        ⟨.word, "say", ⟨2, 2, 7⟩⟩, seven, ⟨.newline, "\n", ⟨2, 8, 13⟩⟩]) =
        .error (.unexpectedToken seven) := by decide +kernel
    rw [Program.ofText, lexed]
    dsimp only
    rw [stuck]
  have reports : (Script.ofText "s" text).diagnostic = some report := by
    have lines : linesOf text = ["// é", "\tsay 7"] := by decide +kernel
    have message : (ParseError.unexpectedToken seven).message =
        "unexpected token '7' at line 2, column 6" := by decide +kernel
    rw [Script.ofText, refused]
    dsimp only [ScriptError.message]
    rw [lines, message]
    rfl
  obtain ⟨error, s, same, told, -, -, is_line, points⟩ := diagnostic_shows_its_line reports
  rw [refused] at same
  obtain rfl := Except.error.inj same
  obtain ⟨left, c, right, line, column, -⟩ := points 6 rfl
  refine ⟨reports, s, left, right, is_line, ?_, column.symm⟩
  have shown : s.line = ['\t', 's', 'a', 'y', ' ', '7'] := by
    have text_eq : "\tsay 7" = String.ofList s.line := congrArg Diagnostic.lineText told
    rw [← String.toList_ofList (l := s.line), ← text_eq]
    rfl
  have sixth : (left ++ c :: right)[5]? = some '7' := by rw [← line, shown]; rfl
  have behind : left.length = 5 := by omega
  rw [List.getElem?_append_right (by omega), behind] at sixth
  obtain rfl := Option.some.inj sixth
  exact line

end ActorScript
