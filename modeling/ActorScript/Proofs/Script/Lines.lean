import ActorScript.Proofs.Grammar.Renaming
import ActorScript.Proofs.Script.Labels
import ActorScript.Proofs.Text.Lines
import ActorScript.Proofs.Token.Feed
import ActorScript.Proofs.Token.Shift

/-!
A script is its lines. Its text is read into tokens as a whole, but each part between two line feeds
comes to what it is when it is read by itself; the program is made of these lines in order, and one
that cannot be read leaves nothing of the others.
-/
namespace ActorScript

theorem Token.faithful_shift (lines offset : Nat) : Faithful (shift lines offset) where
  kind _ := rfl
  word _ := rfl
  value _ _ := rfl

namespace Line

def command? : Line → Option Command
  | .command c => some c
  | _ => none

theorem ofText_eq_ok {cs : List Char} {line : Line} (lines offset number : Nat) :
    ofText (String.ofList cs) = .ok line ↔
      ∃ ts, Lexer.tokens ⟨false, Place.start.shift lines offset, cs⟩ = .ok ts ∧
        parse ts number = .ok line := by
  rw [ofText_iff, tokenize_eq, String.toList_ofList, Lexer.tokens_shift]
  cases lexed : Lexer.tokens ⟨false, .start, cs⟩ with
  | error error => simp
  | ok ts =>
    have lexical := Lexer.isLexical_of_tokens lexed
    have same := parse_map_eq_ok (Token.faithful_shift lines offset) lexical 1 number line
    simp only [Except.ok.injEq, exists_eq_left', same]

end Line

namespace Program

theorem tokenLines_of_plain (number : Nat) (line : List Token) {ts : List Token}
    (plain : ∀ t ∈ ts, t.kind ≠ .newline) :
    tokenLines number line ts = [(number, line.reverse ++ ts)] := by
  induction ts generalizing line with
  | nil => rw [tokenLines, List.append_nil]
  | cons t ts ih =>
    obtain ⟨first, others⟩ := List.forall_mem_cons.1 plain
    rw [tokenLines, if_neg first, ih (t :: line) others, List.reverse_cons, List.append_assoc]
    rfl

theorem tokenLines_append_feed (number : Nat) (line : List Token) {ts us : List Token}
    {feed : Token} (plain : ∀ t ∈ ts, t.kind ≠ .newline) (ends : feed.kind = .newline) :
    tokenLines number line (ts ++ feed :: us) =
      (number, line.reverse ++ ts) :: tokenLines (feed.place.line + 1) [] us := by
  induction ts generalizing line with
  | nil => rw [List.nil_append, tokenLines, if_pos ends, List.append_nil]
  | cons t ts ih =>
    obtain ⟨first, others⟩ := List.forall_mem_cons.1 plain
    rw [List.cons_append, tokenLines, if_neg first, ih (t :: line) others, List.reverse_cons,
      List.append_assoc]
    rfl

theorem readLines_cons_eq_ok {number : Nat} {ts : List Token} {rest : List (Nat × List Token)}
    {lines : List Line} :
    readLines ((number, ts) :: rest) = .ok lines ↔
      ∃ line others, Line.parse ts number = .ok line ∧ readLines rest = .ok others ∧
        line :: others = lines := by
  rw [readLines]
  cases Line.parse ts number with
  | error error => simp
  | ok line =>
    cases readLines rest with
    | error error => simp
    | ok others => simp

/-- The text, which begins at the start of a line, comes to these lines. -/
def Reads (above offset number : Nat) (cs : List Char) (lines : List Line) : Prop :=
  ∃ ts, Lexer.tokens ⟨false, Place.start.shift above offset, cs⟩ = .ok ts ∧
    readLines (tokenLines number [] ts) = .ok lines

variable {above offset number : Nat} {cs ds : List Char} {lines : List Line}

theorem reads_of_plain (plain : '\n' ∉ cs) :
    Reads above offset number cs lines ↔
      ∃ line, Line.ofText (String.ofList cs) = .ok line ∧ [line] = lines := by
  simp only [Line.ofText_eq_ok above offset number, Reads]
  constructor
  · rintro ⟨ts, lexed, read⟩
    rw [tokenLines_of_plain _ _ (Lexer.kind_ne_newline_of_tokens plain lexed)] at read
    obtain ⟨line, others, parsed, none, rfl⟩ := readLines_cons_eq_ok.1 read
    obtain rfl := Except.ok.inj none
    exact ⟨line, ⟨ts, lexed, parsed⟩, rfl⟩
  · rintro ⟨line, ⟨ts, lexed, parsed⟩, rfl⟩
    refine ⟨ts, lexed, ?_⟩
    rw [tokenLines_of_plain _ _ (Lexer.kind_ne_newline_of_tokens plain lexed)]
    exact readLines_cons_eq_ok.2 ⟨line, [], parsed, rfl, rfl⟩

theorem reads_append_feed {place : Place} (plain : '\n' ∉ cs)
    (stands : (Place.start.shift above offset).afterAll cs = place) :
    Reads above offset number (cs ++ '\n' :: ds) lines ↔
      ∃ line others, Line.ofText (String.ofList cs) = .ok line ∧
        Reads place.line (place.offset + 1) (place.line + 1) ds others ∧
          line :: others = lines := by
  have whole := Lexer.tokens_append_feed false (Place.start.shift above offset) cs ds
  rw [stands, Place.after_feed] at whole
  simp only [Line.ofText_eq_ok above offset number, Reads, whole]
  cases lexed : Lexer.tokens ⟨false, Place.start.shift above offset, cs⟩ with
  | error error => simp [bind, Except.bind]
  | ok ts =>
    cases more : Lexer.tokens ⟨false, Place.start.shift place.line (place.offset + 1), ds⟩ with
    | error error => simp [bind, Except.bind]
    | ok us =>
      have plain_line := Lexer.kind_ne_newline_of_tokens plain lexed
      have split : tokenLines number [] (ts ++ ⟨.newline, "\n", place⟩ :: us) = _ :=
        tokenLines_append_feed number [] plain_line rfl
      simp [bind, Except.bind, pure, Except.pure, split, readLines_cons_eq_ok]

/-- A text reads as its parts between line feeds do. -/
theorem reads_iff_forall₂ :
    Reads above offset number cs lines ↔
      List.Forall₂ (fun part line => Line.ofText (String.ofList part) = .ok line)
        (cs.splitOn '\n') lines := by
  -- The first line feed parts one line from the rest, whatever place that begins at.
  induction cs using line_induction generalizing lines above offset number with
  | last cs plain =>
    rw [reads_of_plain plain, List.splitOn_eq_singleton plain, List.forall₂_cons_left_iff]
    simp [eq_comm]
  | append_feed part rest plain ih =>
    rw [reads_append_feed plain rfl, List.splitOn_append_cons_self_of_not_mem plain,
      List.forall₂_cons_left_iff]
    simp only [ih, exists_and_left, eq_comm]

end Program

def lineTexts (text : String) : List String := (text.toList.splitOn '\n').map String.ofList

theorem Program.ofText_eq_ok {text : String} {program : Program} :
    ofText text = .ok program ↔
      ∃ lines, List.Forall₂ (fun part line => Line.ofText part = .ok line) (lineTexts text) lines ∧
        ofLines lines = program := by
  have reads : ∀ lines, Reads 0 0 1 text.toList lines ↔ _ := fun _ => reads_iff_forall₂
  simp only [lineTexts, List.forall₂_map_left_iff, ← reads]
  rw [ofText, tokenize_eq]
  show _ ↔ ∃ lines, (∃ ts, Lexer.tokens ⟨false, .start, text.toList⟩ = .ok ts ∧ _) ∧ _
  cases Lexer.tokens ⟨false, .start, text.toList⟩ with
  | error error => simp
  | ok ts =>
    simp only [Except.ok.injEq, exists_eq_left']
    cases readLines (tokenLines 1 [] ts) with
    | error error => simp
    | ok lines => simp

theorem exists_forall₂_iff {α β : Type} {r : α → β → Prop} {as : List α} :
    (∃ bs, List.Forall₂ r as bs) ↔ ∀ a ∈ as, ∃ b, r a b := by
  induction as with
  | nil => simp
  | cons a as ih => simp [List.forall₂_cons_left_iff, ← ih]

/-- A script can be run exactly if each part of its text between line feeds can be read by itself as
a line. It then has the commands of these lines in order, and each label stands where lines declare
it, behind the commands above. If one part cannot be read, nothing is kept of the others. -/
theorem script_made_of_lines (name text : String) :
    let script := Script.ofText name text
    (script.isExecutable = true ↔ ∀ part ∈ lineTexts text, ∃ line, Line.ofText part = .ok line) ∧
    (script.isExecutable = true → ∃ lines,
      List.Forall₂ (fun part line => Line.ofText part = .ok line) (lineTexts text) lines ∧
      script.commands = lines.filterMap Line.command? ∧
      ∀ label, script.positions? label =
        if .label label ∈ lines then some (Line.positionsOf label lines) else none) ∧
    (script.isExecutable = false → script.commands = [] ∧ script.program.labels = .empty ∧
      ∃ diagnostic, script.diagnostic = some diagnostic) := by
  intro script
  have whole : script = Script.ofText name text := rfl
  rw [Script.ofText] at whole
  rw [← exists_forall₂_iff]
  cases read : Program.ofText text with
  | ok program =>
    obtain ⟨lines, each, rfl⟩ := Program.ofText_eq_ok.1 read
    rw [read] at whole
    have executable : script.isExecutable = true := by rw [whole]; rfl
    refine ⟨⟨fun _ => ⟨lines, each⟩, fun _ => executable⟩, fun _ => ⟨lines, each, ?_, ?_⟩, ?_⟩
    · rw [whole]
      rfl
    · rw [whole]
      exact Program.get?_labels_ofLines lines
    · intro refused
      simp [executable] at refused
  | error error =>
    rw [read] at whole
    have refused : script.isExecutable = false := by rw [whole]; rfl
    refine ⟨⟨fun executable => ?_, fun all_read => ?_⟩, fun executable => ?_, fun _ => ?_⟩
    · simp [refused] at executable
    · obtain ⟨lines, each⟩ := all_read
      have accepted := Program.ofText_eq_ok.2 ⟨lines, each, rfl⟩
      simp [read] at accepted
    · simp [refused] at executable
    · rw [whole]
      exact ⟨rfl, rfl, _, rfl⟩

end ActorScript
