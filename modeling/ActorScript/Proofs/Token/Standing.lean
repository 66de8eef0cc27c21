import ActorScript.Proofs.Token.Comments
import ActorScript.Proofs.Token.Span

/-!
What stands where a token or a lexical error says that it is. A token is found at its place in the
text, with the item that it stands for; an error says where the stretch begins that is no item, and
what is wrong with it.
-/
namespace ActorScript

/-- This stretch of a text that goes on with `after` begins as no item does, and this is why. -/
inductive Faulty : List Char → List Char → LexError.Fault → Prop where
  | unrecognized {c : Char} {cs : List Char} (visible : isBlank c = false)
      (strange : ∀ span after kind value, c :: cs = span ++ after →
        ¬ Lexeme span after kind value) : Faulty [c] cs (.unrecognized c)
  | unterminated {text after : List Char} (inside : '\n' ∉ text)
      (stop : ∀ d ∈ after.head?, d = '\n')
      (unclosed : ∀ written rest contents, text = written ++ '"' :: rest →
        ¬ InQuotes written contents) : Faulty ('"' :: text) after .unterminated
  | tooLarge {c : Char} {cs after : List Char} (digits : ∀ d ∈ c :: cs, d.isDigit = true)
      (large : Nat.pow 2 63 ≤ decimalValue (c :: cs))
      (stop : ∀ d ∈ after.head?, d.isDigit = false) : Faulty (c :: cs) after .tooLarge

/-- The token is what `rest` begins with, a text behind `before`, and that is its place. -/
def Token.StandsAt (t : Token) (before rest : List Char) : Prop :=
  t.place = .behind before ∧
    ∃ span after, rest = span ++ after ∧ Lexeme span after t.kind t.value.toList

/-- The fault lies in what `rest` begins with, a text behind `before`, and that is its place. -/
def LexError.StandsAt (e : LexError) (before rest : List Char) : Prop :=
  (e.line = (Place.behind before).line ∧ e.column = (Place.behind before).column) ∧
    ∃ span after, rest = span ++ after ∧ Faulty span after e.fault

section Beginning

variable {span after value before rest : List Char} {kind : Token.Kind} {fault : LexError.Fault}

theorem ne_of_isWordChar {c : Char} (inside : isWordChar c = true) : c ≠ '\n' ∧ c ≠ '\r' := by
  constructor <;> rintro rfl <;> exact absurd inside (by decide)

theorem Lexeme.exists_first (h : Lexeme span after kind value) (solid : kind ≠ .newline) :
    ∃ c cs, span = c :: cs ∧ c ≠ '\n' ∧ c ≠ '\r' := by
  cases h with
  | newline => exact absurd rfl solid
  | comment => exact ⟨_, _, rfl, by decide, by decide⟩
  | quoted => exact ⟨_, _, rfl, by decide, by decide⟩
  | angleEquals angle => rcases angle with rfl | rfl <;> exact ⟨_, _, rfl, by decide, by decide⟩
  | angle angle => rcases angle with rfl | rfl <;> exact ⟨_, _, rfl, by decide, by decide⟩
  | sign sign => rcases sign with rfl | rfl <;> exact ⟨_, _, rfl, by decide, by decide⟩
  | comma => exact ⟨_, _, rfl, by decide, by decide⟩
  | number digits =>
    exact ⟨_, _, rfl, ne_of_isWordChar (isWordChar_of_isDigit (digits _ List.mem_cons_self))⟩
  | word letter => exact ⟨_, _, rfl, ne_of_isWordChar (isWordChar_of_isLetter letter)⟩

theorem Faulty.exists_first (h : Faulty span after fault) :
    ∃ c cs, span = c :: cs ∧ c ≠ '\n' ∧ c ≠ '\r' := by
  cases h with
  | @unrecognized c _ visible strange =>
    refine ⟨c, [], rfl, ?_, ?_⟩
    · rintro rfl
      exact strange ['\n'] after .newline ['\n'] rfl .newline
    · rintro rfl
      exact absurd visible (by decide)
  | unterminated => exact ⟨_, _, rfl, by decide, by decide⟩
  | tooLarge digits =>
    exact ⟨_, _, rfl, ne_of_isWordChar (isWordChar_of_isDigit (digits _ List.mem_cons_self))⟩

theorem Token.StandsAt.exists_first {t : Token} (h : t.StandsAt before rest)
    (solid : t.kind ≠ .newline) : ∃ c cs, rest = c :: cs ∧ c ≠ '\n' ∧ c ≠ '\r' := by
  obtain ⟨-, span, after, rfl, item⟩ := h
  obtain ⟨c, cs, rfl, feed, carriage⟩ := item.exists_first solid
  exact ⟨c, cs ++ after, rfl, feed, carriage⟩

theorem LexError.StandsAt.exists_first {e : LexError} (h : e.StandsAt before rest) :
    ∃ c cs, rest = c :: cs ∧ c ≠ '\n' ∧ c ≠ '\r' := by
  obtain ⟨-, span, after, rfl, faulty⟩ := h
  obtain ⟨c, cs, rfl, feed, carriage⟩ := faulty.exists_first
  exact ⟨c, cs ++ after, rfl, feed, carriage⟩

end Beginning

/-- Where no item begins, the fault is the one that the text has there. -/
theorem exists_faulty {c : Char} {cs : List Char} {fault : LexError.Fault}
    (visible : isBlank c = false)
    (unreadable : ∀ span after kind value, c :: cs = span ++ after →
      ¬ Lexeme span after kind value)
    (cause : fault.BeginsWith c) :
    ∃ span after, c :: cs = span ++ after ∧ Faulty span after fault := by
  cases fault with
  | unrecognized ch =>
    obtain rfl : ch = c := cause
    exact ⟨[ch], cs, rfl, .unrecognized visible unreadable⟩
  | unterminated =>
    obtain rfl : c = '"' := cause
    obtain ⟨text, after, rfl, -, inside, stop⟩ := exists_plain_run cs
    refine ⟨'"' :: text, after, rfl, .unterminated inside stop ?_⟩
    rintro written rest contents rfl stands
    exact unreadable ('"' :: (written ++ ['"'])) (rest ++ after) .quoted contents (by simp)
      (.quoted stands)
  | tooLarge =>
    obtain ⟨digits, after, rfl, -, inside, stop⟩ := exists_run (p := Char.isDigit) cs
    have all : ∀ d ∈ c :: digits, d.isDigit = true := List.forall_mem_cons.2 ⟨cause, inside⟩
    refine ⟨c :: digits, after, rfl, .tooLarge all ?_ stop⟩
    by_contra small
    exact unreadable (c :: digits) after .number _ rfl (.number all (Nat.lt_of_not_le small) stop)

theorem Piece.Stand.standsAt {ps : List Piece} {p : Piece} {rest : List Char}
    (stand : Stand [] ps rest) (mem : p ∈ ps) :
    ∃ before left, sources ps ++ rest = before ++ left ∧ p.token.StandsAt before left := by
  obtain ⟨earlier, later, rfl⟩ := List.append_of_mem mem
  have here := stand earlier p later rfl
  refine ⟨sources earlier ++ p.gap, p.span ++ (sources later ++ rest), ?_, here.place, p.span,
    sources later ++ rest, rfl, here.item⟩
  simp [sources, source]

theorem standsAt_of_tokenizeWithComments (text : String) :
    match tokenizeWithComments text with
    | .ok ts => ∀ t ∈ ts, ∃ before rest, text.toList = before ++ rest ∧ t.StandsAt before rest
    | .error e => ∃ before rest, text.toList = before ++ rest ∧ e.StandsAt before rest := by
  obtain ⟨ps, rest, last, clear, laid⟩ := exists_laid [] text.toList (fresh_nil _)
  have read : tokenizeWithComments text = (do
      let us ← last.mapM id
      return ps.map Piece.token ++ us) := by
    have yields := congrArg (List.mapM id) laid.yields
    have each : (ps.mapM fun p => (.ok p.token : Except LexError Token)) =
        .ok (ps.map Piece.token) := List.mapM_pure
    rw [List.mapM_append, List.mapM_map, Function.id_comp, each] at yields
    exact yields
  rw [read]
  cases laid.stops with
  | ended =>
    show ∀ t ∈ ps.map Piece.token ++ [], _
    rw [List.append_nil, List.forall_mem_map, laid.whole]
    exact fun p mem => laid.stand.standsAt mem
  | @failed _ cs c _ _ _ visible unreadable cause counted =>
    refine ⟨Piece.sources ps ++ clear, c :: cs, ?_, ?_, exists_faulty visible unreadable cause⟩
    · rw [laid.whole, List.append_assoc]
    · rw [counted]
      exact ⟨rfl, rfl⟩

theorem standsAt_of_tokenize (text : String) :
    match tokenize text with
    | .ok ts => ∀ t ∈ ts, ∃ before rest, text.toList = before ++ rest ∧ t.StandsAt before rest
    | .error e => ∃ before rest, text.toList = before ++ rest ∧ e.StandsAt before rest := by
  have dropping := Lexer.tokens_dropping .start text.toList
  have stands := standsAt_of_tokenizeWithComments text
  cases read : tokenizeWithComments text with
  | error e =>
    rw [read] at stands
    rw [show tokenize text = .error e from dropping.trans (congrArg _ read)]
    exact stands
  | ok ts =>
    rw [read] at stands
    rw [show tokenize text = .ok _ from dropping.trans (congrArg _ read)]
    exact fun t mem => stands t (List.mem_filter.1 mem).1

end ActorScript
