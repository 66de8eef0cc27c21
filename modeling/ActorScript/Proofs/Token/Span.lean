import ActorScript.Proofs.Token.Longest
import Mathlib.Logic.Function.Iterate

/-!
Where the tokens of a text stand in it. A text is blanks and spans by turns, a token for each span,
up to its end or to the first character with which no item begins. Places are kept character by
character while reading; they are those that a count over the whole text in front of them gives.
-/
namespace ActorScript

namespace Place

/-- The place behind a text, counted over the whole of it. -/
def behind (cs : List Char) : Place :=
  ⟨1 + cs.count '\n', 1 + (cs.reverse.takeWhile (· ≠ '\n')).length, cs.length⟩

theorem afterAll_start (cs : List Char) : start.afterAll cs = behind cs := by
  induction cs using List.reverseRecOn with
  | nil => rfl
  | append_singleton cs c ih =>
    rw [afterAll_append, ih, afterAll_cons, afterAll_nil, after]
    by_cases feed : c = '\n'
    · simp [behind, feed]
      omega
    · simp [behind, feed]
      omega

theorem afterAll_behind (before cs : List Char) :
    (behind before).afterAll cs = behind (before ++ cs) := by
  rw [← afterAll_start, ← afterAll_start, afterAll_append]

end Place

/-- How a span is written for a token: as its value, but for strings and comments. -/
def Token.SpelledBy (t : Token) (span : List Char) : Prop :=
  match t.kind with
  | .quoted => ∃ written, span = '"' :: (written ++ ['"']) ∧ InQuotes written t.value.toList
  | .comment => span = '/' :: '/' :: t.value.toList
  | _ => span = t.value.toList

/-- A token, the span it stands for, and the blanks in front of that. -/
structure Piece where
  gap : List Char
  span : List Char
  token : Token

namespace Piece

def source (p : Piece) : List Char := p.gap ++ p.span

def sources (ps : List Piece) : List Char := ps.flatMap source

theorem sources_nil : sources [] = [] := rfl

theorem sources_cons (p : Piece) (ps : List Piece) : sources (p :: ps) = p.source ++ sources ps :=
  rfl

/-- What holds of a piece between `before` and `after`. -/
structure StandsIn (p : Piece) (before after : List Char) : Prop where
  blank : ∀ c ∈ p.gap, isBlank c = true
  nonempty : p.span ≠ []
  item : Lexeme p.span after p.token.kind p.token.value.toList
  place : p.token.place = .behind (before ++ p.gap)
  spelled : p.token.SpelledBy p.span
  word : p.token.kind = .word → Longest IsWord (before ++ p.gap) p.span after
  number : p.token.kind = .number → Longest IsNumber (before ++ p.gap) p.span after
  angle : p.span = ['<'] ∨ p.span = ['>'] → after.head? ≠ some '='

/-- The pieces take up a text between `before` and `after`, one behind the other. -/
def Stand (before : List Char) (ps : List Piece) (after : List Char) : Prop :=
  ∀ earlier p later, ps = earlier ++ p :: later →
    p.StandsIn (before ++ sources earlier) (sources later ++ after)

theorem stand_nil (before after : List Char) : Stand before [] after := by
  intro earlier p later eq
  simp at eq

theorem stand_cons {before after : List Char} {p : Piece} {ps : List Piece}
    (first : p.StandsIn before (sources ps ++ after))
    (others : Stand (before ++ p.source) ps after) : Stand before (p :: ps) after := by
  intro earlier q later eq
  cases earlier with
  | nil =>
    obtain ⟨rfl, rfl⟩ := List.cons.inj eq
    simpa [sources] using first
  | cons _ earlier =>
    obtain ⟨rfl, rfl⟩ := List.cons.inj eq
    simpa [sources] using others earlier q later rfl

end Piece

section Items

variable {c : Char} {cs span before after value gap : List Char} {kind : Token.Kind}

theorem Lexeme.span_ne_nil (h : Lexeme span after kind value) : span ≠ [] := by
  cases h <;> exact List.cons_ne_nil _ _

theorem Lexeme.not_equals (h : Lexeme [c] after kind value) (angle : c = '<' ∨ c = '>') :
    after.head? ≠ some '=' := by
  intro equals
  have read := read_of_lexeme h
  rcases angle with rfl | rfl <;> simp [Item.read, equals] at read

/-- The piece that a span makes, with a gap in front of it, behind `before`. -/
def Piece.of (before gap span : List Char) (kind : Token.Kind) (value : List Char) : Piece :=
  ⟨gap, span, kind, String.ofList value, .behind (before ++ gap)⟩

theorem standsIn_of_lexeme (h : Lexeme span after kind value)
    (blank : ∀ c ∈ gap, isBlank c = true) (fresh : Fresh (before ++ gap) (span ++ after)) :
    (Piece.of before gap span kind value).StandsIn before after where
  blank := blank
  nonempty := h.span_ne_nil
  item := by
    rw [Piece.of, String.toList_ofList]
    exact h
  place := rfl
  spelled := by
    rw [Piece.of, Token.SpelledBy, String.toList_ofList]
    cases h with
    | quoted stands => exact ⟨_, rfl, stands⟩
    | _ => rfl
  word := by
    rintro rfl
    cases h with
    | word letter inside stop =>
      have all := And.intro (isWordChar_of_isLetter letter) inside
      exact longest_of_parted ⟨⟨_, rfl, letter⟩, List.forall_mem_cons.2 all⟩ fresh.word stop
  number := by
    rintro rfl
    cases h with
    | number digits small stop =>
      exact longest_of_parted ⟨⟨_, rfl, digits _ List.mem_cons_self⟩, digits⟩ fresh.number stop
  angle := by
    rintro (rfl | rfl)
    · exact h.not_equals (.inl rfl)
    · exact h.not_equals (.inr rfl)

end Items

/-- The kind of a fault says with which character the item begins that could not be read. -/
def LexError.Fault.BeginsWith (c : Char) : LexError.Fault → Prop
  | .unrecognized ch => ch = c
  | .unterminated => c = '"'
  | .tooLarge => c.isDigit = true

theorem beginsWith_of_read {c : Char} {cs : List Char} {fault : LexError.Fault}
    (h : Item.read c cs = .error fault) : fault.BeginsWith c := by
  unfold Item.read at h
  grind [LexError.Fault.BeginsWith]

/-- How reading stops in `rest`, a text behind `before`: at its end, with nothing but blanks left,
or with an error at a character with which no item begins. `last` is what is yielded then, and
`clear` what stands in front of that character. -/
inductive Stops (before : List Char) :
    List Char → List (Except LexError Token) → List Char → Prop where
  | ended {rest : List Char} (blank : ∀ c ∈ rest, isBlank c = true) : Stops before rest [] rest
  | failed {gap cs : List Char} {c : Char} {fault : LexError.Fault} {place : Place}
      (blank : ∀ d ∈ gap, isBlank d = true) (visible : isBlank c = false)
      (unreadable : ∀ span after kind value, c :: cs = span ++ after →
        ¬ Lexeme span after kind value)
      (cause : fault.BeginsWith c) (counted : place = .behind (before ++ gap)) :
      Stops before (gap ++ c :: cs) [.error ⟨fault, place.line, place.column⟩] gap

namespace Lexer

/-- The reader behind one call; with nothing more to yield it stays as it is. -/
def advance (l : Lexer) : Lexer := (l.next?.map Prod.snd).getD l

def call (l : Lexer) (n : Nat) : Option (Except LexError Token) :=
  (advance^[n] l).next?.map Prod.fst

theorem call_eq (l : Lexer) (n : Nat) : l.call n = l.items[n]? := by
  induction n generalizing l with
  | zero =>
    cases next : l.next? with
    | none => simp [call, next, items_of_end next]
    | some found => simp [call, next, items_of_next next]
  | succ n ih =>
    have later : l.call (n + 1) = l.advance.call n := by
      rw [call, Function.iterate_succ_apply, call]
    rw [later, ih, advance]
    cases next : l.next? with
    | none => simp [items_of_end next]
    | some found => simp [items_of_next next]

end Lexer

theorem scan_gap {gap : List Char} (blank : ∀ c ∈ gap, isBlank c = true) (keep : Bool)
    (place : Place) (cs : List Char) :
    scan keep place (gap ++ cs) = scan keep (place.afterAll gap) cs := by
  induction gap generalizing place with
  | nil => rfl
  | cons c gap ih =>
    obtain ⟨first, others⟩ := List.forall_mem_cons.1 blank
    rw [List.cons_append, scan, if_pos first, ih others]
    rfl

namespace Lexer

def past (before rest : List Char) : Lexer := ⟨true, .behind before, rest⟩

variable {before after gap cs value : List Char} {c : Char} {kind : Token.Kind}

theorem items_past_blank (blank : ∀ c ∈ gap, isBlank c = true) : (past before gap).items = [] := by
  have ended := scan_gap blank true (.behind before) []
  rw [List.append_nil, scan] at ended
  exact items_of_end (by rw [next?, past, ended])

theorem items_past_fault {fault : LexError.Fault} {place : Place}
    (blank : ∀ c ∈ gap, isBlank c = true) (visible : isBlank c = false)
    (read : Item.read c cs = .error fault) (counted : place = .behind (before ++ gap)) :
    (past before (gap ++ c :: cs)).items = [.error ⟨fault, place.line, place.column⟩] := by
  have failed := scan_gap blank true (.behind before) (c :: cs)
  rw [scan, if_neg (by simp [visible]), read, Place.afterAll_behind, ← counted] at failed
  have stuck : next? ⟨true, .behind before, []⟩ = none := by rw [next?, scan]
  rw [past, items_of_next (by rw [next?, failed]), items_of_end stuck]

theorem items_past_lexeme (before : List Char) (blank : ∀ c ∈ gap, isBlank c = true)
    (visible : isBlank c = false) (h : Lexeme (c :: cs) after kind value) :
    (past before (gap ++ c :: cs ++ after)).items =
      .ok ⟨kind, String.ofList value, .behind (before ++ gap)⟩ ::
        (past (before ++ (gap ++ c :: cs)) after).items := by
  have found : scan true (.behind (before ++ gap)) (c :: (cs ++ after)) = _ :=
    scan_of_read _ visible (read_of_lexeme h) (by simp)
  rw [List.take_left, List.drop_left, ← Place.afterAll_cons, Place.afterAll_behind,
    ← Place.afterAll_behind before gap, ← scan_gap blank] at found
  apply items_of_next
  rw [next?, past]
  simp only [List.append_assoc, List.cons_append] at found ⊢
  rw [found, Place.afterAll_behind, past]

end Lexer

theorem not_lexeme_of_read {c : Char} {cs : List Char} {fault : LexError.Fault}
    (read : Item.read c cs = .error fault) (span after : List Char) (kind : Token.Kind)
    (value : List Char) (eq : c :: cs = span ++ after) : ¬ Lexeme span after kind value := by
  intro h
  cases span with
  | nil => cases h
  | cons d span =>
    obtain ⟨rfl, rfl⟩ := List.cons.inj eq
    simp [read_of_lexeme h] at read

theorem Stops.clear_prefix {before rest clear : List Char} {last : List (Except LexError Token)}
    (h : Stops before rest last clear) : clear <+: rest := by
  cases h with
  | ended => exact List.prefix_rfl
  | failed => exact List.prefix_append ..

/-- How a text `cs` behind `before` is read: as `ps` and a `rest` in which reading stops. -/
structure Laid (before cs : List Char) (ps : List Piece) (rest : List Char)
    (last : List (Except LexError Token)) (clear : List Char) : Prop where
  whole : cs = Piece.sources ps ++ rest
  stand : Piece.Stand before ps rest
  stops : Stops (before ++ Piece.sources ps) rest last clear
  yields : (Lexer.past before cs).items = (ps.map fun p => .ok p.token) ++ last
  yields_clear : (Lexer.past before (Piece.sources ps ++ clear)).items = ps.map fun p => .ok p.token

section Steps

variable {before gap cs after value rest clear : List Char} {c : Char}
  {last : List (Except LexError Token)}

theorem laid_of_blank (blank : ∀ c ∈ gap, isBlank c = true) :
    Laid before gap [] gap [] gap where
  whole := rfl
  stand := Piece.stand_nil _ _
  stops := .ended blank
  yields := Lexer.items_past_blank blank
  yields_clear := Lexer.items_past_blank blank

theorem laid_of_fault {fault : LexError.Fault} (before : List Char)
    (blank : ∀ c ∈ gap, isBlank c = true) (visible : isBlank c = false)
    (read : Item.read c cs = .error fault) :
    ∃ last, Laid before (gap ++ c :: cs) [] (gap ++ c :: cs) last gap := by
  have stops := Stops.failed blank visible (not_lexeme_of_read read) (beginsWith_of_read read)
    (rfl : Place.behind (before ++ gap) = _)
  refine ⟨_, rfl, Piece.stand_nil _ _, ?_, Lexer.items_past_fault blank visible read rfl,
    Lexer.items_past_blank blank⟩
  rw [Piece.sources_nil, List.append_nil]
  exact stops

/-- A span is read first, and then what is behind it, whatever that is. -/
theorem laid_of_lexeme {kind : Token.Kind} {ps : List Piece}
    (blank : ∀ c ∈ gap, isBlank c = true) (visible : isBlank c = false)
    (h : Lexeme (c :: cs) after kind value) (fresh : Fresh (before ++ gap) (c :: cs ++ after))
    (later : Laid (before ++ (gap ++ c :: cs)) after ps rest last clear) :
    Laid before (gap ++ c :: cs ++ after) (.of before gap (c :: cs) kind value :: ps)
      rest last clear := by
  have cut : Piece.sources ps ++ clear <+: after :=
    later.whole ▸ (List.prefix_append_right_inj _).2 later.stops.clear_prefix
  constructor
  · rw [Piece.sources_cons, List.append_assoc _ (Piece.sources ps), ← later.whole]
    rfl
  · refine Piece.stand_cons ?_ later.stand
    rw [← later.whole]
    exact standsIn_of_lexeme h blank fresh
  · rw [Piece.sources_cons, ← List.append_assoc before]
    exact later.stops
  · rw [Lexer.items_past_lexeme before blank visible h, later.yields]
    rfl
  · have shorter := Lexer.items_past_lexeme before blank visible (h.cut cut)
    rw [later.yields_clear, ← List.append_assoc] at shorter
    exact shorter

end Steps

theorem exists_laid (before cs : List Char) (fresh : Fresh before cs) :
    ∃ ps rest last clear, Laid before cs ps rest last clear := by
  -- along what is left; that a word or number is longest to its left too is what `fresh` carries
  induction length : cs.length using Nat.strongRecOn generalizing before cs with
  | ind n ih =>
    obtain ⟨gap, rest, rfl, -, blank, stop⟩ := exists_run (p := isBlank) cs
    cases rest with
    | nil =>
      rw [List.append_nil]
      exact ⟨[], gap, [], gap, laid_of_blank blank⟩
    | cons c cs =>
      have visible : isBlank c = false := stop c rfl
      cases read : Item.read c cs with
      | error fault =>
        obtain ⟨last, laid⟩ := laid_of_fault before blank visible read
        exact ⟨[], gap ++ c :: cs, last, gap, laid⟩
      | ok item =>
        obtain ⟨cs, after, rfl, -, lexeme⟩ := lexeme_of_read read
        have clean : Fresh (before ++ gap) (c :: cs ++ after) := fresh.gap blank
        have later : Fresh (before ++ (gap ++ c :: cs)) after := by
          rw [← List.append_assoc]
          exact clean.lexeme lexeme
        have shorter : after.length < n := by
          rw [← length]
          simp only [List.length_append, List.length_cons]
          omega
        obtain ⟨ps, rest, last, clear, laid⟩ := ih _ shorter _ _ later rfl
        have whole := laid_of_lexeme blank visible lexeme clean laid
        rw [List.append_assoc, List.cons_append] at whole
        exact ⟨_, rest, last, clear, whole⟩

/-- The tokens of a text stand for spans of it that follow one another, with blanks between them,
and their places are counted over the text in front of them. The text ends after them with blanks,
or else reading stops at the first character with which no item begins: with an error there, after
just the tokens that the text has if it ends before this character, and with nothing after it. -/
theorem tokens_stand_in_order (text : String) :
    ∃ (ps : List Piece) (rest : List Char) (last : List (Except LexError Token))
      (clear : List Char),
      text.toList = Piece.sources ps ++ rest ∧
      (∀ earlier p later, ps = earlier ++ p :: later →
        p.StandsIn (Piece.sources earlier) (Piece.sources later ++ rest)) ∧
      Stops (Piece.sources ps) rest last clear ∧
      (∀ n, (Lexer.start true text).call n = ((ps.map fun p => .ok p.token) ++ last)[n]?) ∧
      tokenizeWithComments (String.ofList (Piece.sources ps ++ clear)) =
        .ok (ps.map Piece.token) := by
  obtain ⟨ps, rest, last, clear, laid⟩ := exists_laid [] text.toList (fresh_nil _)
  refine ⟨ps, rest, last, clear, laid.whole, laid.stand, laid.stops, fun n => ?_, ?_⟩
  · rw [Lexer.call_eq, ← laid.yields]
    rfl
  · have yields := laid.yields_clear
    rw [tokenizeWithComments, Lexer.start, String.toList_ofList]
    exact (congrArg (List.mapM id) yields).trans (by rw [List.mapM_map]; exact List.mapM_pure)

end ActorScript
