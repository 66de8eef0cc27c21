import ActorScript.Proofs.Token.Shape

/-!
Writing tokens down and reading them again. Tokens that have values of their kinds come back, with
these kinds and values, from the text in which they stand one blank apart: the escapes of quoted
strings are undone, and no token runs into the next.
-/
namespace ActorScript

theorem takeWhile_append_stop {α : Type} {p : α → Bool} {run rest : List α}
    (inside : ∀ a ∈ run, p a = true) (stop : ∀ a ∈ rest.head?, p a = false) :
    (run ++ rest).takeWhile p = run := by
  rw [List.takeWhile_append_of_pos inside]
  cases rest with
  | nil => rw [List.takeWhile_nil, List.append_nil]
  | cons a rest =>
    rw [List.takeWhile_cons_of_neg (by simp [stop a rfl]), List.append_nil]

theorem read_word {c : Char} {cs rest : List Char} (letter : isLetter c = true)
    (inside : ∀ d ∈ cs, isWordChar d = true) (stop : ∀ d ∈ rest.head?, isWordChar d = false) :
    Item.read c (cs ++ rest) = .ok ⟨.word, c :: cs, cs.length⟩ := by
  have other (d : Char) (h : isLetter d = false) : c ≠ d := by
    rintro rfl
    simp [h] at letter
  simp [Item.read, takeWhile_append_stop inside stop, isDigit_of_isLetter letter, letter,
    other '\n' rfl, other '/' rfl, other '"' rfl, other '<' rfl, other '>' rfl, other '=' rfl,
    other ':' rfl, other ',' rfl]

theorem read_number {c : Char} {cs rest : List Char}
    (digits : ∀ d ∈ c :: cs, d.isDigit = true) (small : decimalValue (c :: cs) < Nat.pow 2 63)
    (stop : ∀ d ∈ rest.head?, d.isDigit = false) :
    Item.read c (cs ++ rest) = .ok ⟨.number, c :: cs, cs.length⟩ := by
  have digit : c.isDigit = true := digits c List.mem_cons_self
  have inside (d : Char) (mem : d ∈ cs) : d.isDigit = true := digits d (List.mem_cons_of_mem _ mem)
  have other (d : Char) (h : d.isDigit = false) : c ≠ d := by
    rintro rfl
    simp [h] at digit
  simp only [Item.read, takeWhile_append_stop inside stop, digit, small, if_true,
    other '\n' rfl, other '/' rfl, other '"' rfl, other '<' rfl, other '>' rfl, other '=' rfl,
    other ':' rfl, other ',' rfl, if_false, false_and, or_self]

theorem readQuoted_close (cs : List Char) : readQuoted ('"' :: cs) = some ([], 1) := by
  rw [readQuoted.eq_def]
  simp

theorem readQuoted_backslash {e : Char} (h : e ≠ '\n') (cs : List Char) :
    readQuoted ('\\' :: e :: cs) = (readQuoted cs).map fun r => (unescape e ++ r.1, r.2 + 2) := by
  rw [readQuoted.eq_def]
  simp [h]

theorem readQuoted_plain {c : Char} (quote : c ≠ '"') (feed : c ≠ '\n') (slash : c ≠ '\\')
    (cs : List Char) : readQuoted (c :: cs) = (readQuoted cs).map fun r => (c :: r.1, r.2 + 1) := by
  rw [readQuoted.eq_def]
  simp [quote, feed, slash]

theorem escape_cases (c : Char) :
    (∃ e, Token.escape c = ['\\', e] ∧ e ≠ '\n' ∧ unescape e = [c]) ∨
      Token.escape c = [c] ∧ c ≠ '"' ∧ c ≠ '\n' ∧ c ≠ '\\' := by
  by_cases quote : c = '"'
  · exact .inl ⟨'"', by simp [Token.escape, quote], by decide, by simp [unescape, quote]⟩
  by_cases feed : c = '\n'
  · exact .inl ⟨'n', by simp [Token.escape, feed], by decide, by simp [unescape, feed]⟩
  by_cases slash : c = '\\'
  · exact .inl ⟨'\\', by simp [Token.escape, slash], by decide, by simp [unescape, slash]⟩
  · exact .inr ⟨by simp [Token.escape, quote, feed, slash], quote, feed, slash⟩

theorem readQuoted_escape (cs rest : List Char) :
    readQuoted (cs.flatMap Token.escape ++ '"' :: rest) =
      some (cs, (cs.flatMap Token.escape).length + 1) := by
  induction cs with
  | nil => exact readQuoted_close rest
  | cons c cs ih =>
    rw [List.flatMap_cons, List.append_assoc, List.length_append]
    rcases escape_cases c with ⟨e, escaped, on_line, stands_for⟩ | ⟨plain, quote, feed, slash⟩
    · rw [escaped, List.cons_append, List.cons_append, List.nil_append,
        readQuoted_backslash on_line, ih, Option.map_some, stands_for]
      simp only [List.length_cons, List.length_nil, List.singleton_append]
      congr 2
      omega
    · rw [plain, List.singleton_append, readQuoted_plain quote feed slash, ih, Option.map_some]
      simp only [List.length_cons, List.length_nil]
      congr 2
      omega

theorem read_quoted (cs rest : List Char) :
    Item.read '"' (cs.flatMap Token.escape ++ '"' :: rest) =
      .ok ⟨.quoted, cs, (cs.flatMap Token.escape).length + 1⟩ := by
  simp [Item.read, readQuoted_escape]

theorem isBlank_iff {c : Char} : isBlank c = true ↔ c = ' ' ∨ c = '\t' ∨ c = '\r' := by
  simp [isBlank, or_assoc]

theorem read_sign {value : String} (sign : value ∈ ["<", ">", "<=", ">=", "=", ":"]) :
    ∃ c cs, value.toList = c :: cs ∧ isBlank c = false ∧
      ∀ rest : List Char, (∀ d ∈ rest.head?, d = ' ') →
        Item.read c (cs ++ rest) = .ok ⟨.operator, value.toList, cs.length⟩ := by
  simp only [List.mem_cons, List.not_mem_nil, or_false] at sign
  rcases sign with rfl | rfl | rfl | rfl | rfl | rfl
  · refine ⟨'<', [], by simp, rfl, fun rest blank => ?_⟩
    have stop : rest.head? ≠ some '=' := fun eq => absurd (blank '=' eq) (by decide)
    simp [Item.read, stop]
  · refine ⟨'>', [], by simp, rfl, fun rest blank => ?_⟩
    have stop : rest.head? ≠ some '=' := fun eq => absurd (blank '=' eq) (by decide)
    simp [Item.read, stop]
  · exact ⟨'<', ['='], by simp, rfl, fun _ _ => by simp [Item.read]⟩
  · exact ⟨'>', ['='], by simp, rfl, fun _ _ => by simp [Item.read]⟩
  · exact ⟨'=', [], by simp, rfl, fun _ _ => by simp [Item.read]⟩
  · exact ⟨':', [], by simp, rfl, fun _ _ => by simp [Item.read]⟩

theorem read_written {t : Token} (lexical : t.IsLexical) :
    ∃ c cs, t.written.toList = c :: cs ∧ isBlank c = false ∧
      ∀ rest : List Char, (∀ d ∈ rest.head?, d = ' ') →
        Item.read c (cs ++ rest) = .ok ⟨t.kind, t.value.toList, cs.length⟩ := by
  obtain ⟨kind, value, place⟩ := t
  cases kind with
  | word =>
    obtain ⟨c, cs, spelled, letter, inside⟩ := lexical
    refine ⟨c, cs, spelled, ?_, fun rest blank => ?_⟩
    · rw [Bool.eq_false_iff, Ne, isBlank_iff]
      rintro (rfl | rfl | rfl) <;> exact absurd letter (by decide)
    · rw [read_word letter inside fun d mem => by rw [blank d mem]; rfl, ← spelled]
  | number =>
    obtain ⟨c, cs, spelled, digits, small⟩ := lexical
    refine ⟨c, cs, spelled, ?_, fun rest blank => ?_⟩
    · rw [Bool.eq_false_iff, Ne, isBlank_iff]
      have digit := digits c List.mem_cons_self
      rintro (rfl | rfl | rfl) <;> exact absurd digit (by decide)
    · rw [read_number digits small fun d mem => by rw [blank d mem]; rfl, ← spelled]
  | quoted =>
    refine ⟨'"', value.toList.flatMap Token.escape ++ ['"'], String.toList_ofList .., rfl,
      fun rest _ => ?_⟩
    rw [List.append_assoc, List.singleton_append, read_quoted]
    simp
  | operator => exact read_sign lexical
  | punctuation =>
    obtain rfl : value = "," := lexical
    refine ⟨',', [], by simp [Token.written, Token.display], rfl, fun _ _ => ?_⟩
    simp [Item.read]
  | newline =>
    obtain rfl : value = "\n" := lexical
    refine ⟨'\n', [], by simp [Token.written], rfl, fun _ _ => ?_⟩
    simp [Item.read]
  | comment => exact lexical.elim

theorem scan_append {c : Char} {cs rest : List Char} {kind : Token.Kind} {value : String}
    (visible : isBlank c = false)
    (read : Item.read c (cs ++ rest) = .ok ⟨kind, value.toList, cs.length⟩)
    (no_comment : kind ≠ .comment) (place : Place) :
    ∃ next, scan false place (c :: cs ++ rest) = .found ⟨kind, value, place⟩ next rest := by
  refine ⟨(place.after c).afterAll cs, ?_⟩
  rw [List.cons_append, scan]
  simp [visible, read, no_comment]

/-- A written token is the first that is found, and what follows it is left. -/
theorem scan_written {t : Token} (lexical : t.IsLexical) (place : Place) (rest : List Char)
    (blank : ∀ d ∈ rest.head?, d = ' ') :
    ∃ next, scan false place (t.written.toList ++ rest) =
      .found ⟨t.kind, t.value, place⟩ next rest := by
  obtain ⟨c, cs, spelled, visible, read⟩ := read_written lexical
  have no_comment : t.kind ≠ .comment := by
    intro comment
    rw [Token.IsLexical, comment] at lexical
    exact lexical
  rw [spelled]
  exact scan_append visible (read rest blank) no_comment place

theorem scan_quoted (text : String) (place : Place) (rest : List Char) :
    ∃ next, scan false place ((Token.quote text).toList ++ rest) =
      .found ⟨.quoted, text, place⟩ next rest := by
  have read := read_quoted text.toList rest
  rw [Token.quote, String.toList_ofList, List.cons_append]
  refine scan_append (by decide) ?_ (by simp) place
  rw [List.append_assoc, List.singleton_append, read]
  simp

namespace Token

/-- What a token says, wherever it stands. -/
def spelling (t : Token) : Kind × String := (t.kind, t.value)

end Token

namespace Lexer

theorem tokens_written (ts : List Token) (lexical : ∀ t ∈ ts, t.IsLexical) (place : Place) :
    ∃ us, tokens ⟨false, place, [' '].intercalate (ts.map fun t => t.written.toList)⟩ = .ok us ∧
      us.map Token.spelling = ts.map Token.spelling := by
  induction ts generalizing place with
  | nil => exact ⟨[], tokens_of_ended (by rw [List.map_nil, List.intercalate_nil, scan]), rfl⟩
  | cons t ts ih =>
    have head := lexical t List.mem_cons_self
    have tail (u : Token) (mem : u ∈ ts) : u.IsLexical := lexical u (List.mem_cons_of_mem t mem)
    cases ts with
    | nil =>
      obtain ⟨next, found⟩ := scan_written head place [] (by simp)
      rw [List.append_nil] at found
      refine ⟨[⟨t.kind, t.value, place⟩], ?_, rfl⟩
      rw [List.map_singleton, List.intercalate_singleton, tokens_of_found found,
        tokens_of_ended (by rw [scan])]
      rfl
    | cons u ts =>
      let rest := [' '].intercalate ((u :: ts).map fun t => t.written.toList)
      obtain ⟨next, found⟩ := scan_written head place (' ' :: rest) (by simp)
      obtain ⟨us, read, same⟩ := ih tail (next.after ' ')
      refine ⟨⟨t.kind, t.value, place⟩ :: us, ?_, ?_⟩
      · rw [List.map_cons, List.map_cons, List.intercalate_cons_cons]
        rw [show t.written.toList ++ [' '] ++ [' '].intercalate _ = t.written.toList ++ ' ' :: rest
          by simp [rest], tokens_of_found found, tokens_blank (by decide), read]
        rfl
      · rw [List.map_cons, same, List.map_cons]
        rfl

end Lexer

theorem tokenize_rebuild (ts : List Token) (lexical : ∀ t ∈ ts, t.IsLexical) :
    ∃ us, tokenize (Token.rebuild ts) = .ok us ∧
      us.map Token.spelling = ts.map Token.spelling := by
  have written : (Token.rebuild ts).toList =
      [' '].intercalate (ts.map fun t => t.written.toList) := by
    rw [Token.rebuild, String.toList_intercalate, List.map_map]
    rfl
  rw [tokenize_eq, written]
  exact Lexer.tokens_written ts lexical .start

/-- Reading undoes writing: on all tokens whose values are of their kinds, among them all that any
text is read into, so that a text that is read, written and read again gives the same. -/
theorem reading_undoes_writing :
    (∀ ts : List Token, (∀ t ∈ ts, t.IsLexical) →
      ∃ us, tokenize (Token.rebuild ts) = .ok us ∧
        us.map Token.spelling = ts.map Token.spelling) ∧
    (∀ text ts, tokenize text = .ok ts → (∀ t ∈ ts, t.IsLexical) ∧
      ∃ us, tokenize (Token.rebuild ts) = .ok us ∧
        us.map Token.spelling = ts.map Token.spelling) := by
  refine ⟨tokenize_rebuild, fun text ts read => ?_⟩
  have lexical := isLexical_of_tokenize read
  exact ⟨lexical, tokenize_rebuild ts lexical⟩

/-- Quotes, backslashes, line feeds and carriage returns inside quotes are all read again. -/
theorem quoted_line_feed_read_again :
    let ts : List Token := [⟨.word, "say", .start⟩, ⟨.quoted, "\"\\n\n\r\\", .start⟩,
      ⟨.newline, "\n", .start⟩, ⟨.operator, "<", .start⟩, ⟨.operator, "=", .start⟩]
    (∀ t ∈ ts, t.IsLexical) ∧ ∃ us, tokenize (Token.rebuild ts) = .ok us ∧
      us.map Token.spelling = ts.map Token.spelling := by
  intro ts
  have lexical : ∀ t ∈ ts, t.IsLexical := by
    have word : Token.IsLexical ⟨.word, "say", .start⟩ :=
      ⟨'s', ['a', 'y'], by simp, rfl, List.all_eq_true.1 rfl⟩
    have less : "<" ∈ ["<", ">", "<=", ">=", "=", ":"] := by decide
    have equals : "=" ∈ ["<", ">", "<=", ">=", "=", ":"] := by decide
    simp only [ts, List.forall_mem_cons, List.not_mem_nil, false_implies, implies_true, and_true]
    exact ⟨word, trivial, rfl, less, equals⟩
  exact ⟨lexical, reading_undoes_writing.1 ts lexical⟩

end ActorScript
