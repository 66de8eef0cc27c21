import ActorScript.Proofs.Grammar.Spelling

/-!
The tokens of a source. For a command that can be spelled at all they spell it, with every number in
decimal, every optional word that says something, and no other.
-/
namespace ActorScript

open Computability Sentence

/-- The text can be a word of a script. -/
def isWordText (text : String) : Bool :=
  match text.toList with
  | [] => false
  | c :: cs => isLetter c && cs.all isWordChar

namespace Token

/-! Tokens as a source has them. Where they stand does not matter. -/

def ofWord (text : String) : Token := ⟨.word, text, .start⟩

def ofNumeral (n : Numeral) : Token := ⟨.number, n.render, .start⟩

def ofQuoted (text : String) : Token := ⟨.quoted, text, .start⟩

def ofComparison (c : Comparison) : Token := ⟨.operator, c.sign, .start⟩

def comma : Token := ⟨.punctuation, ",", .start⟩

@[simp] theorem value_ofWord (text : String) : (ofWord text).value = text := rfl

theorem isLexical_ofWord {text : String} (h : isWordText text = true) :
    (ofWord text).IsLexical := by
  unfold isWordText at h
  split at h
  · simp at h
  · rename_i c cs spelled
    simp only [Bool.and_eq_true, List.all_eq_true] at h
    exact ⟨c, cs, spelled, h⟩

theorem decimalValue_toDigits (n : Nat) : decimalValue (Nat.toDigits 10 n) = n :=
  Nat.ofDigitChars_ten_toDigits

theorem toList_render (n : Numeral) : n.render.toList = Nat.toDigits 10 n.val := by
  rw [Numeral.render, Nat.toString_eq_repr, Nat.toList_repr]

theorem isLexical_ofNumeral (n : Numeral) : (ofNumeral n).IsLexical := by
  have spelled := toList_render n
  have value := decimalValue_toDigits n.val
  have digits : ∀ d ∈ Nat.toDigits 10 n.val, d.isDigit = true := fun d mem =>
    Nat.isDigit_of_mem_toDigits (by decide) (by decide) mem
  cases all : Nat.toDigits 10 n.val with
  | nil => exact absurd all Nat.toDigits_ne_nil
  | cons c cs =>
    rw [all] at spelled value digits
    exact ⟨c, cs, spelled, digits, value ▸ n.val_lt⟩

theorem numeral?_ofNumeral (n : Numeral) : (ofNumeral n).numeral? = some n := by
  show Numeral.ofDigits? n.render.toList = some n
  rw [toList_render, Numeral.ofDigits?, dif_pos (by rw [decimalValue_toDigits]; exact n.val_lt)]
  exact congrArg some (Numeral.ext (decimalValue_toDigits n.val))

end Token

open Token

namespace Sentence

/-- A word of a language, of tokens that a text can have. -/
structure Written (l : Language Token) (w : List Token) : Prop where
  word : w ∈ l
  lexical : ∀ t ∈ w, t.IsLexical

def Writable (l : Language Token) : Prop := ∃ w, Written l w

variable {l m : Language Token} {u v : List Token}

theorem Written.append (first : Written l u) (later : Written m v) : Written (l * m) (u ++ v) where
  word := Language.append_mem_mul first.word later.word
  lexical t mem := (List.mem_append.1 mem).elim (first.lexical t) (later.lexical t)

theorem Writable.of_mul (writable : Writable (l * m)) : Writable l ∧ Writable m := by
  obtain ⟨_, word, lexical⟩ := writable
  obtain ⟨u, first, v, later, rfl⟩ := Language.mem_mul.1 word
  obtain ⟨lexical_u, lexical_v⟩ := List.forall_mem_append.1 lexical
  exact ⟨⟨u, first, lexical_u⟩, v, later, lexical_v⟩

theorem written_one : Written 1 [] := ⟨rfl, by simp⟩

theorem written_singleWord {p : Token → Prop} {t : Token} (has : p t) (lexical : t.IsLexical) :
    Written (singleWord p) [t] := ⟨⟨t, has, rfl⟩, by simpa using lexical⟩

theorem written_key {text : String} (h : isWordText text = true) :
    Written (key text) [ofWord text] :=
  written_singleWord ⟨rfl, sameWord_refl text⟩ (isLexical_ofWord h)

theorem isWordChar_iff {c : Char} :
    isWordChar c = true ↔ isLetter c = true ∨ c.isDigit = true := by
  simp only [isWordChar, isLetter, Char.isAlphanum, Bool.or_eq_true]
  tauto

theorem isWordChar_toLower {c : Char} (inside : isWordChar c = true) :
    isWordChar c.toLower = true := by
  rcases isWordChar_iff.1 inside with letter | digit
  · exact isWordChar_iff.2 (.inl (isLetter_toLower letter))
  · rwa [toLower_of_isDigit digit]

theorem isLexical_ofName {t : Token} (lexical : t.IsLexical) (word : t.kind = .word) :
    (ofWord (Grammar.nameOf t)).IsLexical := by
  rw [IsLexical, word] at lexical
  obtain ⟨c, cs, spelled, letter, inside⟩ := lexical
  refine ⟨c.toLower, cs.map Char.toLower, ?_, isLetter_toLower letter, ?_⟩
  · show (lowerCase t.value).toList = _
    rw [toList_lowerCase, spelled, List.map_cons]
  · intro d mem
    obtain ⟨e, among, rfl⟩ := List.mem_map.1 mem
    exact isWordChar_toLower (inside e among)

theorem nameOf_ofName (t : Token) : Grammar.nameOf (ofWord (Grammar.nameOf t)) = Grammar.nameOf t :=
  lowerCase_lowerCase t.value

theorem written_nameBut {texts : List String} {text : String} (h : Writable (nameBut texts text)) :
    Written (nameBut texts text) [ofWord text] := by
  obtain ⟨_, ⟨t, ⟨word, apart, rfl⟩, rfl⟩, lexical⟩ := h
  refine written_singleWord ⟨rfl, fun other mem => ?_, nameOf_ofName t⟩
    (isLexical_ofName (lexical t List.mem_cons_self) word)
  rw [← apart other mem]
  exact sameWord_congr (sameWord_iff.2 (lowerCase_lowerCase t.value)) other

theorem written_name {text : String} (h : Writable (name text)) :
    Written (name text) [ofWord text] := by
  obtain ⟨_, ⟨t, ⟨word, rfl⟩, rfl⟩, lexical⟩ := h
  exact written_singleWord ⟨rfl, nameOf_ofName t⟩
    (isLexical_ofName (lexical t List.mem_cons_self) word)

theorem written_numeral (n : Numeral) : Written n.spellings [ofNumeral n] :=
  written_singleWord ⟨rfl, numeral?_ofNumeral n⟩ (isLexical_ofNumeral n)

theorem written_count (n : Numeral) : Written n.countSpellings [ofNumeral n] :=
  ⟨.inl (written_numeral n).word, (written_numeral n).lexical⟩

theorem written_quoted (text : String) : Written (quotedAs text) [ofQuoted text] :=
  written_singleWord ⟨rfl, rfl⟩ trivial

theorem written_comma : Written Sentence.comma [Token.comma] := written_singleWord rfl rfl

theorem written_comparison (c : Comparison) : Written c.spellings [ofComparison c] := by
  refine written_singleWord ⟨rfl, rfl⟩ ?_
  show c.sign ∈ ["<", ">", "<=", ">=", "=", ":"]
  cases c <;> decide

theorem written_turn (turn : Turn) : Written turn.spellings [ofWord turn.keyword] := by
  have known : Turn.named? turn.keyword = some turn ∧ isWordText turn.keyword = true := by
    cases turn <;> decide
  exact written_singleWord ⟨rfl, known.1⟩ (isLexical_ofWord known.2)

theorem written_aim {text : String} {aim : Aim} (listed : (text, aim) ∈ Aim.words) :
    Written aim.spellings [ofWord text] := by
  have known : ∀ entry ∈ Aim.words,
      Aim.named? entry.1 = some entry.2 ∧ isWordText entry.1 = true := by decide
  obtain ⟨named, word⟩ := known _ listed
  exact written_singleWord ⟨rfl, named⟩ (isLexical_ofWord word)

theorem written_color (color : Color) : Written color.spellings [ofWord color.render] := by
  have known : Color.named? color.render = some color ∧ isWordText color.render = true := by
    cases color <;> decide +kernel
  exact written_singleWord ⟨rfl, known.1⟩ (isLexical_ofWord known.2)

end Sentence

/-- The tokens of what may be left out. -/
def perhapsTokens {α : Type} (tokens : α → List Token) : Option α → List Token
  | none => []
  | some a => tokens a

def flagTokens (text : String) (isSet : Bool) : List Token := if isSet then [ofWord text] else []

def seriesTokens : List String → List Token
  | [] => []
  | [text] => [ofQuoted text]
  | text :: next :: texts => ofQuoted text :: Token.comma :: seriesTokens (next :: texts)

def nameTokens (text : String) : List Token := [ofWord text]

def Tile.tokens (t : Tile) : List Token :=
  perhapsTokens (fun color => [ofWord color.render]) t.color ++ nameTokens t.thing

section Tokens

variable (spell : Aim → String)

def Heading.tokens (h : Heading) : List Token :=
  h.turns.map (fun turn => ofWord turn.keyword) ++ [ofWord (spell h.aim)]

def Condition.tokens : Condition → List Token
  | .not inner => ofWord "NOT" :: inner.tokens
  | .adjacent => [ofWord "ADJACENT"]
  | .blocked heading => ofWord "BLOCKED" :: heading.tokens spell
  | .aligned heading => ofWord "ALIGNED" :: perhapsTokens (Heading.tokens spell) heading
  | .peep radius => [ofWord "PEEP", ofNumeral radius]
  | .present tile count => ofWord "EXISTS" :: (tile.tokens ++ [ofNumeral count])
  | .testing counter comparison value =>
    [ofWord "TESTING", ofWord counter, ofComparison comparison, ofNumeral value]

def Command.operandTokens : Command → List Token
  | .move heading count forceful =>
    heading.tokens spell ++ ([ofNumeral count] ++ flagTokens "FORCE" forceful)
  | .attempt heading otherwise => heading.tokens spell ++ perhapsTokens nameTokens otherwise
  | .wait ticks => [ofNumeral ticks]
  | .say text => [ofQuoted text]
  | .scroll lines => seriesTokens lines
  | .jumpIf condition label => condition.tokens spell ++ [ofWord "THEN", ofWord label]
  | .put heading tile => heading.tokens spell ++ tile.tokens
  | .send recipient message => perhapsTokens nameTokens recipient ++ nameTokens message
  | .set counter value => [ofWord counter, ofNumeral value]
  | .give counter amount => [ofWord counter, ofNumeral amount]
  | .take counter amount otherwise =>
    [ofWord counter] ++ ([ofNumeral amount] ++ perhapsTokens nameTokens otherwise)
  | .become tile => tile.tokens
  | .change source target => source.tokens ++ target.tokens
  | .char code => [ofNumeral code]
  | .torch radius => [ofNumeral radius]
  | .shoot heading | .throwStar heading | .walk heading => heading.tokens spell
  | .restore label | .zap label => nameTokens label
  | .play tune exclusive => [ofQuoted tune] ++ flagTokens "EXCLUSIVE" exclusive
  | .finish | .die | .stand | .lock | .unlock => []

def Command.tokens (c : Command) : List Token := ofWord c.keyword :: c.operandTokens spell

end Tokens

namespace Sentence

theorem written_perhaps {α : Type} {spellings : α → Language Token} {tokens : α → List Token}
    (each : ∀ a, Writable (spellings a) → Written (spellings a) (tokens a)) {a : Option α}
    (h : Writable (perhaps spellings a)) :
    Written (perhaps spellings a) (perhapsTokens tokens a) := by
  cases a with
  | none => exact written_one
  | some a => exact each a h

theorem written_flag {text : String} (word : isWordText text = true) (isSet : Bool) :
    Written (flag text isSet) (flagTokens text isSet) := by
  cases isSet with
  | false => exact written_one
  | true => exact written_key word

theorem written_series {lines : List String} (h : Writable (series lines)) :
    Written (series lines) (seriesTokens lines) := by
  induction lines with
  | nil =>
    obtain ⟨w, word, -⟩ := h
    exact absurd word (Language.notMem_zero w)
  | cons text lines ih =>
    cases lines with
    | nil => exact written_quoted text
    | cons next lines =>
      exact (written_quoted text).append (written_comma.append (ih h.of_mul.2.of_mul.2))

theorem written_counter {texts : List String} {text counter : String}
    (h : Writable (key text * name counter + nameBut texts counter)) :
    Written (name counter) [ofWord counter] := by
  obtain ⟨w, word, lexical⟩ := h
  apply written_name
  rcases (Language.mem_add _ _ _).1 word with keyed | ⟨t, ⟨bare, -, same⟩, rfl⟩
  · exact (Writable.of_mul ⟨w, keyed, lexical⟩).2
  · exact ⟨[t], ⟨t, ⟨bare, same⟩, rfl⟩, lexical⟩

theorem written_jump {label : String} (h : Writable (jump label)) :
    Written (jump label) [ofWord "THEN", ofWord label] := by
  have keyed : Written (key "THEN") [ofWord "THEN"] := written_key (by decide)
  have then_word : Written (maybe (key "THEN")) [ofWord "THEN"] := ⟨.inl keyed.word, keyed.lexical⟩
  have no_colon : Written (maybe (sign ":")) [] := ⟨nil_mem_maybe _, by simp⟩
  exact then_word.append (no_colon.append (written_nameBut h.of_mul.2.of_mul.2))

theorem written_tile {t : Tile} (h : Writable t.spellings) : Written t.spellings t.tokens :=
  (written_perhaps (fun color _ => written_color color) h.of_mul.1).append
    (written_name h.of_mul.2)

variable {spell : Aim → String} (listed : ∀ aim, (spell aim, aim) ∈ Aim.words)

include listed

theorem written_heading (h : Heading) : Written h.spellings (h.tokens spell) := by
  obtain ⟨aim, turns⟩ := h
  induction turns with
  | nil => exact written_one.append (written_aim (listed aim))
  | cons turn turns ih =>
    have more := (written_turn turn).append ih
    rwa [← turn_heading] at more

theorem written_condition {q : Condition} (h : Writable q.spellings) :
    Written q.spellings (q.tokens spell) := by
  induction q with
  | not inner ih => exact (written_key (by decide)).append (ih h.of_mul.2)
  | adjacent => exact written_key (by decide)
  | blocked heading => exact (written_key (by decide)).append (written_heading listed heading)
  | aligned heading =>
    exact (written_key (by decide)).append
      (written_perhaps (fun heading _ => written_heading listed heading) h.of_mul.2)
  | peep radius => exact (written_key (by decide)).append (written_numeral radius)
  | present tile count =>
    exact (written_key (by decide)).append
      ((written_tile h.of_mul.2.of_mul.1).append (written_count count))
  | testing counter comparison value =>
    have keyed : Written (key "TESTING") [ofWord "TESTING"] := written_key (by decide)
    have tested := keyed.append (written_counter h.of_mul.1)
    have longest : Written (key "TESTING" * name counter +
        nameBut Grammar.conditionKeywords counter) _ := ⟨.inl tested.word, tested.lexical⟩
    exact longest.append ((written_comparison comparison).append (written_numeral value))

theorem written_operands {c : Command} (h : Writable c.operandSpellings) :
    Written c.operandSpellings (c.operandTokens spell) := by
  cases c with
  | move heading count forceful =>
    exact (written_heading listed heading).append
      ((written_count count).append (written_flag (by decide) forceful))
  | attempt heading otherwise =>
    exact (written_heading listed heading).append
      (written_perhaps (fun _ => written_name) h.of_mul.2)
  | wait ticks => exact written_count ticks
  | say text => exact written_quoted text
  | scroll lines => exact written_series h
  | jumpIf condition label =>
    exact (written_condition listed h.of_mul.1).append (written_jump h.of_mul.2)
  | put heading tile => exact (written_heading listed heading).append (written_tile h.of_mul.2)
  | send recipient message =>
    exact (written_perhaps (fun _ => written_name) h.of_mul.1).append (written_name h.of_mul.2)
  | set counter value => exact (written_name h.of_mul.1).append (written_numeral value)
  | give counter amount => exact (written_name h.of_mul.1).append (written_numeral amount)
  | take counter amount otherwise =>
    exact (written_name h.of_mul.1).append ((written_numeral amount).append
      (written_perhaps (fun _ => written_name) h.of_mul.2.of_mul.2))
  | become tile => exact written_tile h
  | change source target => exact (written_tile h.of_mul.1).append (written_tile h.of_mul.2)
  | char code => exact written_numeral code
  | torch radius => exact written_numeral radius
  | shoot heading => exact written_heading listed heading
  | throwStar heading => exact written_heading listed heading
  | walk heading => exact written_heading listed heading
  | restore label => exact written_name h
  | zap label => exact written_name h
  | play tune exclusive => exact (written_quoted tune).append (written_flag (by decide) exclusive)
  | finish => exact written_one
  | die => exact written_one
  | stand => exact written_one
  | lock => exact written_one
  | unlock => exact written_one

theorem written_command {c : Command} (h : Writable c.spellings) :
    Written c.spellings (c.tokens spell) := by
  have words : ∀ text ∈ commandForms.map (·.1), isWordText text = true := by decide
  obtain ⟨form, known, keyword, -⟩ := exists_form c
  have word : isWordText c.keyword = true := keyword ▸ words _ (List.mem_map_of_mem known)
  exact (written_key word).append (written_operands listed h.of_mul.2)

end Sentence
end ActorScript
