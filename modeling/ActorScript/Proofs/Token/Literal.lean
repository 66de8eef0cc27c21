import ActorScript.Proofs.Token.Shape
import ActorScript.Token.Terminal

/-!
Rules ask for texts and not for kinds. No two kinds of token begin alike, so that a token of a text
shows a name only if it is a word, and a sign only if it is an operator.
-/
namespace ActorScript

theorem sameWord_congr {a b : String} (same : sameWord a b = true) (c : String) :
    sameWord a c = sameWord b c := by
  rw [sameWord, sameWord, sameWord_iff.1 same]

def initial? (s : String) : Option Char := s.toList.head?.map Char.toLower

theorem initial?_of_sameWord {a b : String} (same : sameWord a b = true) :
    initial? a = initial? b := by
  have texts := congrArg String.toList (sameWord_iff.1 same)
  rw [toList_lowerCase, toList_lowerCase] at texts
  rw [initial?, initial?, ← List.head?_map, ← List.head?_map, texts]

theorem toLower_cases (c : Char) :
    c.toLower = c ∨ 65 ≤ c.val.toNat ∧ c.val.toNat ≤ 90 ∧
      c.toLower.val.toNat = c.val.toNat + 32 := by
  by_cases capital : c.val ≥ 'A'.val ∧ c.val ≤ 'Z'.val
  · right
    have moved : c.toLower.val = c.val + 32 := by
      delta Char.toLower
      rw [dif_pos capital]
      rfl
    simp only [ge_iff_le, UInt32.le_iff_toNat_le] at capital
    have first : 65 ≤ c.val.toNat := capital.1
    have last : c.val.toNat ≤ 90 := capital.2
    refine ⟨first, last, ?_⟩
    rw [moved, UInt32.toNat_add]
    have : (32 : UInt32).toNat = 32 := rfl
    omega
  · left
    delta Char.toLower
    exact dif_neg capital

theorem toLower_of_isDigit {c : Char} (digit : c.isDigit = true) : c.toLower = c := by
  have := isDigit_iff.1 digit
  rcases toLower_cases c with same | capital
  · exact same
  · omega

theorem isLetter_toLower {c : Char} (letter : isLetter c = true) : isLetter c.toLower = true := by
  rcases toLower_cases c with same | capital
  · rw [same, letter]
  · exact isLetter_iff.2 (.inr (.inl (by omega)))

theorem lowerCase_lowerCase (s : String) : lowerCase (lowerCase s) = lowerCase s := by
  rw [← String.toList_inj, toList_lowerCase, toList_lowerCase, List.map_map]
  apply List.map_congr_left
  intro c _
  rcases toLower_cases c with same | capital
  · simp [same]
  · rcases toLower_cases c.toLower with same | again
    · exact same
    · omega

/-- The kind of token that begins like this text, outside quotes. -/
def kindOf? (text : String) : Option Token.Kind :=
  (initial? text).map fun c =>
    if isLetter c then .word
    else if c.isDigit then .number
    else if c = ',' then .punctuation
    else if c = '\n' then .newline
    else .operator

namespace Token

variable {t : Token} {text : String} {texts : List String}

theorem kindOf?_value (lexical : t.IsLexical) (bare : t.kind ≠ .quoted) :
    kindOf? t.value = some t.kind := by
  obtain ⟨kind, value, place⟩ := t
  cases kind with
  | word =>
    obtain ⟨c, cs, spelled, letter, -⟩ := lexical
    simp [kindOf?, initial?, spelled, isLetter_toLower letter]
  | number =>
    obtain ⟨c, cs, spelled, digits, -⟩ := lexical
    have digit := digits c List.mem_cons_self
    have no_letter : isLetter c = false := by
      rw [Bool.eq_false_iff]
      intro letter
      simp [isDigit_of_isLetter letter] at digit
    simp [kindOf?, initial?, spelled, toLower_of_isDigit digit, no_letter, digit]
  | quoted => exact absurd rfl bare
  | operator =>
    have all : ∀ sign ∈ ["<", ">", "<=", ">=", "=", ":"], kindOf? sign = some .operator := by decide
    exact all value lexical
  | punctuation =>
    obtain rfl : value = "," := lexical
    show kindOf? "," = some .punctuation
    decide
  | newline =>
    obtain rfl : value = "\n" := lexical
    show kindOf? "\n" = some .newline
    decide
  | comment => exact lexical.elim

theorem isLiteral_iff :
    t.isLiteral text = true ↔ t.kind ≠ .quoted ∧ sameWord t.value text = true := by
  simp [isLiteral, isQuoted]

theorem kindOf?_of_isLiteral (lexical : t.IsLexical) (shown : t.isLiteral text = true) :
    kindOf? text = some t.kind := by
  obtain ⟨bare, same⟩ := isLiteral_iff.1 shown
  rw [← kindOf?_value lexical bare, kindOf?, kindOf?, initial?_of_sameWord same]

theorem isLiteral_name (name : kindOf? text = some .word) (lexical : t.IsLexical) :
    t.isLiteral text = true ↔ t.kind = .word ∧ sameWord t.value text = true := by
  constructor
  · intro shown
    have kind := kindOf?_of_isLiteral lexical shown
    rw [name] at kind
    exact ⟨(Option.some.inj kind).symm, (isLiteral_iff.1 shown).2⟩
  · rintro ⟨word, same⟩
    exact isLiteral_iff.2 ⟨by simp [word], same⟩

theorem isLiteral_sign (sign : text ∈ ["<", ">", "<=", ">=", "=", ":"]) (lexical : t.IsLexical) :
    t.isLiteral text = true ↔ t.kind = .operator ∧ t.value = text := by
  have all : ∀ a ∈ ["<", ">", "<=", ">=", "=", ":"], kindOf? a = some .operator ∧
      ∀ b ∈ ["<", ">", "<=", ">=", "=", ":"], sameWord b a = true → b = a := by decide
  obtain ⟨kind, apart⟩ := all text sign
  constructor
  · intro shown
    have kind' := kindOf?_of_isLiteral lexical shown
    have operator : t.kind = .operator := (Option.some.inj (kind.symm.trans kind')).symm
    rw [IsLexical, operator] at lexical
    exact ⟨operator, apart t.value lexical (isLiteral_iff.1 shown).2⟩
  · rintro ⟨operator, rfl⟩
    exact isLiteral_iff.2 ⟨by simp [operator], sameWord_refl t.value⟩

theorem isLiteral_comma (lexical : t.IsLexical) :
    t.isLiteral "," = true ↔ t.kind = .punctuation := by
  constructor
  · intro shown
    have kind := kindOf?_of_isLiteral lexical shown
    rw [show kindOf? "," = some .punctuation by decide] at kind
    exact (Option.some.inj kind).symm
  · intro comma
    rw [IsLexical, comma] at lexical
    exact isLiteral_iff.2 ⟨by simp [comma], by rw [lexical]; exact sameWord_refl ","⟩

theorem isOneOf_iff : t.isOneOf texts = true ↔ ∃ text ∈ texts, t.isLiteral text = true := by
  cases bare : t.isQuoted <;> simp [isOneOf, isLiteral, bare]

theorem isOneOf_names (names : ∀ text ∈ texts, kindOf? text = some .word) (lexical : t.IsLexical) :
    t.isOneOf texts = true ↔ t.kind = .word ∧ ∃ text ∈ texts, sameWord t.value text = true := by
  rw [isOneOf_iff]
  constructor
  · rintro ⟨text, mem, shown⟩
    obtain ⟨word, same⟩ := (isLiteral_name (names text mem) lexical).1 shown
    exact ⟨word, text, mem, same⟩
  · rintro ⟨word, text, mem, same⟩
    exact ⟨text, mem, (isLiteral_name (names text mem) lexical).2 ⟨word, same⟩⟩

theorem isOneOf_signs (signs : ∀ text ∈ texts, text ∈ ["<", ">", "<=", ">=", "=", ":"])
    (lexical : t.IsLexical) : t.isOneOf texts = true ↔ t.kind = .operator ∧ t.value ∈ texts := by
  rw [isOneOf_iff]
  constructor
  · rintro ⟨text, mem, shown⟩
    obtain ⟨operator, rfl⟩ := (isLiteral_sign (signs text mem) lexical).1 shown
    exact ⟨operator, mem⟩
  · rintro ⟨operator, mem⟩
    exact ⟨t.value, mem, (isLiteral_sign (signs t.value mem) lexical).2 ⟨operator, rfl⟩⟩

end Token
end ActorScript
