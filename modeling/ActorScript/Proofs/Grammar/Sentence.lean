import ActorScript.Grammar.Line
import ActorScript.Proofs.Match.Language
import ActorScript.Proofs.Token.Literal

/-!
The language of lines, told by kinds and values of tokens alone, and that each rule reads its own
part of it. What the rules ask of a token and what the language asks are the same for the tokens of
a text.
-/
namespace ActorScript

open Computability

namespace Sentence

/-- A word with this text, up to case. -/
def key (text : String) : Language Token :=
  singleWord fun t => t.kind = .word ∧ sameWord t.value text = true

def sign (text : String) : Language Token := singleWord fun t => t.kind = .operator ∧ t.value = text

def comma : Language Token := singleWord fun t => t.kind = .punctuation

def word : Language Token := singleWord fun t => t.kind = .word

def number : Language Token := singleWord fun t => t.kind = .number

def quoted : Language Token := singleWord fun t => t.kind = .quoted

/-- A word from a table, up to case. -/
def among (texts : List String) : Language Token :=
  singleWord fun t => t.kind = .word ∧ ∃ text ∈ texts, sameWord t.value text = true

/-- A word that is none of these, up to case. -/
def wordBut (texts : List String) : Language Token :=
  singleWord fun t => t.kind = .word ∧ ∀ text ∈ texts, sameWord t.value text = false

def comparison : Language Token :=
  singleWord fun t => t.kind = .operator ∧ t.value ∈ Comparison.signs

def maybe (l : Language Token) : Language Token := l + 1

def turn : Language Token := among Turn.keywords

def heading : Language Token := turn∗ * among Aim.keywords

def tile : Language Token := maybe (among Color.keywords) * word

/-- A condition that begins with no `NOT`. -/
def question : Language Token :=
  key "ADJACENT" + key "BLOCKED" * heading + key "ALIGNED" * maybe heading + key "PEEP" * number +
    key "EXISTS" * tile * maybe number + key "TESTING" * word * comparison * number +
    wordBut ["NOT", "ADJACENT", "BLOCKED", "ALIGNED", "PEEP", "EXISTS", "TESTING"] * comparison *
      number

def condition : Language Token := (key "NOT")∗ * question

/-- Each command by its keyword and what follows that. -/
def commandForms : List (String × Language Token) :=
  [("MOVE", heading * maybe number * maybe (key "FORCE")), ("TRY", heading * maybe word),
    ("WAIT", maybe number), ("SAY", quoted), ("SCROLL", quoted * (comma * quoted)∗), ("END", 1),
    ("DIE", 1), ("IF", condition * maybe (key "THEN") * maybe (sign ":") * wordBut ["THEN"]),
    ("PUT", heading * tile), ("SEND", word * maybe word), ("SET", word * number),
    ("GIVE", word * number), ("TAKE", word * number * maybe word), ("BECOME", tile),
    ("CHANGE", tile * tile), ("CHAR", number), ("TORCH", number), ("SHOOT", heading),
    ("THROWSTAR", heading), ("WALK", heading), ("STAND", 1), ("LOCK", 1), ("UNLOCK", 1),
    ("RESTORE", word), ("ZAP", word), ("PLAY", quoted * maybe (key "EXCLUSIVE"))]

def line : Language Token :=
  (commandForms.map fun form => key form.1 * form.2).sum + sign ":" * word + 1

/-- A jump on `ALIGNED` to a label that is named like a turn. -/
def stumbling : Language Token := key "IF" * (key "NOT")∗ * key "ALIGNED" * turn

/-- A jump on `ALIGNED` and turns that come to no aim. -/
def turning : Language Token := key "IF" * (key "NOT")∗ * key "ALIGNED" * (turn * turn∗)

theorem mem_turning_of_stumbling {w : List Token} (stumbles : w ∈ stumbling) : w ∈ turning := by
  obtain ⟨u, aligned, v, turned, rfl⟩ := Language.mem_mul.1 stumbles
  refine Language.append_mem_mul aligned ?_
  have alone := Language.append_mem_mul turned (Language.nil_mem_kstar turn)
  rwa [List.append_nil] at alone

theorem nil_mem_maybe (l : Language Token) : [] ∈ maybe l := Or.inr rfl

theorem add_mul_kstar_mul (l m : Language Token) : m + l * (l∗ * m) = l∗ * m := by
  calc m + l * (l∗ * m) = (1 + l * l∗) * m := by rw [add_mul, one_mul, mul_assoc]
    _ = l∗ * m := by rw [Language.one_add_self_mul_kstar_eq_kstar]

theorem append_mem_kstar_mul {l m : Language Token} {v w : List Token} (first : v ∈ l)
    (others : w ∈ l∗ * m) : v ++ w ∈ l∗ * m := by
  rw [← add_mul_kstar_mul]
  exact .inr (Language.append_mem_mul first others)

theorem mem_kstar_mul {l m : Language Token} {w : List Token} (word : w ∈ m) : w ∈ l∗ * m := by
  rw [← add_mul_kstar_mul]
  exact .inl word

theorem nil_notMem_singleWord (p : Token → Prop) : [] ∉ singleWord p := by
  rintro ⟨t, -, word⟩
  exact absurd word (List.cons_ne_nil t []).symm

theorem nil_notMem_heading : [] ∉ heading := by
  intro word
  obtain ⟨turns, -, aim, aimed, nothing⟩ := Language.mem_mul.1 word
  rw [(List.append_eq_nil_iff.1 nothing).2] at aimed
  exact nil_notMem_singleWord _ aimed

end Sentence

namespace Grammar

open Rule Phrase

section Actions

/-- All that is done in reading a phrase, apart from taking tokens, is done on the stack. -/
abbrev Builds (phrase : Phrase) : Prop := Acts Candidate.KeepsPlace book.rule phrase

variable {phrase : Phrase}

theorem actions_make (construction : Construction Unit) (part : Phrase) :
    (make construction part).actions =
      (Candidate.rework fun c => (construction.run c.stack).2) :: part.actions := rfl

theorem keepsPlace_of_name (name : Name) :
    ∀ action ∈ (book.rule name).actions, Candidate.KeepsPlace action := by
  cases name <;>
    simp only [book, headingRule, aimOnly, turned, conditionRule, conditions, tile, colorWord,
      keyword, oneOf, word, number, wordExcept, heading, condition, Rule.optional, actions_make,
      actions, actionsOfAll, List.forall_mem_append, List.forall_mem_cons, List.not_mem_nil,
      false_implies, implies_true, and_true, Candidate.keepsPlace_rework]

theorem builds_deferred (name : Name) : Builds (.deferred name) :=
  ⟨by simp [actions], keepsPlace_of_name⟩

theorem builds_line : Builds lineRule where
  own := by
    simp only [lineRule, commands, moveRule, attemptRule, waitRule, sayRule, scrollRule, jumpIfRule,
      putRule, sendRule, takeRule, becomeRule, changeRule, playRule, alone, withHeading,
      withNumeral, withLabel, withCounter, labelRule, tile, colorWord, keyword, literal, oneOf,
      word, number, wordExcept, quoted, heading, condition, Rule.optional, actions_make, actions,
      actionsOfAll, List.cons_append, List.nil_append, List.forall_mem_cons, List.not_mem_nil,
      false_implies, implies_true, and_true, Candidate.keepsPlace_rework]
  named := keepsPlace_of_name

/-- The last choice, behind those for commands and labels, is to take nothing. -/
theorem lineRule_eq : lineRule = .alternation ((commands ++ [labelRule]) ++ [.empty]) := by
  rw [lineRule, List.append_assoc, List.singleton_append]

theorem builds_of_mem (among : phrase ∈ commands ++ [labelRule]) : Builds phrase := by
  have builds := builds_line
  rw [lineRule_eq] at builds
  exact builds.choice_of_mem (List.mem_append_left _ among)

theorem Builds.keepsTokens (builds : Builds phrase) : Acts Candidate.KeepsTokens book.rule phrase :=
  Acts.mono builds fun _ => Candidate.KeepsPlace.keepsTokens

theorem Builds.tokens_eq {depth : Nat} {c : Candidate Token Node} {outs : Pool Token Node}
    (builds : Builds phrase) (read : advance (book.enter depth) phrase [c] = .ok outs) :
    ∀ d ∈ outs, d.tokens = c.tokens := by
  intro d mem
  have derived := (advance_sound (book.enter_sound depth) phrase).of_singleton read mem
  exact derived.tokens_eq builds.keepsTokens

end Actions

/-- The phrase reads a language from the tokens of texts, of which at most `room` are left. -/
abbrev Scans (room : Nat) (phrase : Phrase) (l : Language Token) : Prop :=
  Reads book.rule Token.IsLexical room phrase l

variable {room : Nat}

section Words

variable {texts : List String}

theorem scans_keyword (text : String) (name : kindOf? text = some .word) :
    Scans room (keyword text) (Sentence.key text) :=
  .terminal fun _ lexical => Token.isLiteral_name name lexical

theorem scans_literal (text : String) (name : kindOf? text = some .word) :
    Scans room (literal text) (Sentence.key text) :=
  .terminal fun _ lexical => Token.isLiteral_name name lexical

theorem scans_colon : Scans room (keyword ":") (Sentence.sign ":") :=
  .terminal fun _ lexical => Token.isLiteral_sign (by decide) lexical

theorem scans_comma : Scans room (keyword ",") Sentence.comma :=
  .terminal fun _ lexical => Token.isLiteral_comma lexical

theorem scans_names (names : ∀ text ∈ texts, kindOf? text = some .word) :
    Scans room (oneOf texts) (Sentence.among texts) :=
  .terminal fun _ lexical => Token.isOneOf_names names lexical

theorem scans_signs : Scans room (oneOf Comparison.signs) Sentence.comparison :=
  .terminal fun _ lexical => Token.isOneOf_signs (by decide) lexical

theorem scans_word : Scans room word Sentence.word :=
  .terminal fun t _ => by simp [Token.isWord]

theorem scans_number : Scans room number Sentence.number :=
  .terminal fun t _ => by simp [Token.isNumber]

theorem scans_quoted : Scans room quoted Sentence.quoted :=
  .terminal fun t _ => by simp [Token.isQuoted]

theorem scans_wordExcept : Scans room (wordExcept texts) (Sentence.wordBut texts) :=
  .terminal fun t _ => by simp [Token.isWordExcept, Token.isWord]

end Words

theorem turn_names : ∀ text ∈ Turn.keywords, kindOf? text = some .word := by decide

theorem aim_names : ∀ text ∈ Aim.keywords, kindOf? text = some .word := by decide

theorem color_names : ∀ text ∈ Color.keywords, kindOf? text = some .word := by decide

theorem scans_headingRule (room : Nat) : Scans room headingRule Sentence.heading := by
  induction room using Nat.strong_induction_on with
  | _ room ih =>
    have aim : Scans room aimOnly (Sentence.among Aim.keywords) := (scans_names aim_names).build
    have turned : Scans room turned (Sentence.turn * (Sentence.heading * 1)) :=
      .build (.lead (fun _ lexical => Token.isOneOf_names turn_names lexical)
        fun less lt => .cons (.named Name.heading (ih less lt)) .nil)
    have all := aim.or (turned.or .none)
    rw [mul_one, add_zero] at all
    exact all.of_eq (Sentence.add_mul_kstar_mul ..)

theorem scans_heading : Scans room heading Sentence.heading :=
  .named Name.heading (scans_headingRule room)

theorem scans_tile : Scans room tile Sentence.tile := by
  have color : Scans room colorWord (Sentence.among Color.keywords) :=
    (scans_names color_names).build
  exact ((color.optional.cons (scans_word.cons .nil)).of_eq (by rw [mul_one]; rfl)).build

theorem scans_question : Scans room (.alternation conditions.tail) Sentence.question := by
  have all : Scans room (.alternation conditions.tail) _ := .alternation <|
    .cons (scans_keyword "ADJACENT" (by decide)).build <|
    .cons (.build (.sequence (.cons (scans_keyword "BLOCKED" (by decide))
      (.cons scans_heading .nil)))) <|
    .cons (.build (.sequence (.cons (scans_keyword "ALIGNED" (by decide))
      (.cons scans_heading.optional .nil)))) <|
    .cons (.build (.sequence (.cons (scans_keyword "PEEP" (by decide))
      (.cons scans_number .nil)))) <|
    .cons (.build (.sequence (.cons (scans_keyword "EXISTS" (by decide))
      (.cons scans_tile (.cons scans_number.optional .nil))))) <|
    .cons (.build (.sequence (.cons (scans_keyword "TESTING" (by decide))
      (.cons scans_word (.cons scans_signs (.cons scans_number .nil)))))) <|
    .cons (.build (.sequence (.cons scans_wordExcept
      (.cons scans_signs (.cons scans_number .nil))))) .nil
  refine all.of_eq ?_
  simp only [List.sum_cons, List.sum_nil, List.prod_cons, List.prod_nil, mul_one, add_zero,
    Sentence.question, Sentence.maybe, add_assoc, mul_assoc]
  rfl

theorem scans_conditionRule (room : Nat) : Scans room conditionRule Sentence.condition := by
  induction room using Nat.strong_induction_on with
  | _ room ih =>
    have negated : Scans room (.sequence [keyword "NOT", condition])
        (Sentence.key "NOT" * (Sentence.condition * 1)) :=
      .lead (fun _ lexical => Token.isLiteral_name (by decide) lexical)
        fun less lt => .cons (.named Name.condition (ih less lt)) .nil
    have all : Scans room conditionRule _ := negated.build.or scans_question
    rw [mul_one, add_comm] at all
    exact all.of_eq (Sentence.add_mul_kstar_mul ..)

theorem scans_condition : Scans room condition Sentence.condition :=
  .named Name.condition (scans_conditionRule room)

end Grammar
end ActorScript
