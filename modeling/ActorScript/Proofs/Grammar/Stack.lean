import ActorScript.Proofs.Grammar.Construction
import ActorScript.Proofs.Grammar.Spelling

/-!
What rules leave on the stack. Each part leaves items for the tokens it took or one item that they
spell, and each construction finds on the stack just what its parts left there, so that a heading, a
tile or a condition becomes one item on top of those that were there, and a line the only one. What
a line was read as is therefore spelled by all of its tokens.
-/
namespace ActorScript

namespace Grammar

open Rule Phrase Construction

/-- How a stack may look after a phrase, by the tokens it took and how the stack looked before. -/
abbrev Outcome := List Token → List Node → List Node → Prop

namespace Outcome

/-- Nothing is left for the tokens. -/
def silent (l : Language Token) : Outcome := fun w before after => w ∈ l ∧ before = after

def token (p : Token → Prop) : Outcome :=
  fun w before after => ∃ t, p t ∧ w = [t] ∧ after = .token t :: before

def maybe (outcome : Outcome) : Outcome :=
  fun w before after => outcome w before after ∨ w = [] ∧ before = after

def next (first later : Outcome) : Outcome := fun w before after =>
  ∃ u v between, w = u ++ v ∧ first u before between ∧ later v between after

def chain : List Outcome → Outcome
  | [] => silent 1
  | [outcome] => outcome
  | outcome :: other :: outcomes => next outcome (chain (other :: outcomes))

inductive Rounds (outcome : Outcome) : List Token → List Node → List Node → Prop where
  | none {s} : Rounds outcome [] s s
  | more {u v s between s'} (once : outcome u s between) (others : Rounds outcome v between s') :
      Rounds outcome (u ++ v) s s'

theorem silent_of_maybe {l : Language Token} {w : List Token} {s m : List Node}
    (outcome : maybe (silent l) w s m) : silent (Sentence.maybe l) w s m := by
  rcases outcome with ⟨word, rfl⟩ | ⟨rfl, rfl⟩
  · exact ⟨.inl word, rfl⟩
  · exact ⟨.inr rfl, rfl⟩

end Outcome

/-- From the tokens of texts, of which at most `room` are left, the phrase leaves such stacks. -/
def Leaves (room : Nat) (phrase : Phrase) (outcome : Outcome) : Prop :=
  ∀ c d : Candidate Token Node, (∀ t ∈ c.tokens, t.IsLexical) → c.rest.length ≤ room →
    Derives book.rule AnyRound phrase c d → ∃ w, c.Takes w d ∧ outcome w c.stack d.stack

namespace Leaves

variable {room : Nat} {part inner : Phrase} {parts choices : List Phrase}
  {outcome outcome' : Outcome} {outcomes : List Outcome} {accepts : Token → Bool}

theorem imp (leaves : Leaves room part outcome)
    (wider : ∀ w s s', outcome w s s' → outcome' w s s') : Leaves room part outcome' := by
  intro c d lexical enough derived
  obtain ⟨w, taken, left⟩ := leaves c d lexical enough derived
  exact ⟨w, taken, wider _ _ _ left⟩

theorem discarded {p : Token → Prop} (tells : ∀ t, t.IsLexical → accepts t = true → p t) :
    Leaves room (.terminal accepts none) (.silent (singleWord p)) := by
  intro c d lexical _ derived
  cases derived with
  | terminal taken =>
    obtain ⟨t, r, next, accepted, rfl⟩ := Candidate.take?_iff.1 taken
    have mem : t ∈ c.tokens := Candidate.mem_tokens_of_rest next
    exact ⟨[t], Candidate.takes_skip next none, ⟨t, tells t (lexical t mem) accepted, rfl⟩, rfl⟩

theorem token {p : Token → Prop} (tells : ∀ t, t.IsLexical → accepts t = true → p t) :
    Leaves room (.terminal accepts (some .token)) (.token p) := by
  intro c d lexical _ derived
  cases derived with
  | terminal taken =>
    obtain ⟨t, r, next, accepted, rfl⟩ := Candidate.take?_iff.1 taken
    have mem : t ∈ c.tokens := Candidate.mem_tokens_of_rest next
    exact ⟨[t], Candidate.takes_skip next _, t, tells t (lexical t mem) accepted, rfl, rfl⟩

theorem nil : Leaves room (.sequence []) (.chain []) := by
  intro c d _ _ derived
  cases derived with
  | nil => exact ⟨[], .none c, rfl, rfl⟩

theorem last (leaves : Leaves room part outcome) :
    Leaves room (.sequence [part]) (.chain [outcome]) := by
  intro c d lexical enough derived
  cases derived with
  | cons once more =>
    cases more with
    | nil => exact leaves c d lexical enough once

theorem cons {other : Outcome} (first : Leaves room part outcome)
    (later : Leaves room (.sequence parts) (.chain (other :: outcomes))) :
    Leaves room (.sequence (part :: parts)) (.chain (outcome :: other :: outcomes)) := by
  intro c e lexical enough derived
  cases derived with
  | @cons _ _ _ d _ once more =>
    obtain ⟨u, taken, left⟩ := first c d lexical enough once
    have fewer := taken.length_rest
    obtain ⟨v, taken', left'⟩ := later d e (by rwa [taken.tokens]) (by omega) more
    exact ⟨u ++ v, taken.trans taken', u, v, d.stack, rfl, left, left'⟩

theorem lead {item : Option (Token → Node)} {other : Outcome}
    (first : Leaves room (.terminal accepts item) outcome)
    (later : ∀ less < room, Leaves less (.sequence parts) (.chain (other :: outcomes))) :
    Leaves room (.sequence (.terminal accepts item :: parts))
      (.chain (outcome :: other :: outcomes)) := by
  intro c e lexical enough derived
  cases derived with
  | @cons _ _ _ d _ once more =>
    obtain ⟨u, taken, left⟩ := first c d lexical enough once
    cases once with
    | terminal accepted =>
      obtain ⟨t, r, next, -, rfl⟩ := Candidate.take?_iff.1 accepted
      have fewer := (Candidate.takes_skip next item).length_rest
      rw [List.length_singleton] at fewer
      obtain ⟨v, taken', left'⟩ :=
        later _ (by omega) _ e (by rwa [taken.tokens]) (Nat.le_refl _) more
      exact ⟨u ++ v, taken.trans taken', u, v, _, rfl, left, left'⟩

theorem sequence (each : List.Forall₂ (Leaves room) parts outcomes) :
    Leaves room (.sequence parts) (.chain outcomes) := by
  induction each with
  | nil => exact nil
  | cons first others ih =>
    cases others with
    | nil => exact first.last
    | cons => exact first.cons ih

theorem alternation (each : ∀ choice ∈ choices, Leaves room choice outcome) :
    Leaves room (.alternation choices) outcome := by
  intro c d lexical enough derived
  cases derived with
  | choice among chosen => exact each _ among _ _ lexical enough chosen

theorem empty : Leaves room .empty fun w before after => w = [] ∧ before = after := by
  intro c d _ _ derived
  cases derived with
  | empty => exact ⟨[], .none c, rfl, rfl⟩

theorem optional (leaves : Leaves room inner outcome) :
    Leaves room (.optional inner) (.maybe outcome) := by
  apply alternation
  simp only [List.forall_mem_cons, List.not_mem_nil, false_implies, implies_true, and_true]
  exact ⟨leaves.imp fun _ _ _ => .inl, empty.imp fun _ _ _ => .inr⟩

theorem named (name : Name) (leaves : Leaves room (book.rule name) outcome) :
    Leaves room (.deferred name) outcome := by
  intro c d lexical enough derived
  cases derived with
  | named entered => exact leaves _ _ lexical enough entered

theorem make {construction : Construction Unit} (leaves : Leaves room inner outcome)
    (makes : ∀ w s m, outcome w s m → outcome' w s (construction.run m).2) :
    Leaves room (make construction inner) outcome' := by
  intro c d lexical enough derived
  cases derived with
  | built part =>
    obtain ⟨w, taken, left⟩ := leaves _ _ lexical enough part
    exact ⟨w, taken.rework _, makes _ _ _ left⟩

theorem repetition (leaves : Leaves room inner outcome) :
    Leaves room (.repetition inner) (.Rounds outcome) := by
  intro c d lexical enough derived
  generalize rounds : Rule.repetition inner = rule at derived
  induction derived with
  | done => exact ⟨[], .none _, .none⟩
  | again once _ _ _ ih =>
    cases rounds
    obtain ⟨u, taken, left⟩ := leaves _ _ lexical enough once
    have fewer := taken.length_rest
    obtain ⟨v, taken', left'⟩ := ih (by rwa [taken.tokens]) (by omega) rfl
    exact ⟨u ++ v, taken.trans taken', .more left left'⟩
  | terminal | nil | cons | choice | empty | named | built => cases rounds

end Leaves

variable {room : Nat}

section Words

theorem leaves_keyword (text : String) (name : kindOf? text = some .word) :
    Leaves room (keyword text) (.silent (Sentence.key text)) :=
  .discarded fun _ lexical => (Token.isLiteral_name name lexical).1

theorem leaves_colon : Leaves room (keyword ":") (.silent (Sentence.sign ":")) :=
  .discarded fun _ lexical => (Token.isLiteral_sign (by decide) lexical).1

theorem leaves_comma : Leaves room (keyword ",") (.silent Sentence.comma) :=
  .discarded fun _ lexical => (Token.isLiteral_comma lexical).1

theorem leaves_word : Leaves room word (.token fun t => t.kind = .word) :=
  .token fun t _ accepted => by simpa [Token.isWord] using accepted

theorem leaves_wordExcept (texts : List String) :
    Leaves room (wordExcept texts)
      (.token fun t => t.kind = .word ∧ ∀ text ∈ texts, sameWord t.value text = false) :=
  .token fun t _ accepted => by simpa [Token.isWordExcept, Token.isWord] using accepted

theorem leaves_quoted : Leaves room quoted (.token fun t => t.kind = .quoted) :=
  .token fun t _ accepted => by simpa [Token.isQuoted] using accepted

theorem leaves_literal (text : String) (name : kindOf? text = some .word) :
    Leaves room (literal text) (.token fun t => t.kind = .word ∧ sameWord t.value text = true) :=
  .token fun _ lexical => (Token.isLiteral_name name lexical).1

theorem leaves_names {texts : List String} (names : ∀ text ∈ texts, kindOf? text = some .word) :
    Leaves room (oneOf texts)
      (.token fun t => t.kind = .word ∧ ∃ text ∈ texts, sameWord t.value text = true) :=
  .token fun _ lexical => (Token.isOneOf_names names lexical).1

theorem leaves_number :
    Leaves room number (.token fun t => t.kind = .number ∧ ∃ n, t.numeral? = some n) :=
  .token fun t lexical accepted => by
    have number : t.kind = .number := by simpa [Token.isNumber] using accepted
    rw [Token.IsLexical, number] at lexical
    obtain ⟨c, cs, spelled, -, small⟩ := lexical
    refine ⟨number, ⟨decimalValue (c :: cs), small⟩, ?_⟩
    rw [Token.numeral?, number]
    dsimp only
    rw [spelled, Numeral.ofDigits?, dif_pos small]

theorem leaves_signs : Leaves room (oneOf Comparison.signs)
    (.token fun t => t.kind = .operator ∧
      ∃ comparison, Comparison.ofSign? t.value = some comparison) :=
  .token fun t lexical accepted => by
    obtain ⟨operator, sign⟩ := (Token.isOneOf_signs (by decide) lexical).1 accepted
    obtain ⟨comparison, mem, sign⟩ := List.mem_map.1 sign
    exact ⟨operator,
      Option.isSome_iff_exists.1 (List.find?_isSome.2 ⟨comparison, mem, by simp [sign]⟩)⟩

end Words

section Heading

def Outcome.heading : Outcome := fun w before after =>
  ∃ h : Heading, w ∈ h.spellings ∧ after = .heading h :: before

theorem leaves_headingRule (room : Nat) : Leaves room headingRule .heading := by
  induction room using Nat.strong_induction_on with
  | _ room ih =>
    have aim : Leaves room aimOnly .heading := by
      refine (leaves_names aim_names).make ?_
      rintro _ s _ ⟨t, ⟨word, shown⟩, rfl, rfl⟩
      obtain ⟨aim, named⟩ : ∃ aim, Aim.named? t.value = some aim := exists_named shown
      refine ⟨⟨aim, []⟩, ?_, by simp [named]⟩
      exact Language.append_mem_mul (a := []) rfl ⟨t, ⟨word, named⟩, rfl⟩
    have turned : Leaves room turned .heading := by
      refine (Leaves.lead (leaves_names turn_names) fun less lt =>
        (Leaves.named .heading (ih less lt)).last).make ?_
      rintro _ s _ ⟨_, _, _, rfl, ⟨t, ⟨word, shown⟩, rfl, rfl⟩, h, spelled, rfl⟩
      obtain ⟨turn, named⟩ : ∃ turn, Turn.named? t.value = some turn := exists_named shown
      refine ⟨{ h with turns := turn :: h.turns }, ?_, by
        simp [named]⟩
      rw [turn_heading]
      exact Language.append_mem_mul ⟨t, ⟨word, named⟩, rfl⟩ spelled
    apply Leaves.alternation
    simp only [List.forall_mem_cons, List.not_mem_nil, false_implies, implies_true, and_true]
    exact ⟨aim, turned⟩

theorem leaves_heading : Leaves room heading .heading :=
  .named .heading (leaves_headingRule room)

end Heading

section Tile

/-- A tile takes for its own color the one on top of the stack, which therefore is to be none. -/
def Outcome.tile : Outcome := fun w before after =>
  (∀ color, before.head? ≠ some (.color color)) →
    ∃ t : Tile, w ∈ t.spellings ∧ after = .tile t :: before

theorem leaves_colorWord : Leaves room colorWord fun w before after =>
    ∃ color : Color, w ∈ color.spellings ∧ after = .color color :: before := by
  refine (leaves_names color_names).make ?_
  rintro _ s _ ⟨t, ⟨word, shown⟩, rfl, rfl⟩
  obtain ⟨color, named⟩ := Color.exists_named shown
  exact ⟨color, ⟨t, ⟨word, named⟩, rfl⟩, by simp [named]⟩

theorem leaves_tile : Leaves room tile .tile := by
  refine (Leaves.sequence (.cons leaves_colorWord.optional (.cons leaves_word .nil))).make ?_
  rintro _ s _ ⟨_, _, _, rfl, colored, t, word, rfl, rfl⟩ clear
  have thing : [t] ∈ Sentence.name (nameOf t) := ⟨t, ⟨word, rfl⟩, rfl⟩
  rcases colored with ⟨color, spelled, rfl⟩ | ⟨rfl, rfl⟩
  · refine ⟨⟨some color, nameOf t⟩, Language.append_mem_mul spelled thing, ?_⟩
    simp
  · refine ⟨⟨none, nameOf t⟩, Language.append_mem_mul (a := []) rfl thing, ?_⟩
    cases s with
    | nil => simp
    | cons node s =>
      cases node with
      | color color => exact absurd rfl (clear color)
      | token | heading | tile | condition | line => simp

end Tile

section Condition

/-- A condition without its heading would take the one on top of the stack. -/
def Outcome.condition : Outcome := fun w before after =>
  (∀ color, before.head? ≠ some (.color color)) → (∀ h, before.head? ≠ some (.heading h)) →
    ∃ q : Condition, w ∈ q.spellings ∧ after = .condition q :: before

def Outcome.compared : Outcome := fun w before after => ∃ t u v comparison n,
  w ∈ (Condition.testing (nameOf t) comparison n).spellings ∧
    after = .token v :: .token u :: .token t :: before ∧ u.kind = .operator ∧
    Comparison.ofSign? u.value = some comparison ∧ v.kind = .number ∧ v.numeral? = some n

theorem mem_comparison {t : Token} {comparison : Comparison} (operator : t.kind = .operator)
    (sign : Comparison.ofSign? t.value = some comparison) : [t] ∈ comparison.spellings := by
  have same := List.find?_some (p := fun c : Comparison => c.sign == t.value) sign
  exact ⟨t, ⟨operator, (eq_of_beq same).symm⟩, rfl⟩

theorem mem_numeral {t : Token} {n : Numeral} (number : t.kind = .number)
    (numeral : t.numeral? = some n) : [t] ∈ n.spellings := ⟨t, ⟨number, numeral⟩, rfl⟩

theorem leaves_comparison : Leaves room
    (.sequence [wordExcept conditionKeywords, oneOf Comparison.signs, number]) .compared := by
  refine (Leaves.sequence (.cons (leaves_wordExcept _)
    (.cons leaves_signs (.cons leaves_number .nil)))).imp ?_
  rintro _ s _ ⟨_, _, _, rfl, ⟨t, ⟨word, apart⟩, rfl, rfl⟩, _, _, _, rfl,
    ⟨u, ⟨operator, comparison, sign⟩, rfl, rfl⟩, v, ⟨number, n, numeral⟩, rfl, rfl⟩
  refine ⟨t, u, v, comparison, n, ?_, rfl, operator, sign, number, numeral⟩
  exact Language.append_mem_mul (.inr ⟨t, ⟨word, apart, rfl⟩, rfl⟩)
    (Language.append_mem_mul (mem_comparison operator sign) (mem_numeral number numeral))

theorem leaves_testing : Leaves room
    (.sequence [keyword "TESTING", word, oneOf Comparison.signs, number]) .compared := by
  refine (Leaves.sequence (.cons (leaves_keyword "TESTING" (by decide)) (.cons leaves_word
    (.cons leaves_signs (.cons leaves_number .nil))))).imp ?_
  rintro _ s _ ⟨_, _, _, rfl, ⟨keyed, rfl⟩, _, _, _, rfl, ⟨t, word, rfl, rfl⟩, _, _, _, rfl,
    ⟨u, ⟨operator, comparison, sign⟩, rfl, rfl⟩, v, ⟨number, n, numeral⟩, rfl, rfl⟩
  refine ⟨t, u, v, comparison, n, ?_, rfl, operator, sign, number, numeral⟩
  rw [← List.append_assoc]
  exact Language.append_mem_mul (.inl (Language.append_mem_mul keyed ⟨t, ⟨word, rfl⟩, rfl⟩))
    (Language.append_mem_mul (mem_comparison operator sign) (mem_numeral number numeral))

theorem run_makeTesting {t u v : Token} {comparison : Comparison} {n : Numeral} (s : List Node)
    (sign : Comparison.ofSign? u.value = some comparison) (number : v.kind = .number)
    (numeral : v.numeral? = some n) :
    (makeTesting.run (.token v :: .token u :: .token t :: s)).2 =
      .condition (.testing (nameOf t) comparison n) :: s := by
  simp [makeTesting, number, numeral, sign]

theorem leaves_conditionRule (room : Nat) : Leaves room conditionRule .condition := by
  induction room using Nat.strong_induction_on with
  | _ room ih =>
    apply Leaves.alternation
    simp only [conditions, List.forall_mem_cons, List.not_mem_nil, false_implies, implies_true,
      and_true]
    refine ⟨?negated, ?adjacent, ?blocked, ?aligned, ?peep, ?present, ?testing, ?comparison⟩
    case negated =>
      refine (Leaves.lead (leaves_keyword "NOT" (by decide)) fun less lt =>
        (Leaves.named .condition (ih less lt)).last).make ?_
      rintro _ s _ ⟨_, _, _, rfl, ⟨keyed, rfl⟩, left⟩ no_color no_heading
      obtain ⟨q, spelled, rfl⟩ := left no_color no_heading
      refine ⟨.not q, Language.append_mem_mul keyed spelled, ?_⟩
      simp
    case adjacent =>
      refine (leaves_keyword "ADJACENT" (by decide)).make ?_
      rintro _ s _ ⟨keyed, rfl⟩ - -
      exact ⟨.adjacent, keyed, rfl⟩
    case blocked =>
      refine (Leaves.sequence (.cons (leaves_keyword "BLOCKED" (by decide))
        (.cons leaves_heading .nil))).make ?_
      rintro _ s _ ⟨_, _, _, rfl, ⟨keyed, rfl⟩, h, spelled, rfl⟩ - -
      refine ⟨.blocked h, Language.append_mem_mul keyed spelled, ?_⟩
      simp
    case aligned =>
      refine (Leaves.sequence (.cons (leaves_keyword "ALIGNED" (by decide))
        (.cons leaves_heading.optional .nil))).make ?_
      rintro _ s _ ⟨_, _, _, rfl, ⟨keyed, rfl⟩, ⟨h, spelled, rfl⟩ | ⟨rfl, rfl⟩⟩ - no_heading
      · refine ⟨.aligned (some h), Language.append_mem_mul keyed spelled, ?_⟩
        simp
      · refine ⟨.aligned none, Language.append_mem_mul (b := []) keyed rfl, ?_⟩
        cases s with
        | nil => simp
        | cons node s =>
          cases node with
          | heading h => exact absurd rfl (no_heading h)
          | token | color | tile | condition | line => simp
    case peep =>
      refine (Leaves.sequence (.cons (leaves_keyword "PEEP" (by decide))
        (.cons leaves_number .nil))).make ?_
      rintro _ s _ ⟨_, _, _, rfl, ⟨keyed, rfl⟩, t, ⟨number, n, numeral⟩, rfl, rfl⟩ - -
      refine ⟨.peep n, Language.append_mem_mul keyed (mem_numeral number numeral), ?_⟩
      simp [number, numeral]
    case present =>
      refine (Leaves.sequence (.cons (leaves_keyword "EXISTS" (by decide)) (.cons leaves_tile
        (.cons leaves_number.optional .nil)))).make ?_
      rintro _ s _ ⟨_, _, _, rfl, ⟨keyed, rfl⟩, _, _, _, rfl, left, counted⟩ no_color -
      obtain ⟨tile, spelled, rfl⟩ := left no_color
      rcases counted with ⟨t, ⟨number, n, numeral⟩, rfl, rfl⟩ | ⟨rfl, rfl⟩
      · refine ⟨.present tile n, Language.append_mem_mul keyed
          (Language.append_mem_mul spelled (.inl (mem_numeral number numeral))), ?_⟩
        simp [number, numeral]
      · refine ⟨.present tile .one, Language.append_mem_mul keyed
          (Language.append_mem_mul spelled nil_mem_count), ?_⟩
        simp
    case testing =>
      refine leaves_testing.make ?_
      rintro _ s _ ⟨t, u, v, comparison, n, spelled, rfl, -, sign, number, numeral⟩ - -
      exact ⟨_, spelled, run_makeTesting s sign number numeral⟩
    case comparison =>
      refine leaves_comparison.make ?_
      rintro _ s _ ⟨t, u, v, comparison, n, spelled, rfl, -, sign, number, numeral⟩ - -
      exact ⟨_, spelled, run_makeTesting s sign number numeral⟩

theorem leaves_condition : Leaves room condition .condition :=
  .named .condition (leaves_conditionRule room)

end Condition

section Command

/-- Constructions that end a line may look below their own items, where there has to be nothing. -/
def Outcome.command : Outcome := fun w before after =>
  before = [] → ∃ command : Command, w ∈ command.spellings ∧ after = [.line (.command command)]

theorem mem_name {t : Token} (word : t.kind = .word) : [t] ∈ Sentence.name (nameOf t) :=
  ⟨t, ⟨word, rfl⟩, rfl⟩

theorem mem_quotedAs {t : Token} (quoted : t.kind = .quoted) : [t] ∈ Sentence.quotedAs t.value :=
  ⟨t, ⟨quoted, rfl⟩, rfl⟩

theorem leaves_alone (command : Command) (name : kindOf? command.keyword = some .word)
    (no_operands : command.operandSpellings = 1) : Leaves room (alone command) .command := by
  refine (leaves_keyword command.keyword name).make ?_
  rintro w _ _ ⟨keyed, rfl⟩ rfl
  refine ⟨command, ?_, rfl⟩
  rwa [Command.spellings, no_operands, mul_one]

theorem leaves_withHeading (text : String) (command : Heading → Command)
    (name : kindOf? text = some .word)
    (said : ∀ h, (command h).spellings = Sentence.key text * h.spellings) :
    Leaves room (withHeading text command) .command := by
  refine (Leaves.sequence (.cons (leaves_keyword text name) (.cons leaves_heading .nil))).make ?_
  rintro _ _ _ ⟨_, _, _, rfl, ⟨keyed, rfl⟩, h, spelled, rfl⟩ rfl
  refine ⟨command h, ?_, by simp⟩
  rw [said]
  exact Language.append_mem_mul keyed spelled

theorem leaves_withNumeral (text : String) (command : Numeral → Command)
    (name : kindOf? text = some .word)
    (said : ∀ n, (command n).spellings = Sentence.key text * n.spellings) :
    Leaves room (withNumeral text command) .command := by
  refine (Leaves.sequence (.cons (leaves_keyword text name) (.cons leaves_number .nil))).make ?_
  rintro _ _ _ ⟨_, _, _, rfl, ⟨keyed, rfl⟩, t, ⟨number, n, numeral⟩, rfl, rfl⟩ rfl
  refine ⟨command n, ?_, by
    simp [number, numeral]⟩
  rw [said]
  exact Language.append_mem_mul keyed (mem_numeral number numeral)

theorem leaves_withLabel (text : String) (command : String → Command)
    (name : kindOf? text = some .word)
    (said : ∀ label, (command label).spellings = Sentence.key text * Sentence.name label) :
    Leaves room (withLabel text command) .command := by
  refine (Leaves.sequence (.cons (leaves_keyword text name) (.cons leaves_word .nil))).make ?_
  rintro _ _ _ ⟨_, _, _, rfl, ⟨keyed, rfl⟩, t, word, rfl, rfl⟩ rfl
  refine ⟨command (nameOf t), ?_, by simp⟩
  rw [said]
  exact Language.append_mem_mul keyed (mem_name word)

theorem run_popCounter {t u : Token} {n : Numeral} (word : t.kind = .word)
    (number : u.kind = .number) (numeral : u.numeral? = some n) (s : List Node) :
    popCounter.run (.token u :: .token t :: s) = (some (nameOf t, n), s) := by
  simp [popCounter, word, number, numeral]

theorem leaves_withCounter (text : String) (command : String → Numeral → Command)
    (name : kindOf? text = some .word)
    (said : ∀ counter n, (command counter n).spellings =
      Sentence.key text * (Sentence.name counter * n.spellings)) :
    Leaves room (withCounter text command) .command := by
  refine (Leaves.sequence (.cons (leaves_keyword text name)
    (.cons leaves_word (.cons leaves_number .nil)))).make ?_
  rintro _ _ _ ⟨_, _, _, rfl, ⟨keyed, rfl⟩, _, _, _, rfl, ⟨t, word, rfl, rfl⟩, u,
    ⟨number, n, numeral⟩, rfl, rfl⟩ rfl
  refine ⟨command (nameOf t) n, ?_, ?_⟩
  · rw [said]
    exact Language.append_mem_mul keyed
      (Language.append_mem_mul (mem_name word) (mem_numeral number numeral))
  · simp [run_popCounter word number numeral]

theorem leaves_moveRule : Leaves room moveRule .command := by
  refine (Leaves.sequence (.cons (leaves_keyword "MOVE" (by decide)) (.cons leaves_heading
    (.cons leaves_number.optional
      (.cons (leaves_literal "FORCE" (by decide)).optional .nil))))).make ?_
  rintro _ _ _ ⟨_, _, _, rfl, ⟨keyed, rfl⟩, _, _, _, rfl, ⟨h, spelled, rfl⟩, _, _, _, rfl,
    counted, forced⟩ rfl
  have said {v w : List Token} {n : Numeral} {forceful : Bool} (count : v ∈ n.countSpellings)
      (force : w ∈ Sentence.flag "FORCE" forceful) :=
    Language.append_mem_mul keyed
      (Language.append_mem_mul spelled (Language.append_mem_mul count force))
  rcases counted with ⟨t, ⟨number, n, numeral⟩, rfl, rfl⟩ | ⟨rfl, rfl⟩
  · have count : [t] ∈ n.countSpellings := .inl (mem_numeral number numeral)
    rcases forced with ⟨u, ⟨word, force⟩, rfl, rfl⟩ | ⟨rfl, rfl⟩
    · refine ⟨.move h n true, said count ⟨u, ⟨word, force⟩, rfl⟩, ?_⟩
      rw [sameWord_comm] at force
      simp [word, force, number, numeral]
    · refine ⟨.move h n false, said count rfl, ?_⟩
      simp [number, numeral]
  · rcases forced with ⟨u, ⟨word, force⟩, rfl, rfl⟩ | ⟨rfl, rfl⟩
    · refine ⟨.move h .one true, said nil_mem_count ⟨u, ⟨word, force⟩, rfl⟩, ?_⟩
      rw [sameWord_comm] at force
      simp [word, force]
    · refine ⟨.move h .one false, said nil_mem_count rfl, ?_⟩
      simp

theorem leaves_attemptRule : Leaves room attemptRule .command := by
  refine (Leaves.sequence (.cons (leaves_keyword "TRY" (by decide)) (.cons leaves_heading
    (.cons leaves_word.optional .nil)))).make ?_
  rintro _ _ _ ⟨_, _, _, rfl, ⟨keyed, rfl⟩, _, _, _, rfl, ⟨h, spelled, rfl⟩, otherwise⟩ rfl
  rcases otherwise with ⟨t, word, rfl, rfl⟩ | ⟨rfl, rfl⟩
  · refine ⟨.attempt h (some (nameOf t)), Language.append_mem_mul keyed
      (Language.append_mem_mul spelled (mem_name word)), ?_⟩
    simp [word]
  · refine ⟨.attempt h none, Language.append_mem_mul keyed
      (Language.append_mem_mul (b := []) spelled rfl), ?_⟩
    simp

theorem leaves_waitRule : Leaves room waitRule .command := by
  refine (Leaves.sequence (.cons (leaves_keyword "WAIT" (by decide))
    (.cons leaves_number.optional .nil))).make ?_
  rintro _ _ _ ⟨_, _, _, rfl, ⟨keyed, rfl⟩, counted⟩ rfl
  rcases counted with ⟨t, ⟨number, n, numeral⟩, rfl, rfl⟩ | ⟨rfl, rfl⟩
  · refine ⟨.wait n, Language.append_mem_mul keyed (.inl (mem_numeral number numeral)), ?_⟩
    simp [number, numeral]
  · refine ⟨.wait .one, Language.append_mem_mul keyed nil_mem_count, ?_⟩
    simp

theorem leaves_sayRule : Leaves room sayRule .command := by
  refine (Leaves.sequence (.cons (leaves_keyword "SAY" (by decide))
    (.cons leaves_quoted .nil))).make ?_
  rintro _ _ _ ⟨_, _, _, rfl, ⟨keyed, rfl⟩, t, quoted, rfl, rfl⟩ rfl
  refine ⟨.say t.value, Language.append_mem_mul keyed (mem_quotedAs quoted), ?_⟩
  simp

theorem exists_strings {w : List Token} {s m : List Node}
    (rounds : Outcome.Rounds (.chain [.silent Sentence.comma, .token fun t => t.kind = .quoted])
      w s m) :
    ∃ ts : List Token, (∀ t ∈ ts, t.kind = .quoted) ∧ m = (ts.map Node.token).reverse ++ s ∧
      ∀ {v : List Token} {text : String}, v ∈ Sentence.quotedAs text →
        v ++ w ∈ Sentence.series (text :: ts.map (·.value)) := by
  induction rounds with
  | none => exact ⟨[], by simp, rfl, fun first => by rwa [List.append_nil]⟩
  | more once _ ih =>
    obtain ⟨_, _, _, rfl, ⟨comma, rfl⟩, t, quoted, rfl, rfl⟩ := once
    obtain ⟨ts, strings, rfl, spelled⟩ := ih
    refine ⟨t :: ts, List.forall_mem_cons.2 ⟨quoted, strings⟩, by simp, fun first => ?_⟩
    rw [List.append_assoc]
    exact Language.append_mem_mul first
      (Language.append_mem_mul comma (spelled (mem_quotedAs quoted)))

theorem splitQuoted_reverse {ts : List Token} (strings : ∀ t ∈ ts, t.kind = .quoted) :
    splitQuoted ((ts.map Node.token).reverse) = ((ts.map (·.value)).reverse, []) := by
  rw [← List.map_reverse, ← List.map_reverse]
  have strings' : ∀ t ∈ ts.reverse, t.kind = .quoted := by simpa using strings
  generalize ts.reverse = us at strings'
  induction us with
  | nil => rfl
  | cons u us ih =>
    obtain ⟨quoted, others⟩ := List.forall_mem_cons.1 strings'
    simp [splitQuoted, Token.isQuoted, quoted, ih others]

theorem leaves_scrollRule : Leaves room scrollRule .command := by
  refine (Leaves.sequence (.cons (leaves_keyword "SCROLL" (by decide)) (.cons leaves_quoted
    (.cons (Leaves.repetition (.sequence (.cons leaves_comma
      (.cons leaves_quoted .nil)))) .nil)))).make ?_
  rintro _ _ m ⟨_, _, _, rfl, ⟨keyed, rfl⟩, _, w, _, rfl, ⟨t, quoted, rfl, rfl⟩, rounds⟩ rfl
  obtain ⟨ts, strings, rfl, spelled⟩ := exists_strings rounds
  have lines : [t] ++ w ∈ (Command.scroll ((t :: ts).map (·.value))).operandSpellings :=
    spelled (mem_quotedAs quoted)
  have split := splitQuoted_reverse (List.forall_mem_cons.2 ⟨quoted, strings⟩)
  rw [List.map_cons, List.reverse_cons] at split
  refine ⟨.scroll ((t :: ts).map (·.value)), Language.append_mem_mul keyed lines, ?_⟩
  simp [split]

theorem leaves_jumpIfRule : Leaves room jumpIfRule .command := by
  refine (Leaves.sequence (.cons (leaves_keyword "IF" (by decide)) (.cons leaves_condition
    (.cons (leaves_keyword "THEN" (by decide)).optional (.cons leaves_colon.optional
      (.cons (leaves_wordExcept ["THEN"]) .nil)))))).make ?_
  rintro _ _ _ ⟨_, _, _, rfl, ⟨keyed, rfl⟩, _, _, _, rfl, left, _, _, _, rfl, thened, _, _, _, rfl,
    coloned, t, ⟨word, apart⟩, rfl, rfl⟩ rfl
  obtain ⟨q, spelled, rfl⟩ := left (by simp) (by simp)
  have label : [t] ∈ Sentence.nameBut ["THEN"] (nameOf t) := ⟨t, ⟨word, apart, rfl⟩, rfl⟩
  obtain ⟨then_word, rfl⟩ := Outcome.silent_of_maybe thened
  obtain ⟨colon, rfl⟩ := Outcome.silent_of_maybe coloned
  refine ⟨.jumpIf q (nameOf t), Language.append_mem_mul keyed (Language.append_mem_mul spelled
    (Language.append_mem_mul then_word (Language.append_mem_mul colon label))), ?_⟩
  simp

theorem leaves_putRule : Leaves room putRule .command := by
  refine (Leaves.sequence (.cons (leaves_keyword "PUT" (by decide)) (.cons leaves_heading
    (.cons leaves_tile .nil)))).make ?_
  rintro _ _ _ ⟨_, _, _, rfl, ⟨keyed, rfl⟩, _, _, _, rfl, ⟨h, spelled, rfl⟩, left⟩ rfl
  obtain ⟨tile, spelled', rfl⟩ := left (by simp)
  refine ⟨.put h tile,
    Language.append_mem_mul keyed (Language.append_mem_mul spelled spelled'), ?_⟩
  simp

theorem leaves_sendRule : Leaves room sendRule .command := by
  refine (Leaves.sequence (.cons (leaves_keyword "SEND" (by decide)) (.cons leaves_word
    (.cons leaves_word.optional .nil)))).make ?_
  rintro _ _ _ ⟨_, _, _, rfl, ⟨keyed, rfl⟩, _, _, _, rfl, ⟨t, word, rfl, rfl⟩, second⟩ rfl
  rcases second with ⟨u, word', rfl, rfl⟩ | ⟨rfl, rfl⟩
  · refine ⟨.send (some (nameOf t)) (nameOf u), Language.append_mem_mul keyed
      (Language.append_mem_mul (mem_name word) (mem_name word')), ?_⟩
    simp [word]
  · refine ⟨.send none (nameOf t), Language.append_mem_mul keyed
      (Language.append_mem_mul (a := []) rfl (mem_name word)), ?_⟩
    simp

theorem leaves_takeRule : Leaves room takeRule .command := by
  refine (Leaves.sequence (.cons (leaves_keyword "TAKE" (by decide)) (.cons leaves_word
    (.cons leaves_number (.cons leaves_word.optional .nil))))).make ?_
  rintro _ _ _ ⟨_, _, _, rfl, ⟨keyed, rfl⟩, _, _, _, rfl, ⟨t, word, rfl, rfl⟩, _, _, _, rfl,
    ⟨u, ⟨number, n, numeral⟩, rfl, rfl⟩, otherwise⟩ rfl
  have said {w : List Token} {label : Option String}
      (jump : w ∈ Sentence.perhaps Sentence.name label) :=
    Language.append_mem_mul keyed (Language.append_mem_mul (mem_name word)
      (Language.append_mem_mul (mem_numeral number numeral) jump))
  rcases otherwise with ⟨v, label, rfl, rfl⟩ | ⟨rfl, rfl⟩
  · refine ⟨.take (nameOf t) n (some (nameOf v)), said (mem_name label), ?_⟩
    simp [label, run_popCounter word number numeral]
  · refine ⟨.take (nameOf t) n none, said rfl, ?_⟩
    simp [number, run_popCounter word number numeral]

theorem leaves_becomeRule : Leaves room becomeRule .command := by
  refine (Leaves.sequence (.cons (leaves_keyword "BECOME" (by decide))
    (.cons leaves_tile .nil))).make ?_
  rintro _ _ _ ⟨_, _, _, rfl, ⟨keyed, rfl⟩, left⟩ rfl
  obtain ⟨tile, spelled, rfl⟩ := left (by simp)
  refine ⟨.become tile, Language.append_mem_mul keyed spelled, ?_⟩
  simp

theorem leaves_changeRule : Leaves room changeRule .command := by
  refine (Leaves.sequence (.cons (leaves_keyword "CHANGE" (by decide)) (.cons leaves_tile
    (.cons leaves_tile .nil)))).make ?_
  rintro _ _ _ ⟨_, _, _, rfl, ⟨keyed, rfl⟩, _, _, _, rfl, left, left'⟩ rfl
  obtain ⟨source, spelled, rfl⟩ := left (by simp)
  obtain ⟨target, spelled', rfl⟩ := left' (by simp)
  refine ⟨.change source target,
    Language.append_mem_mul keyed (Language.append_mem_mul spelled spelled'), ?_⟩
  simp

theorem leaves_playRule : Leaves room playRule .command := by
  refine (Leaves.sequence (.cons (leaves_keyword "PLAY" (by decide)) (.cons leaves_quoted
    (.cons (leaves_literal "EXCLUSIVE" (by decide)).optional .nil)))).make ?_
  rintro _ _ _ ⟨_, _, _, rfl, ⟨keyed, rfl⟩, _, _, _, rfl, ⟨t, quoted, rfl, rfl⟩, flagged⟩ rfl
  rcases flagged with ⟨u, ⟨word, exclusive⟩, rfl, rfl⟩ | ⟨rfl, rfl⟩
  · refine ⟨.play t.value true, Language.append_mem_mul keyed
      (Language.append_mem_mul (mem_quotedAs quoted) ⟨u, ⟨word, exclusive⟩, rfl⟩), ?_⟩
    rw [sameWord_comm] at exclusive
    simp [word, exclusive]
  · refine ⟨.play t.value false, Language.append_mem_mul keyed
      (Language.append_mem_mul (b := []) (mem_quotedAs quoted) rfl), ?_⟩
    simp [quoted]

theorem leaves_command : ∀ phrase ∈ commands, Leaves room phrase .command := by
  simp only [commands, List.forall_mem_cons, List.not_mem_nil, false_implies, implies_true,
    and_true]
  exact ⟨leaves_moveRule, leaves_attemptRule, leaves_waitRule, leaves_sayRule, leaves_scrollRule,
    leaves_alone _ (by decide) rfl, leaves_alone _ (by decide) rfl, leaves_jumpIfRule,
    leaves_putRule, leaves_sendRule, leaves_withCounter _ _ (by decide) fun _ _ => rfl,
    leaves_withCounter _ _ (by decide) fun _ _ => rfl, leaves_takeRule, leaves_becomeRule,
    leaves_changeRule, leaves_withNumeral _ _ (by decide) fun _ => rfl,
    leaves_withNumeral _ _ (by decide) fun _ => rfl,
    leaves_withHeading _ _ (by decide) fun _ => rfl,
    leaves_withHeading _ _ (by decide) fun _ => rfl,
    leaves_withHeading _ _ (by decide) fun _ => rfl, leaves_alone _ (by decide) rfl,
    leaves_alone _ (by decide) rfl, leaves_alone _ (by decide) rfl,
    leaves_withLabel _ _ (by decide) fun _ => rfl, leaves_withLabel _ _ (by decide) fun _ => rfl,
    leaves_playRule⟩

end Command

theorem leaves_labelRule : Leaves room labelRule fun w before after =>
    ∃ name, w ∈ (Line.label name).spellings ∧ after = .line (.label name) :: before := by
  refine (Leaves.sequence (.cons leaves_colon (.cons leaves_word .nil))).make ?_
  rintro _ s _ ⟨_, _, _, rfl, ⟨colon, rfl⟩, t, word, rfl, rfl⟩
  refine ⟨nameOf t, Language.append_mem_mul colon (mem_name word), ?_⟩
  simp

theorem leaves_lineRule : Leaves room lineRule fun w before after => before = [] →
    ∃ line : Line, w ∈ line.spellings ∧ (after = [] ∧ line = .blank ∨ after = [.line line]) := by
  apply Leaves.alternation
  intro phrase among
  rcases List.mem_append.1 among with among | among
  · refine (leaves_command phrase among).imp fun w s m left nothing => ?_
    obtain ⟨command, spelled, rfl⟩ := left nothing
    exact ⟨.command command, spelled, .inr rfl⟩
  rcases List.mem_cons.1 among with rfl | among
  · refine leaves_labelRule.imp ?_
    rintro w _ _ ⟨name, spelled, rfl⟩ rfl
    exact ⟨.label name, spelled, .inr rfl⟩
  obtain rfl := List.mem_singleton.1 among
  refine Leaves.empty.imp ?_
  rintro _ s _ ⟨rfl, rfl⟩ nothing
  exact ⟨.blank, rfl, .inl ⟨nothing, rfl⟩⟩

end Grammar

namespace Line

open Grammar

theorem parse_eq_ok {ts : List Token} {number : Nat} {line : Line} :
    parse ts number = .ok line ↔ ∃ c, book.complete lineRule (.start ts) = .ok c ∧
      (c.stack = [] ∧ line = .blank ∨ ∃ below, c.stack = .line line :: below) := by
  unfold parse
  cases book.complete lineRule (.start ts) with
  | error error => simp
  | ok c =>
    obtain ⟨tokens, index, stack⟩ := c
    rcases stack with _ | ⟨node, below⟩
    · simpa using eq_comm
    · cases node with
      | line parsed => simp
      | token | color | heading | tile | condition => cases ts <;> simp

end Line
end ActorScript
