import ActorScript.Proofs.Grammar.Stack
import ActorScript.Proofs.Match.Nesting

/-!
No construction gives up. One that does not find what it looks for has only taken items from the
stack; but wherever the reading of a line comes to a construction, its parts have left all that it
takes, and it pushes an item of its own. A heading, a tile or a condition is therefore one item more
on a stack that is otherwise as it was, and a line that has taken anything is the one item that
there is.
-/
namespace ActorScript.Grammar

open Rule Phrase Construction

def Colorless (s : List Node) : Prop := ∀ color, s.head? ≠ some (.color color)

/-- Nothing is on top that a condition could take for its own. -/
def Clear (s : List Node) : Prop := Colorless s ∧ ∀ h, s.head? ≠ some (.heading h)

theorem colorless_nil : Colorless [] := nofun

theorem clear_nil : Clear [] := ⟨colorless_nil, nofun⟩

/-- What is left of a stack from which items are only taken. -/
inductive Takings : List Node → List Node → Prop where
  | none {s} : Takings s s
  | item {α : Type} {s m} (select : Node → Option α)
      (more : Takings ((popIf select).run s).2 m) : Takings s m
  | token {s m} (more : Takings (popToken.run s).2 m) : Takings s m
  | strings {s m} (more : Takings (popQuotedAll.run s).2 m) : Takings s m

theorem splitQuoted_suffix (s : List Node) : (splitQuoted s).2 <:+ s := by
  induction s with
  | nil => exact List.suffix_refl []
  | cons node s ih =>
    cases node with
    | token t =>
      rw [splitQuoted]
      split
      · exact ih.trans (List.suffix_cons _ s)
      · exact List.suffix_refl _
    | _ => exact List.suffix_refl _

theorem Takings.suffix {s m : List Node} (takings : Takings s m) : m <:+ s := by
  induction takings with
  | none => exact List.suffix_refl _
  | @item _ s _ select _ ih =>
    refine ih.trans ?_
    rw [run_popIf]
    cases s with
    | nil => exact List.suffix_refl []
    | cons node s =>
      dsimp only
      cases select node with
      | none => exact List.suffix_refl _
      | some => exact List.suffix_cons node s
  | @token s _ _ ih =>
    refine ih.trans ?_
    cases s with
    | nil => exact List.suffix_refl []
    | cons node s => cases node <;> exact List.suffix_cons _ s
  | strings _ ih => exact ih.trans (splitQuoted_suffix _)

/-- A construction that gives up has only taken items. -/
def Finishes (action : Candidate Token Node → Candidate Token Node) (c : Candidate Token Node) :
    Prop :=
  ¬Takings c.stack (action c).stack

/-- What holds wherever a reading comes to. -/
structure Orderly (goal : Task Token Node Name) (pool : Pool Token Node) : Prop where
  lexical : ∀ c ∈ pool, ∀ t ∈ c.tokens, t.IsLexical
  colorless : goal = .rule tile → ∀ c ∈ pool, Colorless c.stack
  clear : goal = .rule condition → ∀ c ∈ pool, Clear c.stack
  finishes : ∀ action inner, goal = .rule (.build action inner) → ∀ c ∈ pool, ∀ d,
    Derives book.rule AnyRound inner c d → Finishes action d

/-- A candidate with tokens of texts, of which at most `room` are left, and with such a stack. -/
structure Ready (room : Nat) (p : List Node → Prop) (c : Candidate Token Node) : Prop where
  lexical : ∀ t ∈ c.tokens, t.IsLexical
  enough : c.rest.length ≤ room
  stack : p c.stack

/-- From candidates that are ready, the task comes to nothing that is not orderly. -/
def Heeds (room : Nat) (p : List Node → Prop) (task : Task Token Node Name) : Prop :=
  ∀ cs : Pool Token Node, (∀ c ∈ cs, Ready room p c) →
    ∀ goal pool k, Comes book.rule goal pool k task cs → Orderly goal pool

variable {room : Nat} {p q : List Node → Prop} {task goal : Task Token Node Name}
  {part inner : Phrase} {parts choices : List Phrase} {outcome : Outcome} {accepts : Token → Bool}
  {item : Option (Token → Node)} {cs pool next : Pool Token Node} {c d : Candidate Token Node}

theorem Ready.imp (ready : Ready room p c) (wider : ∀ s, p s → q s) : Ready room q c :=
  ⟨ready.lexical, ready.enough, wider _ ready.stack⟩

theorem Ready.derived (ready : Ready room p c) (leaves : Leaves room part outcome)
    (later : ∀ w s m, p s → outcome w s m → q m) (derived : Derives book.rule AnyRound part c d) :
    Ready room q d := by
  obtain ⟨w, taken, left⟩ := leaves c d ready.lexical ready.enough derived
  have fewer := taken.length_rest
  have enough := ready.enough
  exact ⟨by rw [taken.tokens]; exact ready.lexical, by omega, later _ _ _ ready.stack left⟩

theorem Orderly.of_plain (ready : ∀ c ∈ pool, Ready room p c)
    (unbuilt : ∀ action inner, goal ≠ .rule (.build action inner))
    (unnamed : goal ≠ .rule condition) : Orderly goal pool where
  lexical c given := (ready c given).lexical
  colorless same := absurd same (unbuilt _ _)
  clear same := absurd same unnamed
  finishes action inner same := absurd same (unbuilt action inner)

namespace Heeds

theorem imp (heeds : Heeds room q task) (wider : ∀ s, p s → q s) : Heeds room p task :=
  fun cs ready => heeds cs fun c given => (ready c given).imp wider

theorem terminal : Heeds room p (.rule (.terminal accepts item)) := by
  intro cs ready goal pool k comes
  cases comes with
  | here => exact .of_plain ready nofun nofun

theorem empty : Heeds room p (.rule .empty) := by
  intro cs ready goal pool k comes
  cases comes with
  | here => exact .of_plain ready nofun nofun

theorem nil {begun : Bool} : Heeds room p (.parts begun []) := by
  intro cs ready goal pool k comes
  cases comes with
  | here => exact .of_plain ready nofun nofun

theorem cons {begun : Bool} (first : Heeds room p (.rule part)) (leaves : Leaves room part outcome)
    (between : ∀ w s m, p s → outcome w s m → q m) (later : Heeds room q (.parts true parts)) :
    Heeds room p (.parts begun (part :: parts)) := by
  intro cs ready goal pool k comes
  cases comes with
  | here => exact .of_plain ready nofun nofun
  | part on => exact first cs ready goal pool _ on
  | parts read _ on =>
    refine later _ (fun d mem => ?_) goal pool _ on
    obtain ⟨c, given, derived⟩ := read.sound _ rfl d mem
    exact (ready c given).derived leaves between derived

theorem last {begun : Bool} (heeds : Heeds room p (.rule part))
    (leaves : Leaves room part outcome) : Heeds room p (.parts begun [part]) :=
  .cons heeds leaves (q := fun _ => True) (fun _ _ _ _ _ => trivial) .nil

theorem lead {begun : Bool} (leaves : Leaves room (.terminal accepts item) outcome)
    (between : ∀ w s m, p s → outcome w s m → q m)
    (later : ∀ less < room, Heeds less q (.parts true parts)) :
    Heeds room p (.parts begun (.terminal accepts item :: parts)) := by
  intro cs ready goal pool k comes
  cases comes with
  | here => exact .of_plain ready nofun nofun
  | part on => exact terminal cs ready goal pool _ on
  | @parts _ _ _ _ _ next read some_left on =>
    have fewer : ∀ d ∈ next, Ready (room - 1) q d ∧ 0 < room := by
      intro d mem
      obtain ⟨c, given, derived⟩ := read.sound _ rfl d mem
      obtain ⟨lexical, -, stack⟩ := (ready c given).derived leaves between derived
      have enough := (ready c given).enough
      cases derived with
      | terminal accepted =>
        obtain ⟨t, r, next, -, rfl⟩ := Candidate.take?_iff.1 accepted
        have fewer := (Candidate.takes_skip next item).length_rest
        rw [List.length_singleton] at fewer
        exact ⟨⟨lexical, by omega, stack⟩, by omega⟩
    obtain ⟨d, mem⟩ := List.exists_mem_of_ne_nil _ some_left
    have some_room := (fewer d mem).2
    exact later (room - 1) (by omega) next (fun d mem => (fewer d mem).1) goal pool _ on

theorem sequence (heeds : Heeds room p (.parts false parts)) :
    Heeds room p (.rule (.sequence parts)) := by
  intro cs ready goal pool k comes
  cases comes with
  | here => exact .of_plain ready nofun nofun
  | sequence on => exact heeds cs ready goal pool _ on

theorem each (heeds : ∀ choice ∈ choices, Heeds room p (.rule choice)) :
    Heeds room p (.each choices) := by
  intro cs ready goal pool k comes
  induction choices with
  | nil =>
    cases comes with
    | here => exact .of_plain ready nofun nofun
  | cons choice choices ih =>
    obtain ⟨first, others⟩ := List.forall_mem_cons.1 heeds
    cases comes with
    | here => exact .of_plain ready nofun nofun
    | choice on => exact first cs ready goal pool _ on
    | others _ on => exact ih others on

theorem alternation (heeds : ∀ choice ∈ choices, Heeds room p (.rule choice)) :
    Heeds room p (.rule (.alternation choices)) := by
  intro cs ready goal pool k comes
  cases comes with
  | here => exact .of_plain ready nofun nofun
  | alternation on => exact each heeds cs ready goal pool _ on

theorem optional (heeds : Heeds room p (.rule inner)) : Heeds room p (.rule (.optional inner)) := by
  apply alternation
  simp only [List.forall_mem_cons, List.not_mem_nil, false_implies, implies_true, and_true]
  exact ⟨heeds, empty⟩

theorem repetition (heeds : Heeds room p (.rule inner)) (leaves : Leaves room inner outcome)
    (keeps : ∀ w s m, p s → outcome w s m → p m) : Heeds room p (.rule (.repetition inner)) := by
  intro cs ready goal pool k comes
  cases comes with
  | here => exact .of_plain ready nofun nofun
  | repetition on =>
    generalize rounds : Task.rounds inner = task at on
    induction on with
    | here =>
      subst rounds
      exact .of_plain ready nofun nofun
    | round _ on =>
      cases rounds
      exact heeds _ ready goal pool _ on
    | rounds _ read _ ih =>
      cases rounds
      refine ih (fun d mem => ?_) rfl
      obtain ⟨c, given, derived⟩ := read.sound _ rfl d (List.mem_filter.1 mem).1
      exact (ready c given).derived leaves keeps derived
    | sequence | alternation | repetition | named | built | part | parts | choice | others =>
      cases rounds

theorem named (name : Name) (heeds : Heeds room p (.rule (book.rule name)))
    (clear : name = .condition → ∀ s, p s → Clear s) : Heeds room p (.rule (.deferred name)) := by
  intro cs ready goal pool k comes
  cases comes with
  | here =>
    refine ⟨fun c given => (ready c given).lexical, nofun, fun same c given => ?_, nofun⟩
    cases same
    exact clear rfl _ (ready c given).stack
  | named on => exact heeds cs ready goal pool _ on

theorem make {construction : Construction Unit} (heeds : Heeds room p (.rule inner))
    (colorless : ∀ s, p s → Colorless s)
    (finishes : ∀ c d, Ready room p c → Derives book.rule AnyRound inner c d →
      ¬(construction.run d.stack).2 <:+ d.stack) :
    Heeds room p (.rule (Phrase.make construction inner)) := by
  intro cs ready goal pool k comes
  cases comes with
  | here =>
    refine ⟨fun c given => (ready c given).lexical, fun _ c given => ?_, nofun, ?_⟩
    · exact colorless _ (ready c given).stack
    · intro action inner same c given d derived
      cases same
      exact fun takings => finishes c d (ready c given) derived takings.suffix
  | built on => exact heeds cs ready goal pool _ on

end Heeds

theorem not_suffix {node : Node} {items s : List Node} (apart : node ∉ items) :
    ¬node :: s <:+ items ++ s := by
  rintro ⟨above, same⟩
  rw [List.append_cons, List.append_cancel_right_eq] at same
  subst same
  simp at apart

theorem Heeds.makes {construction : Construction Unit} (heeds : Heeds room p (.rule inner))
    (colorless : ∀ s, p s → Colorless s) (leaves : Leaves room inner outcome)
    (makes : ∀ w s m, p s → outcome w s m → ∃ items node, m = items ++ s ∧ node ∉ items ∧
      (construction.run m).2 = node :: s) :
    Heeds room p (.rule (Phrase.make construction inner)) := by
  refine heeds.make colorless fun c d ready derived => ?_
  obtain ⟨w, -, left⟩ := leaves c d ready.lexical ready.enough derived
  obtain ⟨items, node, stack, apart, made⟩ := makes w _ _ ready.stack left
  rw [made, stack]
  exact not_suffix apart

theorem Heeds.remakes {construction : Construction Unit} (kind : Node → Prop)
    (heeds : Heeds room p (.rule inner)) (colorless : ∀ s, p s → Colorless s)
    (leaves : Leaves room inner fun _ before after => p before →
      ∃ items : List Node, after = items ++ before ∧ ∀ node ∈ items, kind node)
    (makes : Leaves room (Phrase.make construction inner) fun _ before after => p before →
      ∃ node, ¬kind node ∧ after = node :: before) :
    Heeds room p (.rule (Phrase.make construction inner)) := by
  refine heeds.make colorless fun c d ready derived => ?_
  obtain ⟨_, -, left⟩ := leaves c d ready.lexical ready.enough derived
  obtain ⟨items, stack, of_kind⟩ := left ready.stack
  obtain ⟨_, -, made⟩ := makes c _ ready.lexical ready.enough (.built derived)
  obtain ⟨node, apart, made⟩ := made ready.stack
  rw [show (construction.run d.stack).2 = node :: c.stack from made, stack]
  exact not_suffix fun mem => apart (of_kind node mem)

section Operands

/-- A token, or what a heading or a tile was read as. -/
def Node.IsOperand : Node → Prop
  | .token _ | .heading _ | .tile _ => True
  | .color _ | .condition _ | .line _ => False

def Outcome.operands : Outcome := fun _ before after => Colorless before →
  ∃ items : List Node, after = items ++ before ∧ ∀ node ∈ items, node.IsOperand

/-- A part that leaves operands wherever no color is on top. -/
structure Operand (room : Nat) (part : Phrase) : Prop where
  heeds : Heeds room Colorless (.rule part)
  leaves : Leaves room part .operands

theorem colorless_operands {w : List Token} (s m : List Node) (colorless : Colorless s)
    (operands : Outcome.operands w s m) : Colorless m := by
  obtain ⟨items, rfl, each⟩ := operands colorless
  cases items with
  | nil => exact colorless
  | cons node items =>
    intro color top
    cases Option.some.inj top
    exact each _ List.mem_cons_self

theorem Outcome.operands.trans {u v w : List Token} {s m m' : List Node}
    (first : Outcome.operands u s m) (later : Outcome.operands v m m') :
    Outcome.operands w s m' := by
  intro colorless
  obtain ⟨above, rfl, operands'⟩ := later (colorless_operands _ _ colorless first)
  obtain ⟨items, rfl, operands⟩ := first colorless
  refine ⟨above ++ items, (List.append_assoc ..).symm, fun node mem => ?_⟩
  rcases List.mem_append.1 mem with mem | mem
  · exact operands' node mem
  · exact operands node mem

theorem Outcome.operands.refl {w : List Token} {s : List Node} : Outcome.operands w s s :=
  fun _ => ⟨[], rfl, nofun⟩

namespace Operand

theorem keyword {text : String} : Operand room (keyword text) where
  heeds := .terminal
  leaves := (Leaves.discarded (p := fun _ => True) fun _ _ _ => trivial).imp <| by
    rintro w s _ ⟨-, rfl⟩
    exact .refl

theorem token : Operand room (.terminal accepts (some .token)) where
  heeds := .terminal
  leaves := (Leaves.token (p := fun _ => True) fun _ _ _ => trivial).imp <| by
    rintro w s _ ⟨t, -, -, rfl⟩ -
    exact ⟨[.token t], rfl, by simp [Node.IsOperand]⟩

theorem optional (operand : Operand room inner) : Operand room (.optional inner) where
  heeds := operand.heeds.optional
  leaves := operand.leaves.optional.imp <| by
    rintro w s m (left | ⟨-, rfl⟩)
    · exact left
    · exact .refl

theorem heeds_parts (operands : ∀ part ∈ parts, Operand room part) (begun : Bool) :
    Heeds room Colorless (.parts begun parts) := by
  induction parts generalizing begun with
  | nil => exact .nil
  | cons part parts ih =>
    obtain ⟨first, others⟩ := List.forall_mem_cons.1 operands
    exact .cons first.heeds first.leaves (fun _ => colorless_operands) (ih others true)

theorem sequence (operands : ∀ part ∈ parts, Operand room part) :
    Operand room (.sequence parts) where
  heeds := .sequence (heeds_parts operands false)
  leaves := by
    induction parts with
    | nil =>
      refine Leaves.nil.imp ?_
      rintro w s _ ⟨-, rfl⟩
      exact .refl
    | cons part parts ih =>
      obtain ⟨first, others⟩ := List.forall_mem_cons.1 operands
      intro c e lexical enough derived
      cases derived with
      | @cons _ _ _ d _ once more =>
        obtain ⟨u, taken, left⟩ := first.leaves c d lexical enough once
        have fewer := taken.length_rest
        obtain ⟨v, taken', left'⟩ :=
          ih others d e (by rwa [taken.tokens]) (by omega) more
        exact ⟨u ++ v, taken.trans taken', left.trans left'⟩

theorem repetition (operand : Operand room inner) : Operand room (.repetition inner) where
  heeds := operand.heeds.repetition operand.leaves fun _ => colorless_operands
  leaves := operand.leaves.repetition.imp <| by
    intro w s m rounds
    induction rounds with
    | none => exact .refl
    | more once _ ih => exact once.trans ih

end Operand

def MadeOfOperands (room : Nat) (phrase : Phrase) : Prop :=
  ∃ construction inner, phrase = make construction inner ∧ Operand room inner

theorem MadeOfOperands.sequence {construction : Construction Unit}
    (operands : ∀ part ∈ parts, Operand room part) :
    MadeOfOperands room (make construction (.sequence parts)) := ⟨_, _, rfl, .sequence operands⟩

theorem Operand.make {construction : Construction Unit} (operand : Operand room inner)
    (colorless : ∀ s, p s → Colorless s)
    (makes : Leaves room (Phrase.make construction inner) fun _ before after =>
      p before → ∃ node : Node, ¬node.IsOperand ∧ after = node :: before) :
    Heeds room p (.rule (Phrase.make construction inner)) :=
  (operand.heeds.imp colorless).remakes Node.IsOperand colorless
    (operand.leaves.imp fun _ _ _ left before => left (colorless _ before)) makes

end Operands

section Heading

theorem colorless_token {t : Token} {s : List Node} : Colorless (.token t :: s) := by
  rintro color ⟨⟩

theorem heeds_headingRule (room : Nat) : Heeds room Colorless (.rule headingRule) := by
  induction room using Nat.strong_induction_on with
  | _ room ih =>
    have aim : Heeds room Colorless (.rule aimOnly) := by
      refine Heeds.terminal.makes (fun _ => id) (leaves_names aim_names) ?_
      rintro _ s _ - ⟨t, ⟨-, shown⟩, -, rfl⟩
      obtain ⟨aim, named⟩ : ∃ aim, Aim.named? t.value = some aim := exists_named shown
      exact ⟨[.token t], .heading ⟨aim, []⟩, rfl, by simp, by simp [named]⟩
    have turned : Heeds room Colorless (.rule turned) := by
      refine Heeds.makes (.sequence (.lead (leaves_names turn_names) (q := Colorless) ?_ ?_))
        (fun _ => id) (Leaves.sequence (.cons (leaves_names turn_names)
          (.cons leaves_heading .nil))) ?_
      · rintro _ s _ - ⟨t, -, -, rfl⟩
        exact colorless_token
      · intro less lt
        exact .last (.named .heading (ih less lt) nofun) leaves_heading
      · rintro _ s _ - ⟨_, _, _, -, ⟨t, ⟨-, shown⟩, -, rfl⟩, h, -, rfl⟩
        obtain ⟨turn, named⟩ : ∃ turn, Turn.named? t.value = some turn := exists_named shown
        refine ⟨[.heading h, .token t], .heading { h with turns := turn :: h.turns }, rfl, ?_, ?_⟩
        · cases h
          simp
        · simp [named]
    apply Heeds.alternation
    simp only [List.forall_mem_cons, List.not_mem_nil, false_implies, implies_true, and_true]
    exact ⟨aim, turned⟩

theorem operand_heading : Operand room heading where
  heeds := .named .heading (heeds_headingRule room) nofun
  leaves := leaves_heading.imp <| by
    rintro w s _ ⟨h, -, rfl⟩ -
    exact ⟨[.heading h], rfl, by simp [Node.IsOperand]⟩

end Heading

section Tile

theorem heeds_colorWord : Heeds room Colorless (.rule colorWord) := by
  refine Heeds.terminal.makes (fun _ => id) (leaves_names color_names) ?_
  rintro _ s _ - ⟨t, ⟨-, shown⟩, -, rfl⟩
  obtain ⟨color, named⟩ := Color.exists_named shown
  exact ⟨[.token t], .color color, rfl, by simp, by simp [named]⟩

theorem heeds_tile : Heeds room Colorless (.rule tile) := by
  have parts : Heeds room Colorless (.rule (.sequence [.optional colorWord, word])) :=
    .sequence (.cons heeds_colorWord.optional leaves_colorWord.optional (q := fun _ => True)
      (fun _ _ _ _ _ => trivial) (.last .terminal leaves_word))
  refine parts.makes (fun _ => id)
    (Leaves.sequence (.cons leaves_colorWord.optional (.cons leaves_word .nil))) ?_
  rintro _ s _ colorless ⟨_, _, _, -, colored, t, -, -, rfl⟩
  rcases colored with ⟨color, -, rfl⟩ | ⟨-, rfl⟩
  · exact ⟨[.token t, .color color], .tile ⟨some color, nameOf t⟩, rfl, by simp, by simp⟩
  · refine ⟨[.token t], .tile ⟨none, nameOf t⟩, rfl, by simp, ?_⟩
    cases s with
    | nil => simp
    | cons node s =>
      cases node with
      | color color => exact absurd rfl (colorless color)
      | token | heading | tile | condition | line => simp

theorem operand_tile : Operand room tile where
  heeds := heeds_tile
  leaves := leaves_tile.imp <| by
    rintro w s _ left colorless
    obtain ⟨tile, -, rfl⟩ := left colorless
    exact ⟨[.tile tile], rfl, by simp [Node.IsOperand]⟩

end Tile

section Condition

theorem leaves_form {form : Phrase} (among : form ∈ conditions) : Leaves room form .condition :=
  fun c d lexical enough derived =>
    leaves_conditionRule room c d lexical enough (.choice among derived)

theorem forms_of_operands : ∀ form ∈ conditions.tail, MadeOfOperands room form := by
  simp only [conditions, List.tail_cons, List.forall_mem_cons, List.not_mem_nil, false_implies,
    implies_true, and_true]
  refine ⟨⟨_, _, rfl, .keyword⟩, .sequence ?_, .sequence ?_, .sequence ?_, .sequence ?_,
    .sequence ?_, .sequence ?_⟩ <;>
    simp [Operand.keyword, Operand.optional, Operand.token, operand_heading, operand_tile, number,
      word, wordExcept, oneOf]

theorem heeds_conditionRule (room : Nat) : Heeds room Clear (.rule conditionRule) := by
  induction room using Nat.strong_induction_on with
  | _ room ih =>
    have negated : Heeds room Clear (.rule (.sequence [keyword "NOT", condition])) := by
      refine .sequence (.lead (leaves_keyword "NOT" (by decide)) (q := Clear) ?_ ?_)
      · rintro _ s _ clear ⟨-, rfl⟩
        exact clear
      · intro less lt
        exact .last (.named .condition (ih less lt) fun _ _ => id) leaves_condition
    refine .alternation (List.forall_mem_cons.2 ⟨?_, fun form among => ?_⟩)
    · refine negated.makes (fun _ clear => clear.1) (Leaves.sequence (.cons
        (leaves_keyword "NOT" (by decide)) (.cons leaves_condition .nil))) ?_
      rintro _ s _ clear ⟨_, _, _, -, ⟨-, rfl⟩, left⟩
      obtain ⟨q, -, rfl⟩ := left clear.1 clear.2
      refine ⟨[.condition q], .condition (.not q), rfl, ?_, by simp⟩
      intro mem
      cases List.mem_singleton.1 mem
    · obtain ⟨construction, inner, rfl, operand⟩ := forms_of_operands form among
      refine operand.make (fun _ clear => clear.1)
        ((leaves_form (List.mem_cons_of_mem _ among)).imp ?_)
      rintro _ s _ left clear
      obtain ⟨q, -, rfl⟩ := left clear.1 clear.2
      exact ⟨.condition q, id, rfl⟩

theorem heeds_condition : Heeds room Clear (.rule condition) :=
  .named .condition (heeds_conditionRule room) fun _ _ => id

end Condition

section Line

theorem commands_of_operands :
    ∀ phrase ∈ commands, phrase = jumpIfRule ∨ MadeOfOperands room phrase := by
  have alone {command : Command} : MadeOfOperands room (alone command) := ⟨_, _, rfl, .keyword⟩
  simp only [commands, List.forall_mem_cons, List.not_mem_nil, false_implies, implies_true,
    and_true]
  refine ⟨.inr (.sequence ?_), .inr (.sequence ?_), .inr (.sequence ?_), .inr (.sequence ?_),
    .inr (.sequence ?_), .inr alone, .inr alone, .inl trivial, .inr (.sequence ?_),
    .inr (.sequence ?_), .inr (.sequence ?_), .inr (.sequence ?_), .inr (.sequence ?_),
    .inr (.sequence ?_), .inr (.sequence ?_), .inr (.sequence ?_), .inr (.sequence ?_),
    .inr (.sequence ?_), .inr (.sequence ?_), .inr (.sequence ?_), .inr alone, .inr alone,
    .inr alone, .inr (.sequence ?_), .inr (.sequence ?_), .inr (.sequence ?_)⟩ <;>
    simp [Operand.keyword, Operand.optional, Operand.token, Operand.repetition, Operand.sequence,
      operand_heading, operand_tile, number, word, literal, quoted]

/-- A phrase from nothing leaves a line alone. -/
def Outcome.alone : Outcome := fun _ before after => before = [] → ∃ line, after = [.line line]

theorem heeds_alone {phrase : Phrase} (made : MadeOfOperands room phrase)
    (leaves : Leaves room phrase .alone) : Heeds room (· = []) (.rule phrase) := by
  obtain ⟨construction, inner, rfl, operand⟩ := made
  refine operand.make ?_ (leaves.imp ?_)
  · rintro _ rfl
    exact colorless_nil
  · rintro _ s _ left rfl
    obtain ⟨line, rfl⟩ := left rfl
    exact ⟨.line line, id, rfl⟩

theorem leaves_command_alone {phrase : Phrase} (among : phrase ∈ commands) :
    Leaves room phrase .alone :=
  (leaves_command phrase among).imp fun _ _ _ left nothing => by
    obtain ⟨command, -, left⟩ := left nothing
    exact ⟨_, left⟩

theorem heeds_jumpIf (among : jumpIfRule ∈ commands) :
    Heeds room (· = []) (.rule jumpIfRule) := by
  have tail : ∀ part ∈ [.optional (keyword "THEN"), .optional (keyword ":"), wordExcept ["THEN"]],
      Operand room part := by
    simp [Operand.keyword, Operand.optional, Operand.token, wordExcept]
  have clear : ∀ s, s = [] → Clear s := by
    rintro _ rfl
    exact clear_nil
  have rest : Leaves room (.sequence _) (.chain [.operands]) := (Operand.sequence tail).leaves
  refine Heeds.remakes (fun node => node.IsOperand ∨ ∃ q, node = .condition q)
    (.sequence (.cons .terminal (leaves_keyword "IF" (by decide)) (q := (· = [])) ?_
      (.cons (heeds_condition.imp clear) leaves_condition (q := Colorless) ?_
        (Operand.heeds_parts tail true)))) (fun s nothing => (clear s nothing).1)
    ((Leaves.cons (leaves_keyword "IF" (by decide)) (.cons leaves_condition rest)).imp ?_)
    ((leaves_command_alone among).imp ?_)
  · rintro _ _ _ rfl ⟨-, rfl⟩
    rfl
  · rintro _ _ _ rfl left
    obtain ⟨q, -, rfl⟩ := left clear_nil.1 clear_nil.2
    rintro color ⟨⟩
  · rintro _ _ _ ⟨_, _, _, -, ⟨-, rfl⟩, _, _, _, -, left, operands⟩ rfl
    obtain ⟨q, -, rfl⟩ := left clear_nil.1 clear_nil.2
    obtain ⟨items, rfl, each⟩ := operands (by rintro color ⟨⟩)
    refine ⟨items ++ [Node.condition q], by simp, fun node mem => ?_⟩
    rcases List.mem_append.1 mem with mem | mem
    · exact .inl (each node mem)
    · exact .inr ⟨q, List.mem_singleton.1 mem⟩
  · rintro _ _ _ left rfl
    obtain ⟨line, rfl⟩ := left rfl
    exact ⟨.line line, by simp [Node.IsOperand], rfl⟩

theorem heeds_lineRule : Heeds room (· = []) (.rule lineRule) := by
  apply Heeds.alternation
  intro phrase among
  rcases List.mem_append.1 among with among | among
  · rcases commands_of_operands phrase among with rfl | made
    · exact heeds_jumpIf among
    · exact heeds_alone made (leaves_command_alone among)
  rcases List.mem_cons.1 among with rfl | among
  · refine heeds_alone (.sequence ?_) (leaves_labelRule.imp ?_)
    · simp [Operand.keyword, Operand.token, word]
    · rintro _ _ _ ⟨name, -, rfl⟩ rfl
      exact ⟨_, rfl⟩
  obtain rfl := List.mem_singleton.1 among
  exact .empty

/-- Each of what the phrase makes of a pool is one of its candidates with one such item more, which
is spelled by the tokens that were taken for it. -/
def AddsOne {α : Type} (phrase : Phrase) (node : α → Node) (spellings : α → Language Token)
    (pool : Pool Token Node) : Prop :=
  ∀ outs, Gives book.rule (.rule phrase) pool (.ok outs) → ∀ d ∈ outs, ∃ c ∈ pool, ∃ w a,
    c.Takes w d ∧ w ∈ spellings a ∧ d.stack = node a :: c.stack

theorem addsOne {α : Type} {phrase : Phrase} {node : α → Node} {spellings : α → Language Token}
    (lexical : ∀ c ∈ pool, ∀ t ∈ c.tokens, t.IsLexical)
    (leaves : ∀ room, Leaves room phrase fun w before after =>
      p before → ∃ a, w ∈ spellings a ∧ after = node a :: before)
    (ready : ∀ c ∈ pool, p c.stack) : AddsOne phrase node spellings pool := by
  intro outs given d mem
  obtain ⟨c, among, derived⟩ := given.sound outs rfl d mem
  obtain ⟨w, taken, left⟩ := leaves _ c d (lexical c among) (Nat.le_refl _) derived
  obtain ⟨a, word, stack⟩ := left (ready c among)
  exact ⟨c, among, w, a, taken, word, stack⟩

theorem orderly_of_comes {ts : List Token} (lexical : ∀ t ∈ ts, t.IsLexical) {k : Nat}
    (comes : Comes book.rule goal pool k (.rule lineRule) [.start ts]) : Orderly goal pool := by
  have heeds : Heeds ts.length (· = []) (.rule lineRule) := heeds_lineRule
  refine heeds _ (fun c given => ?_) goal pool k comes
  obtain rfl := List.mem_singleton.1 given
  exact ⟨lexical, Nat.le_refl _, rfl⟩

/-- What the tokens of a line are read as is one line, or nothing where no token was taken. -/
theorem line_left {ts : List Token} (lexical : ∀ t ∈ ts, t.IsLexical) {d : Candidate Token Node}
    (derived : Derives book.rule AnyRound lineRule (.start ts) d) :
    (∃ line, d.stack = [.line line]) ∨ d.index = 0 ∧ d.stack = [] := by
  obtain ⟨w, taken, left⟩ := leaves_lineRule _ d lexical (Nat.le_refl _) derived
  obtain ⟨line, word, ⟨nothing, rfl⟩ | left⟩ := left rfl
  · obtain rfl : w = [] := word
    exact .inr ⟨taken.index, nothing⟩
  · exact .inl ⟨line, left⟩

/-- Whatever tokens of a text are read as a line, each candidate in the end has one line alone on
its stack, or took no token and has nothing there; so that a line that is read is one or is blank.
Wherever a heading, a condition or a tile is read on the way, it is one item more on a stack that is
otherwise left alone; and wherever there is a construction, it does more than to take items. -/
theorem constructions_finish {text : String} {all ts : List Token} (lexed : tokenize text = .ok all)
    (of_text : ∀ t ∈ ts, t ∈ all) :
    (∀ outs, book.read lineRule [.start ts] = .ok outs →
      ∀ d ∈ outs, (∃ line, d.stack = [.line line]) ∨ d.index = 0 ∧ d.stack = []) ∧
    (∀ pool k,
      (Comes book.rule (.rule heading) pool k (.rule lineRule) [.start ts] →
        AddsOne heading .heading Heading.spellings pool) ∧
      (Comes book.rule (.rule condition) pool k (.rule lineRule) [.start ts] →
        AddsOne condition .condition Condition.spellings pool) ∧
      (Comes book.rule (.rule tile) pool k (.rule lineRule) [.start ts] →
        AddsOne tile .tile Tile.spellings pool)) ∧
    (∀ action inner pool k,
      Comes book.rule (.rule (.build action inner)) pool k (.rule lineRule) [.start ts] →
      ∀ made, Gives book.rule (.rule inner) pool (.ok made) →
        ∀ c ∈ made, Finishes action c) ∧
    ∀ c, book.complete lineRule (.start ts) = .ok c → ∀ number,
      c.stack = [] ∧ Line.parse ts number = .ok .blank ∨
        ∃ line, c.stack = [.line line] ∧ Line.parse ts number = .ok line := by
  have lexical : ∀ t ∈ ts, t.IsLexical := fun t mem =>
    isLexical_of_tokenize lexed t (of_text t mem)
  have left : ∀ outs, book.read lineRule [.start ts] = .ok outs →
      ∀ d ∈ outs, (∃ line, d.stack = [.line line]) ∨ d.index = 0 ∧ d.stack = [] := by
    intro outs read d mem
    obtain ⟨c, given, derived⟩ := book.read_sound lineRule _ outs read d mem
    obtain rfl := List.mem_singleton.1 given
    exact line_left lexical derived
  refine ⟨left, fun pool k => ⟨fun comes => ?_, fun comes => ?_, fun comes => ?_⟩, ?_, ?_⟩
  · exact addsOne (p := fun _ => True) (orderly_of_comes lexical comes).lexical
      (fun _ => leaves_heading.imp fun _ _ _ left _ => left) fun _ _ => trivial
  · have orderly := orderly_of_comes lexical comes
    refine addsOne orderly.lexical (fun _ => leaves_condition.imp ?_) (orderly.clear rfl)
    exact fun _ _ _ left clear => left clear.1 clear.2
  · have orderly := orderly_of_comes lexical comes
    exact addsOne orderly.lexical (fun _ => leaves_tile) (orderly.colorless rfl)
  · intro action inner pool k comes made given d mem
    obtain ⟨c, among, derived⟩ := given.sound made rfl d mem
    exact (orderly_of_comes lexical comes).finishes action inner rfl c among d derived
  · intro c found number
    obtain ⟨derived, -, -⟩ := book.complete_eq_ok found
    rcases line_left lexical derived with ⟨line, stack⟩ | ⟨-, stack⟩
    · exact .inr ⟨line, stack, Line.parse_eq_ok.2 ⟨c, found, .inr ⟨[], stack⟩⟩⟩
    · exact .inl ⟨stack, Line.parse_eq_ok.2 ⟨c, found, .inl ⟨stack, rfl⟩⟩⟩

/-- A color can be the name of a thing, so that a line is also read without its last word. -/
theorem constructions_finish_put :
    let ts : List Token := [⟨.word, "PUT", ⟨1, 1, 0⟩⟩, ⟨.word, "CW", ⟨1, 5, 4⟩⟩,
      ⟨.word, "N", ⟨1, 8, 7⟩⟩, ⟨.word, "RED", ⟨1, 10, 9⟩⟩, ⟨.word, "Gem", ⟨1, 14, 13⟩⟩]
    let aside : Heading := ⟨.fixed .north, [.clockwise]⟩
    let outs : Pool Token Node :=
      [⟨ts, 5, [.line (.command (.put aside ⟨some .red, "gem"⟩))], by decide⟩,
        ⟨ts, 4, [.line (.command (.put aside ⟨none, "red"⟩))], by decide⟩, .start ts]
    tokenize "PUT CW N RED Gem" = .ok ts ∧ book.read lineRule [.start ts] = .ok outs ∧
      (∀ d ∈ outs, (∃ line, d.stack = [.line line]) ∨ d.index = 0 ∧ d.stack = []) ∧
      ∀ action inner pool k,
        Comes book.rule (.rule (.build action inner)) pool k (.rule lineRule) [.start ts] →
        ∀ made, Gives book.rule (.rule inner) pool (.ok made) → ∀ c ∈ made, Finishes action c := by
  intro ts aside outs
  have lexed : tokenize "PUT CW N RED Gem" = .ok ts := by decide +kernel
  have read : book.read lineRule [.start ts] = .ok outs := by decide +kernel
  obtain ⟨left, -, finish, -⟩ := constructions_finish lexed fun _ => id
  exact ⟨lexed, read, left outs read, finish⟩

end Line

end ActorScript.Grammar
