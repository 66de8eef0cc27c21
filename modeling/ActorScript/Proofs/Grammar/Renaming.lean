import ActorScript.Proofs.Grammar.Stack
import ActorScript.Proofs.Match.Renaming

/-!
A line does not depend on where its tokens stand, nor on the case of its words. The rules for a line
ask nothing of a token that such a change could alter, and their constructions make the same of it.
-/
namespace ActorScript

/-- A change of tokens that leaves their kinds, their words up to case, and all else as it is. -/
structure Token.Faithful (f : Token → Token) : Prop where
  kind : ∀ t, (f t).kind = t.kind
  word : ∀ t, lowerCase (f t).value = lowerCase t.value
  value : ∀ t, t.kind ≠ .word → (f t).value = t.value

namespace Token.Faithful

variable {f : Token → Token} (faithful : Faithful f) (t : Token)

include faithful

theorem sameWord_left : sameWord (f t).value = sameWord t.value := by
  funext text
  rw [sameWord, sameWord, faithful.word]

theorem sameWord_right (text : String) : sameWord text (f t).value = sameWord text t.value := by
  rw [sameWord, sameWord, faithful.word]

theorem isWord : (f t).isWord = t.isWord := by rw [Token.isWord, Token.isWord, faithful.kind]

theorem isNumber : (f t).isNumber = t.isNumber := by
  rw [Token.isNumber, Token.isNumber, faithful.kind]

theorem isQuoted : (f t).isQuoted = t.isQuoted := by
  rw [Token.isQuoted, Token.isQuoted, faithful.kind]

theorem isLiteral (text : String) : (f t).isLiteral text = t.isLiteral text := by
  rw [Token.isLiteral, Token.isLiteral, faithful.isQuoted, faithful.sameWord_left]

theorem isOneOf (texts : List String) : (f t).isOneOf texts = t.isOneOf texts := by
  simp only [Token.isOneOf, faithful.isQuoted, faithful.sameWord_left]

theorem isWordExcept (texts : List String) : (f t).isWordExcept texts = t.isWordExcept texts := by
  simp only [Token.isWordExcept, faithful.isWord, faithful.sameWord_left]

theorem numeral? : (f t).numeral? = t.numeral? := by
  rw [Token.numeral?, Token.numeral?, faithful.kind]
  cases number : t.kind with
  | number => rw [faithful.value t (by simp [number])]
  | word | quoted | operator | punctuation | newline | comment => rfl

end Token.Faithful

namespace Token

/-- The token without its place, and without case if it is a word. -/
def plain (t : Token) : Token :=
  ⟨t.kind, if t.kind = .word then lowerCase t.value else t.value, .start⟩

theorem faithful_plain : Faithful plain where
  kind _ := rfl
  word t := by
    rw [plain]
    split
    · exact lowerCase_lowerCase t.value
    · rfl
  value _ other := if_neg other

end Token

namespace Grammar

/-- The item with its token changed, if it is one. -/
def Node.rename (f : Token → Token) : Node → Node
  | .token t => .token (f t)
  | node => node

open Construction

section Steady

variable (f : Token → Token)

/-- On a changed stack the construction does the same, and `change` is what comes of its result. -/
def Steady {α : Type} (change : α → α) (k : Construction α) : Prop :=
  ∀ s : List Node, k.run (s.map (Node.rename f)) =
    (change (k.run s).1, (k.run s).2.map (Node.rename f))

variable {f} {α β : Type}

theorem Steady.pure {a : α} {change : α → α} (same : change a = a) :
    Steady f change (Pure.pure a) := by
  intro s
  rw [run_pure, run_pure, same]

theorem Steady.bind {k : Construction α} {h : α → Construction β} {change : α → α}
    {change' : β → β} (first : Steady f change k) (same : ∀ a, h (change a) = h a)
    (later : ∀ a, Steady f change' (h a)) : Steady f change' (k >>= h) := by
  intro s
  rw [run_bind, run_bind, first s]
  dsimp only
  rw [same]
  exact later _ _

theorem steady_push {node : Node} (same : node.rename f = node) : Steady f id (push node) := by
  intro s
  rw [run_push, run_push, List.map_cons, same]

theorem steady_pushCommand (command : Command) : Steady f id (pushCommand command) :=
  steady_push rfl

theorem steady_popIf {select : Node → Option α} {change : α → α}
    (same : ∀ node, select (node.rename f) = (select node).map change) :
    Steady f (Option.map change) (popIf select) := by
  intro s
  cases s with
  | nil => rfl
  | cons node s =>
    simp only [List.map_cons, run_popIf, same]
    cases select node <;> rfl

theorem steady_popToken : Steady f (Option.map f) popToken := by
  intro s
  cases s with
  | nil => rfl
  | cons node s => cases node <;> rfl

theorem steady_popColor : Steady f id popColor := by
  rw [← Option.map_id]
  exact steady_popIf fun node => by cases node <;> rfl

theorem steady_popHeading : Steady f id popHeading := by
  rw [← Option.map_id]
  exact steady_popIf fun node => by cases node <;> rfl

theorem steady_popTile : Steady f id popTile := by
  rw [← Option.map_id]
  exact steady_popIf fun node => by cases node <;> rfl

theorem steady_popCondition : Steady f id popCondition := by
  rw [← Option.map_id]
  exact steady_popIf fun node => by cases node <;> rfl

variable (faithful : Token.Faithful f)

include faithful

theorem steady_popWordIf {accepts : String → Bool}
    (same : ∀ t, accepts (f t).value = accepts t.value) :
    Steady f (Option.map f) (popWordIf accepts) := by
  refine steady_popIf fun node => ?_
  cases node with
  | token t =>
    show (if (f t).isWord && accepts (f t).value then _ else _) = Option.map f (if _ then _ else _)
    rw [faithful.isWord, same]
    split <;> rfl
  | color | heading | tile | condition | line => rfl

theorem steady_popWord : Steady f (Option.map f) popWord :=
  steady_popWordIf faithful fun _ => rfl

theorem steady_popNumeral : Steady f id popNumeral := by
  have popped : Steady f (Option.map f)
      (popIf fun | .token token => if token.isNumber then some token else none | _ => none) := by
    refine steady_popIf fun node => ?_
    cases node with
    | token t =>
      show (if (f t).isNumber then _ else _) = Option.map f (if _ then _ else _)
      rw [faithful.isNumber]
      split <;> rfl
    | color | heading | tile | condition | line => rfl
  refine popped.bind (fun t => ?_) fun _ => .pure rfl
  cases t with
  | none => rfl
  | some t => simp [faithful.numeral?]

theorem splitQuoted_rename (s : List Node) :
    splitQuoted (s.map (Node.rename f)) =
      ((splitQuoted s).1, (splitQuoted s).2.map (Node.rename f)) := by
  induction s with
  | nil => rfl
  | cons node s ih =>
    cases node with
    | token t =>
      rw [List.map_cons, Node.rename, splitQuoted, splitQuoted, faithful.isQuoted, ih]
      cases quoted : t.isQuoted with
      | false => rfl
      | true =>
        have kind : t.kind = .quoted := by simpa [Token.isQuoted] using quoted
        simp [faithful.value t (by simp [kind])]
    | color | heading | tile | condition | line => rfl

theorem steady_popQuotedAll : Steady f id popQuotedAll := by
  intro s
  rw [run_popQuotedAll, run_popQuotedAll, splitQuoted_rename faithful]
  rfl

theorem nameOf_rename (t : Token) : nameOf (f t) = nameOf t := faithful.word t

end Steady

open Rule Phrase

/-- The phrase reads changed tokens of texts as it reads others. -/
abbrev Unaware (f : Token → Token) (phrase : Phrase) : Prop :=
  Blind f (Node.rename f) book.rule Token.IsLexical phrase

variable {f : Token → Token} (faithful : Token.Faithful f)

theorem unaware_make {construction : Construction Unit} {inner : Phrase}
    (unaware : Unaware f inner) (steady : Steady f id construction) :
    Unaware f (make construction inner) :=
  .build unaware fun _ d _ _ => congrArg Prod.snd (steady d.stack)

theorem unaware_optional {inner : Phrase} (unaware : Unaware f inner) :
    Unaware f (.optional inner) := by
  refine .alternation ?_
  simp only [List.forall_mem_cons, List.not_mem_nil, false_implies, implies_true, and_true]
  exact ⟨unaware, .empty⟩

theorem unaware_heading : Unaware f heading := .deferred

theorem unaware_condition : Unaware f condition := .deferred

section Words

include faithful

theorem unaware_keyword (text : String) : Unaware f (keyword text) :=
  .terminal (fun t => faithful.isLiteral t text) fun _ => rfl

theorem unaware_literal (text : String) : Unaware f (literal text) :=
  .terminal (fun t => faithful.isLiteral t text) fun _ => rfl

theorem unaware_oneOf (texts : List String) : Unaware f (oneOf texts) :=
  .terminal (fun t => faithful.isOneOf t texts) fun _ => rfl

theorem unaware_word : Unaware f word := .terminal faithful.isWord fun _ => rfl

theorem unaware_wordExcept (texts : List String) : Unaware f (wordExcept texts) :=
  .terminal (fun t => faithful.isWordExcept t texts) fun _ => rfl

theorem unaware_number : Unaware f number := .terminal faithful.isNumber fun _ => rfl

theorem unaware_quoted : Unaware f quoted := .terminal faithful.isQuoted fun _ => rfl

end Words

section Parts

include faithful

theorem aim_rename (t : Token) : Aim.named? (f t).value = Aim.named? t.value := by
  simp only [Aim.named?, faithful.sameWord_right]

theorem turn_rename (t : Token) : Turn.named? (f t).value = Turn.named? t.value := by
  simp only [Turn.named?, faithful.sameWord_right]

theorem color_rename (t : Token) : Color.named? (f t).value = Color.named? t.value := by
  simp only [Color.named?, faithful.sameWord_right]

theorem unaware_aimOnly : Unaware f aimOnly := by
  refine unaware_make (unaware_oneOf faithful _) (.bind steady_popToken (fun t => ?_) fun t => ?_)
  · cases t with
    | none => rfl
    | some t => simp only [Option.map_some, aim_rename faithful]
  · cases t with
    | none => exact .pure rfl
    | some t =>
      dsimp only
      cases Aim.named? t.value with
      | none => exact .pure rfl
      | some aim => exact steady_push rfl

theorem unaware_turned : Unaware f turned := by
  refine unaware_make (.sequence ?_) (.bind steady_popHeading (fun _ => rfl) fun h => ?_)
  · simp only [List.forall_mem_cons, List.not_mem_nil, false_implies, implies_true, and_true]
    exact ⟨unaware_oneOf faithful _, unaware_heading⟩
  cases h with
  | none => exact .pure rfl
  | some h =>
    refine .bind steady_popToken (fun t => ?_) fun t => ?_
    · cases t with
      | none => rfl
      | some t => simp only [Option.map_some, Option.bind_some, turn_rename faithful]
    · cases t.bind fun token => Turn.named? token.value with
      | none => exact steady_push rfl
      | some turn => exact steady_push rfl

theorem unaware_headingRule : Unaware f headingRule := by
  refine .alternation ?_
  simp only [List.forall_mem_cons, List.not_mem_nil, false_implies, implies_true, and_true]
  exact ⟨unaware_aimOnly faithful, unaware_turned faithful⟩

theorem unaware_colorWord : Unaware f colorWord := by
  refine unaware_make (unaware_oneOf faithful _) (.bind steady_popToken (fun t => ?_) fun t => ?_)
  · cases t with
    | none => rfl
    | some t => simp only [Option.map_some, color_rename faithful]
  · cases t with
    | none => exact .pure rfl
    | some t =>
      dsimp only
      cases Color.named? t.value with
      | none => exact .pure rfl
      | some color => exact steady_push rfl

theorem unaware_tile : Unaware f tile := by
  refine unaware_make (.sequence ?_) (.bind steady_popToken (fun t => ?_) fun t => ?_)
  · simp only [List.forall_mem_cons, List.not_mem_nil, false_implies, implies_true, and_true]
    exact ⟨unaware_optional (unaware_colorWord faithful), unaware_word faithful⟩
  · cases t with
    | none => rfl
    | some t => simp only [Option.map_some, nameOf_rename faithful]
  · cases t with
    | none => exact .pure rfl
    | some t => exact .bind steady_popColor (fun _ => rfl) fun color => steady_push rfl

end Parts

section Condition

include faithful

theorem unaware_makeTesting {inner : Phrase} (unaware : Unaware f inner)
    (leaves : ∀ room, Leaves room inner .compared) : Unaware f (make makeTesting inner) := by
  refine .build unaware fun c d lexical derived => ?_
  obtain ⟨_, -, t, u, v, comparison, n, -, left, operator, sign, number, numeral⟩ :=
    leaves _ c d lexical (Nat.le_refl _) derived
  have sign' : Comparison.ofSign? (f u).value = some comparison := by
    rw [faithful.value u (by simp [operator]), sign]
  have number' : (f v).kind = .number := by rw [faithful.kind, number]
  have numeral' : (f v).numeral? = some n := by rw [faithful.numeral?, numeral]
  show (makeTesting.run (d.stack.map (Node.rename f))).2 = ((makeTesting.run d.stack).2).map _
  rw [left, run_makeTesting _ sign number numeral, List.map_cons, List.map_cons, List.map_cons,
    List.map_cons]
  refine (run_makeTesting _ sign' number' numeral').trans ?_
  rw [nameOf_rename faithful]
  rfl

theorem unaware_conditionRule : Unaware f conditionRule := by
  refine .alternation ?_
  simp only [conditions, List.forall_mem_cons, List.not_mem_nil, false_implies, implies_true,
    and_true]
  refine ⟨?negated, ?adjacent, ?blocked, ?aligned, ?peep, ?present, ?testing, ?comparison⟩
  case negated =>
    refine unaware_make (.sequence ?_) (.bind steady_popCondition (fun _ => rfl) fun q => ?_)
    · simp [unaware_keyword faithful, unaware_condition]
    cases q with
    | none => exact .pure rfl
    | some q => exact steady_push rfl
  case adjacent => exact unaware_make (unaware_keyword faithful _) (steady_push rfl)
  case blocked =>
    refine unaware_make (.sequence ?_) (.bind steady_popHeading (fun _ => rfl) fun h => ?_)
    · simp [unaware_keyword faithful, unaware_heading]
    cases h with
    | none => exact .pure rfl
    | some h => exact steady_push rfl
  case aligned =>
    refine unaware_make (.sequence ?_)
      (.bind steady_popHeading (fun _ => rfl) fun h => steady_push rfl)
    simp [unaware_keyword faithful, unaware_optional unaware_heading]
  case peep =>
    refine unaware_make (.sequence ?_)
      (.bind (steady_popNumeral faithful) (fun _ => rfl) fun n => ?_)
    · simp [unaware_keyword faithful, unaware_number faithful]
    cases n with
    | none => exact .pure rfl
    | some n => exact steady_push rfl
  case present =>
    refine unaware_make (.sequence ?_) (.bind (steady_popNumeral faithful) (fun _ => rfl) fun n =>
      .bind steady_popTile (fun _ => rfl) fun t => ?_)
    · simp [unaware_keyword faithful, unaware_tile faithful,
        unaware_optional (unaware_number faithful)]
    cases t with
    | none => exact .pure rfl
    | some t => exact steady_push rfl
  case testing =>
    refine unaware_makeTesting faithful (.sequence ?_) fun room => leaves_testing
    simp [unaware_keyword faithful, unaware_word faithful, unaware_oneOf faithful,
      unaware_number faithful]
  case comparison =>
    refine unaware_makeTesting faithful (.sequence ?_) fun room => leaves_comparison
    simp [unaware_wordExcept faithful, unaware_oneOf faithful, unaware_number faithful]

theorem unaware_rule (name : Name) : Unaware f (book.rule name) := by
  cases name with
  | heading => exact unaware_headingRule faithful
  | condition => exact unaware_conditionRule faithful

end Condition

section Command

include faithful

theorem unaware_alone (command : Command) : Unaware f (alone command) :=
  unaware_make (unaware_keyword faithful _) (steady_pushCommand command)

theorem unaware_withHeading (text : String) (command : Heading → Command) :
    Unaware f (withHeading text command) := by
  refine unaware_make (.sequence ?_) (.bind steady_popHeading (fun _ => rfl) fun h => ?_)
  · simp [unaware_keyword faithful, unaware_heading]
  cases h with
  | none => exact .pure rfl
  | some h => exact steady_pushCommand _

theorem unaware_withNumeral (text : String) (command : Numeral → Command) :
    Unaware f (withNumeral text command) := by
  refine unaware_make (.sequence ?_) (.bind (steady_popNumeral faithful) (fun _ => rfl) fun n => ?_)
  · simp [unaware_keyword faithful, unaware_number faithful]
  cases n with
  | none => exact .pure rfl
  | some n => exact steady_pushCommand _

theorem unaware_withLabel (text : String) (command : String → Command) :
    Unaware f (withLabel text command) := by
  refine unaware_make (.sequence ?_) (.bind steady_popToken (fun t => ?_) fun t => ?_)
  · simp [unaware_keyword faithful, unaware_word faithful]
  · cases t with
    | none => rfl
    | some t => simp only [Option.map_some, nameOf_rename faithful]
  · cases t with
    | none => exact .pure rfl
    | some t => exact steady_pushCommand _

theorem steady_popCounter : Steady f id popCounter := by
  refine .bind (steady_popNumeral faithful) (fun _ => rfl) fun n => ?_
  cases n with
  | none => exact .pure rfl
  | some n =>
    refine .bind (steady_popWord faithful) (fun t => ?_) fun t => ?_
    · cases t with
      | none => rfl
      | some t => simp only [Option.map_some, nameOf_rename faithful]
    · cases t with
      | none => exact .pure rfl
      | some t => exact .pure rfl

theorem unaware_withCounter (text : String) (command : String → Numeral → Command) :
    Unaware f (withCounter text command) := by
  refine unaware_make (.sequence ?_) (.bind (steady_popCounter faithful) (fun _ => rfl) fun n => ?_)
  · simp [unaware_keyword faithful, unaware_word faithful, unaware_number faithful]
  cases n with
  | none => exact .pure rfl
  | some n => exact steady_pushCommand _

theorem map_nameOf_rename (t : Option Token) : (t.map f).map nameOf = t.map nameOf := by
  cases t with
  | none => rfl
  | some t => exact congrArg some (nameOf_rename faithful t)

theorem unaware_moveRule : Unaware f moveRule := by
  refine unaware_make (.sequence ?_) (.bind
    (steady_popWordIf faithful fun t => faithful.sameWord_right t "FORCE") (fun t => ?_) fun t =>
      .bind (steady_popNumeral faithful) (fun _ => rfl) fun n =>
        .bind steady_popHeading (fun _ => rfl) fun h => ?_)
  · simp [unaware_keyword faithful, unaware_heading, unaware_optional (unaware_number faithful),
      unaware_optional (unaware_literal faithful _)]
  · cases t with
    | none => rfl
    | some t => rfl
  · cases h with
    | none => exact .pure rfl
    | some h => exact steady_pushCommand _

theorem unaware_attemptRule : Unaware f attemptRule := by
  refine unaware_make (.sequence ?_) (.bind (steady_popWord faithful) (fun t => ?_) fun t =>
    .bind steady_popHeading (fun _ => rfl) fun h => ?_)
  · simp [unaware_keyword faithful, unaware_heading, unaware_optional (unaware_word faithful)]
  · rw [map_nameOf_rename faithful]
  · cases h with
    | none => exact .pure rfl
    | some h => exact steady_pushCommand _

theorem unaware_waitRule : Unaware f waitRule := by
  refine unaware_make (.sequence ?_)
    (.bind (steady_popNumeral faithful) (fun _ => rfl) fun n => steady_pushCommand _)
  simp [unaware_keyword faithful, unaware_optional (unaware_number faithful)]

theorem unaware_sayRule : Unaware f sayRule := by
  refine .build (.sequence ?_) fun c d lexical derived => ?_
  · simp [unaware_keyword faithful, unaware_quoted faithful]
  obtain ⟨_, -, _, _, _, -, ⟨-, rfl⟩, t, quoted, -, left⟩ := Leaves.sequence
    (.cons (leaves_keyword "SAY" (by decide)) (.cons leaves_quoted .nil))
    c d lexical (Nat.le_refl _) derived
  have value := faithful.value t (by simp [quoted])
  dsimp only [Candidate.rename]
  rw [left]
  simp [Node.rename, value]

theorem unaware_scrollRule : Unaware f scrollRule := by
  refine unaware_make (.sequence ?_)
    (.bind (steady_popQuotedAll faithful) (fun _ => rfl) fun lines => steady_pushCommand _)
  have round : Unaware f (.sequence [keyword ",", quoted]) :=
    .sequence (by simp [unaware_keyword faithful, unaware_quoted faithful])
  simp [unaware_keyword faithful, unaware_quoted faithful, round.repetition]

theorem unaware_jumpIfRule : Unaware f jumpIfRule := by
  refine unaware_make (.sequence ?_) (.bind steady_popToken (fun t => ?_) fun t => ?_)
  · simp [unaware_keyword faithful, unaware_condition, unaware_wordExcept faithful,
      unaware_optional (unaware_keyword faithful _)]
  · cases t with
    | none => rfl
    | some t => simp only [Option.map_some, nameOf_rename faithful]
  · cases t with
    | none => exact .pure rfl
    | some t =>
      refine .bind steady_popCondition (fun _ => rfl) fun q => ?_
      cases q with
      | none => exact .pure rfl
      | some q => exact steady_pushCommand _

theorem unaware_putRule : Unaware f putRule := by
  refine unaware_make (.sequence ?_) (.bind steady_popTile (fun _ => rfl) fun t => ?_)
  · simp [unaware_keyword faithful, unaware_heading, unaware_tile faithful]
  cases t with
  | none => exact .pure rfl
  | some t =>
    refine .bind steady_popHeading (fun _ => rfl) fun h => ?_
    cases h with
    | none => exact .pure rfl
    | some h => exact steady_pushCommand _

theorem unaware_sendRule : Unaware f sendRule := by
  refine unaware_make (.sequence ?_) (.bind steady_popToken (fun t => ?_) fun t => ?_)
  · simp [unaware_keyword faithful, unaware_word faithful, unaware_optional (unaware_word faithful)]
  · cases t with
    | none => rfl
    | some t => simp only [Option.map_some, nameOf_rename faithful]
  · cases t with
    | none => exact .pure rfl
    | some t =>
      refine .bind (steady_popWord faithful) (fun u => ?_) fun u => steady_pushCommand _
      rw [map_nameOf_rename faithful]

theorem unaware_takeRule : Unaware f takeRule := by
  refine unaware_make (.sequence ?_) (.bind (steady_popWord faithful) (fun t => ?_) fun t =>
    .bind (steady_popCounter faithful) (fun _ => rfl) fun n => ?_)
  · simp [unaware_keyword faithful, unaware_word faithful, unaware_number faithful,
      unaware_optional (unaware_word faithful)]
  · rw [map_nameOf_rename faithful]
  · cases n with
    | none => exact .pure rfl
    | some n => exact steady_pushCommand _

theorem unaware_becomeRule : Unaware f becomeRule := by
  refine unaware_make (.sequence ?_) (.bind steady_popTile (fun _ => rfl) fun t => ?_)
  · simp [unaware_keyword faithful, unaware_tile faithful]
  cases t with
  | none => exact .pure rfl
  | some t => exact steady_pushCommand _

theorem unaware_changeRule : Unaware f changeRule := by
  refine unaware_make (.sequence ?_) (.bind steady_popTile (fun _ => rfl) fun t => ?_)
  · simp [unaware_keyword faithful, unaware_tile faithful]
  cases t with
  | none => exact .pure rfl
  | some t =>
    refine .bind steady_popTile (fun _ => rfl) fun t' => ?_
    cases t' with
    | none => exact .pure rfl
    | some t' => exact steady_pushCommand _

theorem unaware_playRule : Unaware f playRule := by
  refine .build (.sequence ?_) fun c d lexical derived => ?_
  · simp [unaware_keyword faithful, unaware_quoted faithful,
      unaware_optional (unaware_literal faithful _)]
  obtain ⟨_, -, _, _, _, -, ⟨-, rfl⟩, _, _, _, -, ⟨t, quoted, -, rfl⟩, left⟩ := Leaves.sequence
    (.cons (leaves_keyword "PLAY" (by decide)) (.cons leaves_quoted
      (.cons (leaves_literal "EXCLUSIVE" (by decide)).optional .nil)))
    c d lexical (Nat.le_refl _) derived
  have value := faithful.value t (by simp [quoted])
  have kind : (f t).kind = .quoted := by rw [faithful.kind, quoted]
  dsimp only [Candidate.rename]
  rcases left with ⟨u, ⟨word, exclusive⟩, -, left⟩ | ⟨-, left⟩
  · have word' : (f u).kind = .word := by rw [faithful.kind, word]
    rw [sameWord_comm] at exclusive
    have exclusive' := (faithful.sameWord_right u "EXCLUSIVE").trans exclusive
    rw [left]
    simp [Node.rename, word, word', exclusive, exclusive', value]
  · rw [← left]
    simp [Node.rename, quoted, kind, value]

theorem unaware_command : ∀ phrase ∈ commands, Unaware f phrase := by
  simp only [commands, List.forall_mem_cons, List.not_mem_nil, false_implies, implies_true,
    and_true]
  exact ⟨unaware_moveRule faithful, unaware_attemptRule faithful, unaware_waitRule faithful,
    unaware_sayRule faithful, unaware_scrollRule faithful, unaware_alone faithful _,
    unaware_alone faithful _, unaware_jumpIfRule faithful, unaware_putRule faithful,
    unaware_sendRule faithful, unaware_withCounter faithful _ _, unaware_withCounter faithful _ _,
    unaware_takeRule faithful, unaware_becomeRule faithful, unaware_changeRule faithful,
    unaware_withNumeral faithful _ _, unaware_withNumeral faithful _ _,
    unaware_withHeading faithful _ _, unaware_withHeading faithful _ _,
    unaware_withHeading faithful _ _, unaware_alone faithful _, unaware_alone faithful _,
    unaware_alone faithful _, unaware_withLabel faithful _ _, unaware_withLabel faithful _ _,
    unaware_playRule faithful⟩

theorem unaware_labelRule : Unaware f labelRule := by
  refine unaware_make (.sequence ?_) (.bind steady_popToken (fun t => ?_) fun t => ?_)
  · simp [unaware_keyword faithful, unaware_word faithful]
  · cases t with
    | none => rfl
    | some t => simp only [Option.map_some, nameOf_rename faithful]
  · cases t with
    | none => exact .pure rfl
    | some t => exact steady_push rfl

theorem unaware_lineRule : Unaware f lineRule := by
  refine .alternation fun phrase among => ?_
  rcases List.mem_append.1 among with among | among
  · exact unaware_command faithful phrase among
  rcases List.mem_cons.1 among with rfl | among
  · exact unaware_labelRule faithful
  · obtain rfl := List.mem_singleton.1 among
    exact .empty

end Command

end Grammar

/-- The error with its token changed, of a line that has another number then. -/
def ParseError.rename (f : Token → Token) (number : Nat) : ParseError → ParseError
  | .unexpectedToken token => .unexpectedToken (f token)
  | .tokenExpected _ => .tokenExpected number
  | .unknownCommand word => .unknownCommand (f word)

namespace Line

open Grammar

theorem ofText_iff {text : String} {line : Line} :
    ofText text = .ok line ↔ ∃ ts, tokenize text = .ok ts ∧ parse ts 1 = .ok line := by
  rw [ofText]
  cases tokenize text with
  | error error => simp
  | ok ts =>
    simp only [Except.ok.injEq, exists_eq_left']
    cases parse ts 1 <;> simp

theorem map_rename_eq_line_cons {f : Token → Token} {stack below : List Node} {line : Line}
    (h : stack.map (Node.rename f) = .line line :: below) :
    ∃ below', stack = .line line :: below' := by
  cases stack with
  | nil => simp at h
  | cons node stack =>
    obtain ⟨top, -⟩ := List.cons.inj h
    cases node with
    | line l => exact ⟨stack, congrArg (· :: stack) top⟩
    | token | color | heading | tile | condition => simp [Node.rename] at top

theorem parse_map_eq_ok {f : Token → Token} (faithful : Token.Faithful f) {ts : List Token}
    (lexical : ∀ t ∈ ts, t.IsLexical) (number number' : Nat) (line : Line) :
    parse (ts.map f) number' = .ok line ↔ parse ts number = .ok line := by
  have renamed := book.complete_rename (unaware_rule faithful) (unaware_lineRule faithful)
    (.start ts) lexical
  constructor
  · intro read
    obtain ⟨c, found, left⟩ := parse_eq_ok.1 read
    replace renamed := found.symm.trans renamed
    cases before : book.complete lineRule (.start ts) with
    | error error => simp [before] at renamed
    | ok d =>
      simp only [before, Except.ok.injEq] at renamed
      subst renamed
      refine parse_eq_ok.2 ⟨d, before, ?_⟩
      rcases left with ⟨empty, blank⟩ | ⟨below, left⟩
      · exact .inl ⟨List.map_eq_nil_iff.1 empty, blank⟩
      · exact .inr (map_rename_eq_line_cons left)
  · intro read
    obtain ⟨c, found, left⟩ := parse_eq_ok.1 read
    rw [found] at renamed
    refine parse_eq_ok.2 ⟨_, renamed, ?_⟩
    rcases left with ⟨empty, blank⟩ | ⟨below, left⟩
    · exact .inl ⟨by rw [Candidate.rename, empty]; rfl, blank⟩
    · exact .inr ⟨below.map (Node.rename f), by rw [Candidate.rename, left]; rfl⟩

/-- A change that keeps tokens at different places apart changes the blame along with them. -/
theorem blame_map {f : Token → Token} (faithful : Token.Faithful f)
    (apart : ∀ t u, ((f t).place.offset == (f u).place.offset) = (t.place.offset == u.place.offset))
    (ts : List Token) (number number' : Nat) (error : MatchError Token) :
    blame (ts.map f) number' (error.rename f) = (blame ts number error).rename f number' := by
  cases error with
  | unexpected token =>
    have first : (ts.map f).head?.any (·.place.offset == (f token).place.offset) =
        ts.head?.any (·.place.offset == token.place.offset) := by
      cases ts with
      | nil => rfl
      | cons t ts => exact apart t token
    simp only [MatchError.rename, blame, first, faithful.isWord]
    split <;> rfl
  | exhausted => rfl
  | tooDeep => rfl

theorem parse_map {f : Token → Token} (faithful : Token.Faithful f)
    (apart : ∀ t u, ((f t).place.offset == (f u).place.offset) = (t.place.offset == u.place.offset))
    {ts : List Token} (lexical : ∀ t ∈ ts, t.IsLexical) (number number' : Nat) :
    parse (ts.map f) number' = (parse ts number).mapError (ParseError.rename f number') := by
  have renamed := book.complete_rename (unaware_rule faithful) (unaware_lineRule faithful)
    (.start ts) lexical
  have start : (Candidate.start ts).rename f (Node.rename f) = .start (ts.map f) := rfl
  rw [start] at renamed
  unfold parse
  rw [renamed]
  cases book.complete lineRule (.start ts) with
  | error error => exact congrArg Except.error (blame_map faithful apart ts number number' error)
  | ok c =>
    obtain ⟨tokens, index, stack⟩ := c
    cases stack with
    | nil => rfl
    | cons node stack =>
      cases node with
      | line line => rfl
      | token | color | heading | tile | condition => cases ts <;> rfl

theorem parse_congr {ts us : List Token} (lexical : ∀ t ∈ ts, t.IsLexical)
    (lexical' : ∀ t ∈ us, t.IsLexical) (same : ts.map Token.plain = us.map Token.plain)
    (number number' : Nat) (line : Line) :
    parse ts number = .ok line ↔ parse us number' = .ok line := by
  rw [← parse_map_eq_ok Token.faithful_plain lexical number 1 line, same,
    parse_map_eq_ok Token.faithful_plain lexical' number' 1 line]

end Line
end ActorScript
