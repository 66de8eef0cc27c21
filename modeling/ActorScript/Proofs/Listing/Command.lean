import ActorScript.Proofs.Command.Tokens
import ActorScript.Proofs.Listing.Term

/-!
The terms of commands. The form of a command is that of its term, and the command is read back from
it: so that unlike commands have unlike forms, and their forms can be told apart in a text.
-/
namespace ActorScript

namespace Term

/-! How values are put into terms, and taken from them again. -/

def ofOption : Option Term → Term
  | none => .word "None"
  | some t => .group "Some" .round [t]

def list (items : List Term) : Term := .group "" .square items

def record (name : String) (fields : List (String × Term)) : Term :=
  .group name .curly (fields.map fun f => .field f.1 f.2)

def text? : Term → Option String
  | .quoted text => some text
  | _ => none

def numeral? : Term → Option Numeral
  | .word text => Numeral.ofDigits? text.toList
  | _ => none

def bool? : Term → Option Bool
  | .word text => some (text == "true")
  | _ => none

def option? {α : Type} (read : Term → Option α) : Term → Option (Option α)
  | .group _ _ [inner] => (read inner).map some
  | _ => some none

def list? {α : Type} (read : Term → Option α) : Term → Option (List α)
  | .group _ _ items => items.mapM read
  | _ => none

end Term

open Term

def Aim.term : Aim → Term
  | .fixed direction => .group "Fixed" .round [.word direction.name]
  | aim => .word aim.form

def Heading.term (h : Heading) : Term :=
  record "DirectionExpression"
    [("terminal", h.aim.term), ("modifiers", list (h.turns.map fun turn => .word turn.form))]

def Tile.term (t : Tile) : Term :=
  record "ThingTemplate"
    [("color", ofOption (t.color.map fun color => .word color.name)), ("thing", .quoted t.thing)]

def Condition.term : Condition → Term
  | .not inner => .group "Not" .round [inner.term]
  | .adjacent => .word "Adjacent"
  | .blocked heading => .group "Blocked" .round [heading.term]
  | .aligned heading => .group "Aligned" .round [ofOption (heading.map Heading.term)]
  | .peep radius => .group "Peep" .round [.word radius.render]
  | .present tile count => record "Exists" [("template", tile.term), ("count", .word count.render)]
  | .testing counter comparison value =>
    record "Testing" [("counter", .quoted counter), ("comparison", .word comparison.name),
      ("value", .word value.render)]

def Command.term : Command → Term
  | .move heading count forceful =>
    .group "Move" .round [record "Move" [("direction", heading.term),
      ("count", .word count.render), ("forceful", .word (Form.bool forceful))]]
  | .attempt heading otherwise =>
    record "Try" [("direction", heading.term), ("otherwise", ofOption (otherwise.map .quoted))]
  | .wait ticks => record "Wait" [("ticks", .word ticks.render)]
  | .say text => record "Say" [("text", .quoted text)]
  | .scroll lines => record "Scroll" [("lines", list (lines.map .quoted))]
  | .finish => .word "End"
  | .die => .word "Die"
  | .jumpIf condition label => record "If" [("condition", condition.term), ("label", .quoted label)]
  | .put heading tile => record "Put" [("direction", heading.term), ("template", tile.term)]
  | .send recipient message =>
    record "Send" [("recipient", ofOption (recipient.map .quoted)), ("message", .quoted message)]
  | .set counter value => record "Set" [("counter", .quoted counter), ("value", .word value.render)]
  | .give counter amount =>
    record "Give" [("counter", .quoted counter), ("amount", .word amount.render)]
  | .take counter amount otherwise =>
    record "Take" [("counter", .quoted counter), ("amount", .word amount.render),
      ("otherwise", ofOption (otherwise.map .quoted))]
  | .become tile => record "Become" [("template", tile.term)]
  | .change source target => record "Change" [("from", source.term), ("to", target.term)]
  | .char code => record "Char" [("code", .word code.render)]
  | .torch radius => record "Torch" [("radius", .word radius.render)]
  | .shoot heading => record "Shoot" [("direction", heading.term)]
  | .throwStar heading => record "ThrowStar" [("direction", heading.term)]
  | .walk heading => record "Walk" [("direction", heading.term)]
  | .stand => .word "Stand"
  | .lock => .word "Lock"
  | .unlock => .word "Unlock"
  | .restore label => record "Restore" [("label", .quoted label)]
  | .zap label => record "Zap" [("label", .quoted label)]
  | .play tune exclusive =>
    record "Play" [("notation", .quoted tune), ("exclusive", .word (Form.bool exclusive))]

section Forms

@[simp] theorem form_ofOption (t : Option Term) :
    (ofOption t).form = Form.option (t.map Term.form) := by
  cases t with
  | none => rfl
  | some t =>
    simp [ofOption, Term.form, forms_eq_map, Form.option, Bracket.opening, Bracket.closing]

@[simp] theorem form_list (items : List Term) :
    (list items).form = Form.list (items.map Term.form) := by
  simp [list, Term.form, forms_eq_map, Form.list, Bracket.opening, Bracket.closing]

@[simp] theorem form_record (name : String) (fields : List (String × Term)) :
    (record name fields).form = Form.record name (fields.map fun f => (f.1, f.2.form)) := by
  simp [record, Term.form, forms_eq_map, Form.record, Bracket.opening, Bracket.closing,
    Function.comp_def]

@[simp] theorem form_wrap (name : String) (inner : Term) :
    (Term.group name .round [inner]).form = Form.wrap name inner.form := by
  simp [Term.form, forms_eq_map, Form.wrap, Bracket.opening, Bracket.closing]

@[simp] theorem form_word (text : String) : (Term.word text).form = text := rfl

@[simp] theorem form_quoted (text : String) : (Term.quoted text).form = Form.string text := rfl

@[simp] theorem Aim.form_term (aim : Aim) : aim.term.form = aim.form := by
  cases aim <;> simp [Aim.term, Aim.form]

@[simp] theorem Heading.form_term (h : Heading) : h.term.form = h.form := by
  simp [Heading.term, Heading.form, Function.comp_def]

@[simp] theorem Tile.form_term (t : Tile) : t.term.form = t.form := by
  simp [Tile.term, Tile.form, Function.comp_def]

@[simp] theorem Condition.form_term (q : Condition) : q.term.form = q.form := by
  induction q with
  | not inner ih => simp [Condition.term, Condition.form, ih]
  | _ => simp [Condition.term, Condition.form, Function.comp_def]

theorem Command.form_term (c : Command) : c.term.form = c.form := by
  cases c <;> simp [Command.term, Command.form, Function.comp_def]

end Forms

section Reading

/-- The one of these values that has the text for its name. -/
def Term.oneOf? {α : Type} (name : α → String) (values : List α) : Term → Option α
  | .word text => values.find? (name · == text)
  | _ => none

def Aim.ofTerm? : Term → Option Aim
  | .group _ _ [.word name] => (Direction.named? name).map .fixed
  | t => oneOf? Aim.form [.seek, .smart, .flow, .rand, .randFree, .randBlocked, .randEastWest,
      .randNorthSouth, .randNorthEast] t

def Turn.ofTerm? : Term → Option Turn :=
  oneOf? Turn.form [.clockwise, .counterClockwise, .opposite, .randomPerpendicular]

def Heading.ofTerm? : Term → Option Heading
  | .group _ _ [.field _ aim, .field _ turns] => do
    return ⟨← Aim.ofTerm? aim, ← list? Turn.ofTerm? turns⟩
  | _ => none

def Tile.ofTerm? : Term → Option Tile
  | .group _ _ [.field _ color, .field _ thing] => do
    return ⟨← option? (oneOf? Color.name Color.all) color, ← text? thing⟩
  | _ => none

def Condition.ofTerm? : Term → Option Condition
  | .group "Not" _ [inner] => do return .not (← ofTerm? inner)
  | .word _ => some .adjacent
  | .group "Blocked" _ [heading] => do return .blocked (← Heading.ofTerm? heading)
  | .group "Aligned" _ [heading] => do return .aligned (← option? Heading.ofTerm? heading)
  | .group "Peep" _ [radius] => do return .peep (← numeral? radius)
  | .group "Exists" _ [.field _ tile, .field _ count] => do
    return .present (← Tile.ofTerm? tile) (← numeral? count)
  | .group "Testing" _ [.field _ counter, .field _ comparison, .field _ value] => do
    return .testing (← text? counter) (← oneOf? Comparison.name Comparison.all comparison)
      (← numeral? value)
  | _ => none

namespace Command

def ofWord? : String → Option Command
  | "End" => some .finish
  | "Die" => some .die
  | "Stand" => some .stand
  | "Lock" => some .lock
  | "Unlock" => some .unlock
  | _ => none

def ofField? (name : String) (value : Term) : Option Command :=
  match name with
  | "Wait" => do return .wait (← numeral? value)
  | "Say" => do return .say (← text? value)
  | "Scroll" => do return .scroll (← list? text? value)
  | "Become" => do return .become (← Tile.ofTerm? value)
  | "Char" => do return .char (← numeral? value)
  | "Torch" => do return .torch (← numeral? value)
  | "Shoot" => do return .shoot (← Heading.ofTerm? value)
  | "ThrowStar" => do return .throwStar (← Heading.ofTerm? value)
  | "Walk" => do return .walk (← Heading.ofTerm? value)
  | "Restore" => do return .restore (← text? value)
  | "Zap" => do return .zap (← text? value)
  | _ => none

def ofTwoFields? (name : String) (first second : Term) : Option Command :=
  match name with
  | "Try" => do return .attempt (← Heading.ofTerm? first) (← option? text? second)
  | "If" => do return .jumpIf (← Condition.ofTerm? first) (← text? second)
  | "Put" => do return .put (← Heading.ofTerm? first) (← Tile.ofTerm? second)
  | "Send" => do return .send (← option? text? first) (← text? second)
  | "Set" => do return .set (← text? first) (← numeral? second)
  | "Give" => do return .give (← text? first) (← numeral? second)
  | "Change" => do return .change (← Tile.ofTerm? first) (← Tile.ofTerm? second)
  | "Play" => do return .play (← text? first) (← bool? second)
  | _ => none

def ofTerm? : Term → Option Command
  | .word name => ofWord? name
  | .group name _ [.field _ value] => ofField? name value
  | .group name _ [.field _ first, .field _ second] => ofTwoFields? name first second
  | .group _ _ [.field _ counter, .field _ amount, .field _ otherwise] => do
    return .take (← text? counter) (← numeral? amount) (← option? text? otherwise)
  | .group _ _ [.group _ _ [.field _ heading, .field _ count, .field _ forceful]] => do
    return .move (← Heading.ofTerm? heading) (← numeral? count) (← bool? forceful)
  | _ => none

end Command

variable {α : Type} {term : α → Term} {read : Term → Option α}

@[simp] theorem text?_quoted (text : String) : text? (.quoted text) = some text := rfl

@[simp] theorem numeral?_word (n : Numeral) : numeral? (.word n.render) = some n :=
  Token.numeral?_ofNumeral n

@[simp] theorem bool?_word (b : Bool) : bool? (.word (Form.bool b)) = some b := by
  cases b <;> rfl

theorem option?_ofOption (reads : ∀ a, read (term a) = some a) (a : Option α) :
    option? read (ofOption (a.map term)) = some a := by
  cases a with
  | none => rfl
  | some a => simp [ofOption, option?, reads]

theorem list?_list (reads : ∀ a, read (term a) = some a) (as : List α) :
    list? read (list (as.map term)) = some as := by
  show (as.map term).mapM read = some as
  induction as with
  | nil => rfl
  | cons a as ih => simp [reads, ih]

@[simp] theorem Aim.ofTerm?_term (aim : Aim) : ofTerm? aim.term = some aim := by
  rcases aim with _ | _ | _ | _ | _ | _ | _ | _ | _ | direction
  case fixed => cases direction <;> rfl
  all_goals rfl

@[simp] theorem Turn.ofTerm?_term (turn : Turn) : ofTerm? (.word turn.form) = some turn := by
  cases turn <;> rfl

@[simp] theorem Heading.ofTerm?_term (h : Heading) : ofTerm? h.term = some h := by
  simp [Heading.term, Heading.ofTerm?, Term.record, list?_list Turn.ofTerm?_term]

theorem Color.oneOf?_word (color : Color) :
    Term.oneOf? Color.name Color.all (.word color.name) = some color := by
  cases color <;> rfl

@[simp] theorem Tile.ofTerm?_term (t : Tile) : ofTerm? t.term = some t := by
  simp [Tile.term, Tile.ofTerm?, Term.record, option?_ofOption Color.oneOf?_word]

@[simp] theorem Comparison.oneOf?_word (comparison : Comparison) :
    Term.oneOf? Comparison.name Comparison.all (.word comparison.name) = some comparison := by
  cases comparison <;> rfl

@[simp] theorem Condition.ofTerm?_term (q : Condition) : ofTerm? q.term = some q := by
  induction q with
  | not inner ih => simp [Condition.term, Condition.ofTerm?, ih]
  | _ =>
    simp [Condition.term, Condition.ofTerm?, Term.record, option?_ofOption Heading.ofTerm?_term]

theorem Command.ofTerm?_term (c : Command) : ofTerm? c.term = some c := by
  cases c <;> simp [Command.term, ofTerm?, ofWord?, ofField?, ofTwoFields?, Term.record,
    option?_ofOption text?_quoted, list?_list text?_quoted]

end Reading

section Proper

@[simp] theorem isProper_word {text : String} :
    (Term.word text).IsProper ↔ IsName text ∧ text ≠ "" :=
  ⟨fun | .word name some_text => ⟨name, some_text⟩, fun h => .word h.1 h.2⟩

@[simp] theorem isProper_quoted {text : String} : (Term.quoted text).IsProper := .quoted

@[simp] theorem isProper_field {key : String} {value : Term} :
    (Term.field key value).IsProper ↔ IsName key ∧ value.IsProper :=
  ⟨fun | .field name proper => ⟨name, proper⟩, fun h => .field h.1 h.2⟩

@[simp] theorem isProper_group {name : String} {bracket : Bracket} {items : List Term} :
    (Term.group name bracket items).IsProper ↔ IsName name ∧ ∀ item ∈ items, item.IsProper :=
  ⟨fun | .group named proper => ⟨named, proper⟩, fun h => .group h.1 h.2⟩

@[simp] theorem isProper_ofOption {t : Option Term} :
    (ofOption t).IsProper ↔ ∀ u ∈ t, u.IsProper := by
  cases t <;> simp +decide [ofOption]

@[simp] theorem isProper_list {items : List Term} :
    (Term.list items).IsProper ↔ ∀ item ∈ items, item.IsProper := by
  simp +decide [Term.list]

@[simp] theorem isProper_record {name : String} {fields : List (String × Term)} :
    (record name fields).IsProper ↔
      IsName name ∧ ∀ f ∈ fields, IsName f.1 ∧ f.2.IsProper := by
  rw [record, isProper_group, List.forall_mem_map]
  simp only [isProper_field]

theorem isName_repr (n : Nat) : IsName n.repr ∧ n.repr ≠ "" := by
  constructor
  · intro c mem
    rw [Nat.toList_repr] at mem
    have digit := Nat.isDigit_of_mem_toDigits (by decide) (by decide) mem
    simp [isNameChar, Char.isAlphanum, digit]
  · intro empty
    have spelled : n.repr.toList = Nat.toDigits 10 n := Nat.toList_repr
    rw [empty] at spelled
    exact Nat.toDigits_ne_nil spelled.symm

@[simp] theorem isName_render (n : Numeral) : IsName n.render ∧ n.render ≠ "" := isName_repr n.val

@[simp] theorem isName_bool (b : Bool) : IsName (Form.bool b) ∧ Form.bool b ≠ "" := by
  cases b <;> decide

@[simp] theorem Aim.isProper_term (aim : Aim) : aim.term.IsProper := by
  rcases aim with _ | _ | _ | _ | _ | _ | _ | _ | _ | direction
  case fixed => cases direction <;> simp +decide [Aim.term, Direction.name]
  all_goals simp +decide [Aim.term, Aim.form]

@[simp] theorem Turn.isProper_word (turn : Turn) : IsName turn.form ∧ turn.form ≠ "" := by
  cases turn <;> decide

@[simp] theorem Heading.isProper_term (h : Heading) : h.term.IsProper := by
  simp +decide [Heading.term]

@[simp] theorem Color.isProper_word (color : Color) : IsName color.name ∧ color.name ≠ "" := by
  cases color <;> decide

@[simp] theorem Tile.isProper_term (t : Tile) : t.term.IsProper := by
  simp +decide [Tile.term]

@[simp] theorem Comparison.isProper_word (comparison : Comparison) :
    IsName comparison.name ∧ comparison.name ≠ "" := by
  cases comparison <;> decide

@[simp] theorem Condition.isProper_term (q : Condition) : q.term.IsProper := by
  induction q with
  | not inner ih => simp +decide [Condition.term, ih]
  | _ => simp +decide [Condition.term]

theorem Command.isProper_term (c : Command) : c.term.IsProper := by
  cases c <;> simp +decide [Command.term]

end Proper

/-- The form of a command ends before a line feed, and is that of no other command. -/
theorem Command.form_settled {a b : Command} {r r' : List Char} (ends : Ends r) (ends' : Ends r')
    (same : a.form.toList ++ r = b.form.toList ++ r') : a = b ∧ r = r' := by
  rw [← form_term, ← form_term] at same
  obtain ⟨terms, rest⟩ := a.isProper_term.settles b.term r r' b.isProper_term ends ends' same
  have read := congrArg ofTerm? terms
  rw [ofTerm?_term, ofTerm?_term] at read
  exact ⟨Option.some.inj read, rest⟩

end ActorScript
