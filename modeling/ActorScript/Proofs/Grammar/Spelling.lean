import ActorScript.Proofs.Grammar.Sentence

/-!
The spellings of a command: all the lines that say it, as a language that is put together as the
command is. Words stand in any case, a number may have leading zeros, and a count of one, `THEN` and
a colon may be left out. A line may be a spelling of several commands, and the rules then settle on
one of them.
-/
namespace ActorScript

open Computability Sentence

namespace Sentence

/-- A word that gives this name. -/
def name (name : String) : Language Token :=
  singleWord fun t => t.kind = .word ∧ Grammar.nameOf t = name

/-- A word that gives this name and is none of these. -/
def nameBut (texts : List String) (name : String) : Language Token :=
  singleWord fun t => t.kind = .word ∧ (∀ text ∈ texts, sameWord t.value text = false) ∧
    Grammar.nameOf t = name

def quotedAs (text : String) : Language Token :=
  singleWord fun t => t.kind = .quoted ∧ t.value = text

/-- Strings with commas between them. -/
def series : List String → Language Token
  | [] => 0
  | [text] => quotedAs text
  | text :: next :: texts => quotedAs text * (comma * series (next :: texts))

def perhaps {α : Type} (spellings : α → Language Token) : Option α → Language Token
  | none => 1
  | some a => spellings a

def flag (text : String) (isSet : Bool) : Language Token := if isSet then key text else 1

/-- A label behind the condition of a jump. -/
def jump (label : String) : Language Token :=
  maybe (key "THEN") * (maybe (sign ":") * nameBut ["THEN"] label)

end Sentence

def Turn.spellings (turn : Turn) : Language Token :=
  singleWord fun t => t.kind = .word ∧ Turn.named? t.value = some turn

def Aim.spellings (aim : Aim) : Language Token :=
  singleWord fun t => t.kind = .word ∧ Aim.named? t.value = some aim

def Heading.spellings (h : Heading) : Language Token :=
  (h.turns.map Turn.spellings).prod * h.aim.spellings

def Numeral.spellings (n : Numeral) : Language Token :=
  singleWord fun t => t.kind = .number ∧ t.numeral? = some n

/-- A numeral that may be left out where it is one. -/
def Numeral.countSpellings (n : Numeral) : Language Token :=
  n.spellings + if n = .one then 1 else 0

def Color.spellings (color : Color) : Language Token :=
  singleWord fun t => t.kind = .word ∧ Color.named? t.value = some color

def Tile.spellings (t : Tile) : Language Token := perhaps Color.spellings t.color * name t.thing

def Comparison.spellings (c : Comparison) : Language Token :=
  singleWord fun t => t.kind = .operator ∧ t.value = c.sign

def Condition.spellings : Condition → Language Token
  | .not inner => key "NOT" * inner.spellings
  | .adjacent => key "ADJACENT"
  | .blocked heading => key "BLOCKED" * heading.spellings
  | .aligned heading => key "ALIGNED" * perhaps Heading.spellings heading
  | .peep radius => key "PEEP" * radius.spellings
  | .present tile count => key "EXISTS" * (tile.spellings * count.countSpellings)
  | .testing counter comparison value =>
    (key "TESTING" * name counter + nameBut Grammar.conditionKeywords counter) *
      (comparison.spellings * value.spellings)

namespace Command

/-- What may follow the keyword of the command. -/
def operandSpellings : Command → Language Token
  | .move heading count forceful =>
    heading.spellings * (count.countSpellings * flag "FORCE" forceful)
  | .attempt heading otherwise => heading.spellings * perhaps name otherwise
  | .wait ticks => ticks.countSpellings
  | .say text => quotedAs text
  | .scroll lines => series lines
  | .jumpIf condition label => condition.spellings * jump label
  | .put heading tile => heading.spellings * tile.spellings
  | .send recipient message => perhaps name recipient * name message
  | .set counter value => name counter * value.spellings
  | .give counter amount => name counter * amount.spellings
  | .take counter amount otherwise => name counter * (amount.spellings * perhaps name otherwise)
  | .become tile => tile.spellings
  | .change source target => source.spellings * target.spellings
  | .char code => code.spellings
  | .torch radius => radius.spellings
  | .shoot heading | .throwStar heading | .walk heading => heading.spellings
  | .restore label | .zap label => name label
  | .play tune exclusive => quotedAs tune * flag "EXCLUSIVE" exclusive
  | .finish | .die | .stand | .lock | .unlock => 1

def spellings (c : Command) : Language Token := key c.keyword * c.operandSpellings

end Command

def Line.spellings : Line → Language Token
  | .command c => c.spellings
  | .label text => sign ":" * name text
  | .blank => 1

section Words

theorem exists_named {α : Type} {words : List (String × α)} {text : String}
    (shown : ∃ keyword ∈ words.map (·.1), sameWord text keyword = true) :
    ∃ a, (words.find? (sameWord ·.1 text)).map (·.2) = some a := by
  obtain ⟨keyword, mem, same⟩ := shown
  obtain ⟨entry, listed, rfl⟩ := List.mem_map.1 mem
  rw [sameWord_comm] at same
  rw [← Option.isSome_iff_exists, Option.isSome_map, List.find?_isSome]
  exact ⟨entry, listed, same⟩

theorem exists_keyword {α : Type} {words : List (String × α)} {text : String} {a : α}
    (named : (words.find? (sameWord ·.1 text)).map (·.2) = some a) :
    ∃ keyword ∈ words.map (·.1), sameWord text keyword = true := by
  obtain ⟨entry, found, -⟩ := Option.map_eq_some_iff.1 named
  have same := List.find?_some found
  refine ⟨entry.1, List.mem_map_of_mem (List.mem_of_find?_eq_some found), ?_⟩
  rwa [sameWord_comm]

theorem Color.sameWord_of_named {text : String} {color : Color}
    (named : Color.named? text = some color) : sameWord text color.keyword = true := by
  have same := List.find?_some (p := fun c : Color => sameWord c.keyword text) named
  rwa [sameWord_comm]

theorem Color.exists_named {text : String}
    (shown : ∃ keyword ∈ Color.keywords, sameWord text keyword = true) :
    ∃ color, Color.named? text = some color := by
  obtain ⟨keyword, mem, same⟩ := shown
  obtain ⟨color, listed, rfl⟩ := List.mem_map.1 mem
  rw [sameWord_comm] at same
  rw [← Option.isSome_iff_exists, Color.named?, List.find?_isSome]
  exact ⟨color, listed, same⟩

theorem Color.mem_all (color : Color) : color ∈ Color.all := by cases color <;> decide

end Words

theorem aim_heading (aim : Aim) : Heading.spellings ⟨aim, []⟩ = aim.spellings := by
  rw [Heading.spellings, List.map_nil, List.prod_nil, one_mul]

theorem turn_heading (turn : Turn) (h : Heading) :
    Heading.spellings { h with turns := turn :: h.turns } = turn.spellings * h.spellings := by
  rw [Heading.spellings, List.map_cons, List.prod_cons, mul_assoc]
  rfl

theorem nil_mem_count : [] ∈ Numeral.one.countSpellings := by
  rw [Numeral.countSpellings, if_pos rfl]
  exact nil_mem_maybe _

/-! Whatever spells a command is a sentence. -/

section Sentences

theorem singleWord_le {τ : Type} {p q : τ → Prop} (le : ∀ t, p t → q t) :
    singleWord p ≤ singleWord q := by
  rintro _ ⟨t, has, rfl⟩
  exact ⟨t, le t has, rfl⟩

theorem name_le (text : String) : name text ≤ word := singleWord_le fun _ => And.left

theorem nameBut_le (texts : List String) (text : String) : nameBut texts text ≤ wordBut texts :=
  singleWord_le fun _ h => ⟨h.1, h.2.1⟩

theorem quotedAs_le (text : String) : quotedAs text ≤ quoted := singleWord_le fun _ => And.left

theorem numeral_le (n : Numeral) : n.spellings ≤ number := singleWord_le fun _ => And.left

theorem le_maybe (l : Language Token) : l ≤ maybe l := le_add_right le_rfl

theorem one_le_maybe (l : Language Token) : 1 ≤ maybe l := le_add_left le_rfl

theorem perhaps_le {α : Type} {spellings : α → Language Token} {l : Language Token}
    (le : ∀ a, spellings a ≤ l) (a : Option α) : perhaps spellings a ≤ maybe l := by
  cases a with
  | none => exact one_le_maybe l
  | some a => exact (le a).trans (le_maybe l)

theorem flag_le (text : String) (isSet : Bool) : flag text isSet ≤ maybe (key text) := by
  cases isSet with
  | false => exact one_le_maybe _
  | true => exact le_maybe _

theorem count_le (n : Numeral) : n.countSpellings ≤ maybe number := by
  refine add_le ((numeral_le n).trans (le_maybe _)) ?_
  split
  · exact one_le_maybe _
  · exact bot_le

theorem series_le (lines : List String) : series lines ≤ quoted * (comma * quoted)∗ := by
  induction lines with
  | nil => exact bot_le
  | cons text lines ih =>
    cases lines with
    | nil =>
      calc quotedAs text ≤ quoted * 1 := by rw [mul_one]; exact quotedAs_le text
        _ ≤ quoted * (comma * quoted)∗ := mul_le_mul' le_rfl one_le_kstar
    | cons next lines =>
      refine mul_le_mul' (quotedAs_le text) ?_
      calc comma * series (next :: lines) ≤ comma * (quoted * (comma * quoted)∗) :=
            mul_le_mul' le_rfl ih
        _ = comma * quoted * (comma * quoted)∗ := (mul_assoc ..).symm
        _ ≤ (comma * quoted)∗ := mul_kstar_le_kstar

theorem heading_le (h : Heading) : h.spellings ≤ heading := by
  have turns : ∀ turns : List Turn, (turns.map Turn.spellings).prod ≤ turn∗ := by
    intro turns
    induction turns with
    | nil => exact one_le_kstar
    | cons first turns ih =>
      rw [List.map_cons, List.prod_cons]
      refine (mul_le_mul' (singleWord_le fun t h => ?_) ih).trans mul_kstar_le_kstar
      exact ⟨h.1, exists_keyword h.2⟩
  exact mul_le_mul' (turns h.turns) (singleWord_le fun t h => ⟨h.1, exists_keyword h.2⟩)

theorem tile_le (t : Tile) : t.spellings ≤ tile := by
  refine mul_le_mul' (perhaps_le (fun color => singleWord_le fun u h => ?_) t.color) (name_le _)
  exact ⟨h.1, color.keyword, List.mem_map_of_mem (Color.mem_all color),
    Color.sameWord_of_named h.2⟩

theorem comparison_le (c : Comparison) : c.spellings ≤ comparison := by
  refine singleWord_le fun t h => ⟨h.1, ?_⟩
  rw [h.2]
  cases c <;> decide

theorem condition_le (q : Condition) : q.spellings ≤ condition := by
  have asked : question ≤ condition := by
    calc question = 1 * question := (one_mul _).symm
      _ ≤ condition := mul_le_mul' one_le_kstar le_rfl
  induction q with
  | not inner ih =>
    calc key "NOT" * inner.spellings ≤ key "NOT" * condition := mul_le_mul' le_rfl ih
      _ ≤ condition := by
        rw [condition, ← mul_assoc]
        exact mul_le_mul' mul_kstar_le_kstar le_rfl
  | adjacent => exact fun w word => asked (.inl (.inl (.inl (.inl (.inl (.inl word))))))
  | blocked heading =>
    have le := mul_le_mul' (le_refl (key "BLOCKED")) (heading_le heading)
    exact fun w word => asked (.inl (.inl (.inl (.inl (.inl (.inr (le word)))))))
  | aligned heading =>
    have le := mul_le_mul' (le_refl (key "ALIGNED")) (perhaps_le heading_le heading)
    exact fun w word => asked (.inl (.inl (.inl (.inl (.inr (le word))))))
  | peep radius =>
    have le := mul_le_mul' (le_refl (key "PEEP")) (numeral_le radius)
    exact fun w word => asked (.inl (.inl (.inl (.inr (le word)))))
  | present tile count =>
    have le := mul_le_mul' (mul_le_mul' (le_refl (key "EXISTS")) (tile_le tile)) (count_le count)
    intro w word
    rw [Condition.spellings, ← mul_assoc] at word
    exact asked (.inl (.inl (.inr (le word))))
  | testing counter sign value =>
    have compared := mul_le_mul' (comparison_le sign) (numeral_le value)
    have le := mul_le_mul' (mul_le_mul' (le_refl (key "TESTING")) (name_le counter)) compared
    have le' := mul_le_mul' (nameBut_le Grammar.conditionKeywords counter) compared
    intro w word
    rw [Condition.spellings, add_mul] at word
    rcases (Language.mem_add _ _ _).1 word with word | word
    · exact asked (.inl (.inr (by rw [mul_assoc]; exact le word)))
    · exact asked (.inr (by rw [mul_assoc]; exact le' word))

theorem exists_form (c : Command) :
    ∃ form ∈ commandForms, form.1 = c.keyword ∧ c.operandSpellings ≤ form.2 := by
  have listed (place : Nat) {form : String × Language Token}
      (found : commandForms[place]? = some form) (keyword : form.1 = c.keyword)
      (le : c.operandSpellings ≤ form.2) :
      ∃ form ∈ commandForms, form.1 = c.keyword ∧ c.operandSpellings ≤ form.2 :=
    ⟨form, List.mem_of_getElem? found, keyword, le⟩
  cases c with
  | move h count forceful =>
    refine listed 0 rfl rfl ?_
    rw [Command.operandSpellings, ← mul_assoc]
    exact mul_le_mul' (mul_le_mul' (heading_le h) (count_le count)) (flag_le "FORCE" forceful)
  | attempt h otherwise =>
    exact listed 1 rfl rfl (mul_le_mul' (heading_le h) (perhaps_le name_le otherwise))
  | wait ticks => exact listed 2 rfl rfl (count_le ticks)
  | say text => exact listed 3 rfl rfl (quotedAs_le text)
  | scroll lines => exact listed 4 rfl rfl (series_le lines)
  | finish => exact listed 5 rfl rfl le_rfl
  | die => exact listed 6 rfl rfl le_rfl
  | jumpIf q label =>
    refine listed 7 rfl rfl ?_
    rw [Command.operandSpellings, jump, ← mul_assoc, ← mul_assoc]
    exact mul_le_mul' (mul_le_mul' (mul_le_mul' (condition_le q) le_rfl) le_rfl)
      (nameBut_le ["THEN"] label)
  | put h tile => exact listed 8 rfl rfl (mul_le_mul' (heading_le h) (tile_le tile))
  | send recipient message =>
    refine listed 9 rfl rfl ?_
    cases recipient with
    | none =>
      calc 1 * name message ≤ word * 1 := by rw [one_mul, mul_one]; exact name_le message
        _ ≤ word * maybe word := mul_le_mul' le_rfl (one_le_maybe word)
    | some recipient =>
      exact mul_le_mul' (name_le recipient) ((name_le message).trans (le_maybe word))
  | set counter value => exact listed 10 rfl rfl (mul_le_mul' (name_le counter) (numeral_le value))
  | give counter amount =>
    exact listed 11 rfl rfl (mul_le_mul' (name_le counter) (numeral_le amount))
  | take counter amount otherwise =>
    refine listed 12 rfl rfl ?_
    rw [Command.operandSpellings, ← mul_assoc]
    exact mul_le_mul' (mul_le_mul' (name_le counter) (numeral_le amount))
      (perhaps_le name_le otherwise)
  | become tile => exact listed 13 rfl rfl (tile_le tile)
  | change source target => exact listed 14 rfl rfl (mul_le_mul' (tile_le source) (tile_le target))
  | char code => exact listed 15 rfl rfl (numeral_le code)
  | torch radius => exact listed 16 rfl rfl (numeral_le radius)
  | shoot h => exact listed 17 rfl rfl (heading_le h)
  | throwStar h => exact listed 18 rfl rfl (heading_le h)
  | walk h => exact listed 19 rfl rfl (heading_le h)
  | stand => exact listed 20 rfl rfl le_rfl
  | lock => exact listed 21 rfl rfl le_rfl
  | unlock => exact listed 22 rfl rfl le_rfl
  | restore label => exact listed 23 rfl rfl (name_le label)
  | zap label => exact listed 24 rfl rfl (name_le label)
  | play tune exclusive =>
    exact listed 25 rfl rfl (mul_le_mul' (quotedAs_le tune) (flag_le "EXCLUSIVE" exclusive))

theorem spellings_le_line (c : Command) : c.spellings ≤ line := by
  obtain ⟨form, listed, keyword, le⟩ := exists_form c
  intro w word
  refine .inl (.inl (mem_sum.2 ⟨_, List.mem_map_of_mem listed, ?_⟩))
  rw [keyword]
  exact mul_le_mul' le_rfl le word

end Sentences
end ActorScript
