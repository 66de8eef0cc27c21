import ActorScript.Proofs.Command.Tokens
import ActorScript.Proofs.Grammar.Passing
import ActorScript.Proofs.Token.RoundTrip
import Mathlib.Data.List.Pairwise

/-!
What a spelling settles. Most parts of a line show by themselves where they end, and most commands
have no spelling in common. No more have conditions, but a jump may share one with another, since a
thing can be named like a color or `THEN`, though not with its source; and three words behind
`CHANGE` may be parted in two ways.
-/
namespace ActorScript

open Computability Sentence Token

section Definite

variable {α : Type} {spellings : α → Language Token} {a a' : α} {w r : List Token}
  {l l' : Language Token}

/-- A spelling at the beginning of a text settles what is spelled and where it ends. -/
def Definite (spellings : α → Language Token) : Prop :=
  ∀ a a' w w' r r', w ∈ spellings a → w' ∈ spellings a' → w ++ r = w' ++ r' → a = a' ∧ r = r'

namespace Definite

theorem split (definite : Definite spellings) (word : w ∈ spellings a * l)
    (word' : w ∈ spellings a' * l') : a = a' ∧ ∃ r ∈ l, r ∈ l' := by
  obtain ⟨u, first, r, later, rfl⟩ := Language.mem_mul.1 word
  obtain ⟨u', first', r', later', same⟩ := Language.mem_mul.1 word'
  obtain ⟨rfl, rfl⟩ := definite _ _ _ _ _ _ first first' same.symm
  exact ⟨rfl, r, later, later'⟩

theorem cancel (definite : Definite spellings) (first : w ∈ spellings a)
    (word : w ++ r ∈ spellings a' * l) : a = a' ∧ r ∈ l := by
  obtain ⟨u', first', r', later', same⟩ := Language.mem_mul.1 word
  obtain ⟨rfl, rfl⟩ := definite _ _ _ _ _ _ first first' same.symm
  exact ⟨rfl, later'⟩

theorem eq (definite : Definite spellings) (word : w ∈ spellings a) (word' : w ∈ spellings a') :
    a = a' :=
  (definite a a' w w [] [] word word' rfl).1

end Definite

theorem definite_singleWord (p : α → Token → Prop) (apart : ∀ a a' t, p a t → p a' t → a = a') :
    Definite fun a => singleWord (p a) := by
  rintro a a' _ _ r r' ⟨t, has, rfl⟩ ⟨t', has', rfl⟩ same
  obtain ⟨rfl, rfl⟩ := List.cons.inj same
  exact ⟨apart a a' t has has', rfl⟩

theorem definite_name : Definite name :=
  definite_singleWord _ fun _ _ _ has has' => has.2.symm.trans has'.2

theorem definite_numeral : Definite Numeral.spellings :=
  definite_singleWord _ fun _ _ _ has has' => Option.some.inj (has.2.symm.trans has'.2)

theorem definite_quoted : Definite quotedAs :=
  definite_singleWord _ fun _ _ _ has has' => has.2.symm.trans has'.2

theorem definite_color : Definite Color.spellings :=
  definite_singleWord _ fun _ _ _ has has' => Option.some.inj (has.2.symm.trans has'.2)

theorem definite_aim : Definite Aim.spellings :=
  definite_singleWord _ fun _ _ _ has has' => Option.some.inj (has.2.symm.trans has'.2)

theorem definite_comparison : Definite Comparison.spellings := by
  refine definite_singleWord _ fun c c' t has has' => ?_
  have same : c.sign = c'.sign := has.2.symm.trans has'.2
  revert same
  cases c <;> cases c' <;> decide

theorem aim_ne_turn {t : Token} {aim : Aim} {turn : Turn} (aims : Aim.named? t.value = some aim)
    (turns : Turn.named? t.value = some turn) : False := by
  obtain ⟨a, listed, same⟩ := exists_keyword aims
  obtain ⟨b, listed', same'⟩ := exists_keyword turns
  have apart := Grammar.turns_apart a listed b listed'
  rw [← sameWord_congr same, same'] at apart
  exact absurd apart (by decide)

theorem definite_heading : Definite Heading.spellings := by
  rintro ⟨aim, turns⟩ ⟨aim', turns'⟩ w w' r r' word word' same
  induction turns generalizing turns' w w' with
  | nil =>
    rw [aim_heading] at word
    cases turns' with
    | nil =>
      rw [aim_heading] at word'
      obtain ⟨rfl, rfl⟩ := definite_aim _ _ _ _ _ _ word word' same
      exact ⟨rfl, rfl⟩
    | cons turn' turns' =>
      rw [turn_heading turn' ⟨aim', turns'⟩] at word'
      obtain ⟨t, ⟨-, aims⟩, rfl⟩ := word
      obtain ⟨t', _, turned, -, rfl⟩ := mem_singleWord_mul.1 word'
      obtain ⟨rfl, -⟩ := List.cons.inj same
      exact (aim_ne_turn aims turned.2).elim
  | cons turn turns ih =>
    rw [turn_heading turn ⟨aim, turns⟩] at word
    obtain ⟨t, w, turned, later, rfl⟩ := mem_singleWord_mul.1 word
    cases turns' with
    | nil =>
      rw [aim_heading] at word'
      obtain ⟨t', ⟨-, aims⟩, rfl⟩ := word'
      obtain ⟨rfl, -⟩ := List.cons.inj same
      exact (aim_ne_turn aims turned.2).elim
    | cons turn' turns' =>
      rw [turn_heading turn' ⟨aim', turns'⟩] at word'
      obtain ⟨t', w', turned', later', rfl⟩ := mem_singleWord_mul.1 word'
      obtain ⟨rfl, behind⟩ := List.cons.inj same
      obtain ⟨heading, rfl⟩ := ih turns' w w' later later' behind
      obtain rfl : turn = turn' := Option.some.inj (turned.2.symm.trans turned'.2)
      obtain ⟨rfl, rfl⟩ := Heading.mk.inj heading
      exact ⟨rfl, rfl⟩

end Definite

section Settled

variable {α : Type} {w : List Token} {l l' : Language Token}

theorem count_split {n n' : Numeral} (word : w ∈ n.countSpellings * l)
    (word' : w ∈ n'.countSpellings * l') (behind : ∀ r ∈ l, ∀ t ∈ r.head?, t.kind ≠ .number)
    (behind' : ∀ r ∈ l', ∀ t ∈ r.head?, t.kind ≠ .number) : n = n' ∧ ∃ r ∈ l, r ∈ l' := by
  have counted {n : Numeral} {l : Language Token} (word : w ∈ n.countSpellings * l) :
      w ∈ n.spellings * l ∨ n = .one ∧ w ∈ l := by
    rw [Numeral.countSpellings, add_mul] at word
    refine (Language.mem_add _ _ _).1 word |>.imp_right fun left_out => ?_
    split at left_out
    · rename_i is_one
      exact ⟨is_one, by rwa [one_mul] at left_out⟩
    · rw [zero_mul] at left_out
      exact absurd left_out (Language.notMem_zero w)
  have clash {n : Numeral} {l l' : Language Token} (word : w ∈ n.spellings * l)
      (behind : ∀ r ∈ l', ∀ t ∈ r.head?, t.kind ≠ .number) : w ∉ l' := by
    obtain ⟨t, r, ⟨number, -⟩, -, rfl⟩ := mem_singleWord_mul.1 word
    exact fun word' => behind _ word' t rfl number
  rcases counted word with shown | ⟨rfl, left_out⟩
  · rcases counted word' with shown' | ⟨rfl, left_out'⟩
    · exact definite_numeral.split shown shown'
    · exact absurd left_out' (clash shown behind')
  · rcases counted word' with shown' | ⟨rfl, left_out'⟩
    · exact absurd left_out (clash shown' behind)
    · exact ⟨rfl, w, left_out, left_out'⟩

theorem settled_count {n n' : Numeral} (word : w ∈ n.countSpellings)
    (word' : w ∈ n'.countSpellings) : n = n' := by
  rw [← mul_one (Numeral.countSpellings _)] at word word'
  have behind : ∀ r ∈ (1 : Language Token), ∀ t ∈ r.head?, t.kind ≠ .number := by
    rintro _ rfl t first
    exact absurd first (by simp)
  exact (count_split word word' behind behind).1

theorem head_of_flag {text : String} {isSet : Bool} (word : w ∈ flag text isSet) :
    ∀ t ∈ w.head?, t.kind ≠ .number := by
  cases isSet with
  | false =>
    obtain rfl : w = [] := word
    simp
  | true =>
    obtain ⟨t, ⟨bare, -⟩, rfl⟩ := word
    simp [bare]

theorem settled_flag {text : String} {isSet isSet' : Bool} (word : w ∈ flag text isSet)
    (word' : w ∈ flag text isSet') : isSet = isSet' := by
  have shown {isSet : Bool} (word : w ∈ flag text isSet) : isSet = true ↔ w ≠ [] := by
    cases isSet with
    | false =>
      obtain rfl : w = [] := word
      simp
    | true =>
      obtain ⟨t, -, rfl⟩ := word
      simp
  exact Bool.eq_iff_iff.2 ((shown word).trans (shown word').symm)

theorem settled_perhaps {spellings : α → Language Token} {a a' : Option α}
    (definite : Definite spellings) (shown : ∀ a, [] ∉ spellings a) (word : w ∈ perhaps spellings a)
    (word' : w ∈ perhaps spellings a') : a = a' := by
  cases a with
  | none =>
    obtain rfl : w = [] := word
    cases a' with
    | none => rfl
    | some a' => exact absurd word' (shown a')
  | some a =>
    cases a' with
    | none =>
      obtain rfl : w = [] := word'
      exact absurd word (shown a)
    | some a' => rw [definite.eq word word']

theorem settled_perhaps_name {spells : α → Token → Prop} {a a' : Option α}
    {text text' : String} (definite : Definite fun a => singleWord (spells a))
    (word : w ∈ perhaps (fun a => singleWord (spells a)) a * name text)
    (word' : w ∈ perhaps (fun a => singleWord (spells a)) a' * name text') :
    a = a' ∧ text = text' := by
  have length {a : Option α} {text : String}
      (word : w ∈ perhaps (fun a => singleWord (spells a)) a * name text) :
      w.length = a.toList.length + 1 := by
    obtain ⟨u, before, _, ⟨t, -, rfl⟩, rfl⟩ := Language.mem_mul.1 word
    cases a with
    | none =>
      obtain rfl : u = [] := before
      rfl
    | some a =>
      obtain ⟨t', -, rfl⟩ := before
      rfl
  have same := (length word).symm.trans (length word')
  cases a with
  | none =>
    cases a' with
    | none =>
      rw [perhaps, one_mul] at word word'
      exact ⟨rfl, definite_name.eq word word'⟩
    | some a' => simp at same
  | some a =>
    cases a' with
    | none => simp at same
    | some a' =>
      obtain ⟨rfl, r, behind, behind'⟩ := definite.split word word'
      exact ⟨rfl, definite_name.eq behind behind'⟩

theorem settled_tile {t t' : Tile} (word : w ∈ t.spellings) (word' : w ∈ t'.spellings) :
    t = t' := by
  obtain ⟨color, thing⟩ := t
  obtain ⟨color', thing'⟩ := t'
  obtain ⟨rfl, rfl⟩ := settled_perhaps_name definite_color word word'
  rfl

theorem settled_series {lines lines' : List String} (word : w ∈ series lines)
    (word' : w ∈ series lines') : lines = lines' := by
  have ended (l : Language Token) : [] ∉ Sentence.comma * l := fun word => by
    obtain ⟨t, r, -, -, nothing⟩ := mem_singleWord_mul.1 word
    exact absurd nothing (by simp)
  induction lines generalizing lines' w with
  | nil => exact absurd word (Language.notMem_zero w)
  | cons text lines ih =>
    cases lines' with
    | nil => exact absurd word' (Language.notMem_zero w)
    | cons text' lines' =>
      cases lines with
      | nil =>
        cases lines' with
        | nil => rw [definite_quoted.eq word word']
        | cons next' lines' =>
          rw [← List.append_nil w] at word'
          exact absurd (definite_quoted.cancel word word').2 (ended _)
      | cons next lines =>
        cases lines' with
        | nil =>
          rw [← List.append_nil w] at word
          exact absurd (definite_quoted.cancel word' word).2 (ended _)
        | cons next' lines' =>
          obtain ⟨rfl, r, behind, behind'⟩ := definite_quoted.split word word'
          obtain ⟨t, r, -, later, rfl⟩ := mem_singleWord_mul.1 behind
          rw [ih later (cons_mem_singleWord_mul.1 behind').2]

theorem Command.keyword_mem (c : Command) : c.keyword ∈ commandForms.map (·.1) := by
  obtain ⟨form, known, keyword, -⟩ := exists_form c
  exact keyword ▸ List.mem_map_of_mem known

theorem keywords_apart : ∀ a ∈ commandForms.map (·.1), ∀ b ∈ commandForms.map (·.1),
    sameWord a b = true → b = a := by
  have apart : (commandForms.map (·.1)).Pairwise fun a b => sameWord a b = false := by decide
  have symmetric : Std.Symm fun a b => sameWord a b = false :=
    ⟨fun a b apart => by rwa [sameWord_comm]⟩
  intro a mem b mem' same
  by_contra differ
  rw [apart.forall mem mem' (Ne.symm differ)] at same
  exact absurd same (by decide)

/-- Apart from jumps and changes, a command is settled by its keyword and any spelling of the
rest. -/
theorem settled_command {c c' : Command} (keyword : c'.keyword = c.keyword)
    (word : w ∈ c.operandSpellings) (word' : w ∈ c'.operandSpellings)
    (no_jump : c.keyword ≠ "IF") (no_change : c.keyword ≠ "CHANGE") : c = c' := by
  cases c with
  | move heading count forceful =>
    cases c' with
    | move heading' count' forceful' =>
      obtain ⟨rfl, r, behind, behind'⟩ := definite_heading.split word word'
      obtain ⟨rfl, r, flagged, flagged'⟩ := count_split behind behind'
        (fun _ => head_of_flag) fun _ => head_of_flag
      rw [settled_flag flagged flagged']
    | _ => exact absurd keyword (of_decide_eq_false rfl)
  | attempt heading otherwise =>
    cases c' with
    | attempt heading' otherwise' =>
      obtain ⟨rfl, r, behind, behind'⟩ := definite_heading.split word word'
      rw [settled_perhaps definite_name (fun _ => nil_notMem_singleWord _) behind behind']
    | _ => exact absurd keyword (of_decide_eq_false rfl)
  | wait ticks =>
    cases c' with
    | wait ticks' => rw [settled_count word word']
    | _ => exact absurd keyword (of_decide_eq_false rfl)
  | say text =>
    cases c' with
    | say text' => rw [definite_quoted.eq word word']
    | _ => exact absurd keyword (of_decide_eq_false rfl)
  | scroll lines =>
    cases c' with
    | scroll lines' => rw [settled_series word word']
    | _ => exact absurd keyword (of_decide_eq_false rfl)
  | jumpIf condition label => exact absurd rfl no_jump
  | put heading tile =>
    cases c' with
    | put heading' tile' =>
      obtain ⟨rfl, r, behind, behind'⟩ := definite_heading.split word word'
      rw [settled_tile behind behind']
    | _ => exact absurd keyword (of_decide_eq_false rfl)
  | send recipient message =>
    cases c' with
    | send recipient' message' =>
      obtain ⟨rfl, rfl⟩ := settled_perhaps_name definite_name word word'
      rfl
    | _ => exact absurd keyword (of_decide_eq_false rfl)
  | set counter value =>
    cases c' with
    | set counter' value' =>
      obtain ⟨rfl, r, behind, behind'⟩ := definite_name.split word word'
      rw [definite_numeral.eq behind behind']
    | _ => exact absurd keyword (of_decide_eq_false rfl)
  | give counter amount =>
    cases c' with
    | give counter' amount' =>
      obtain ⟨rfl, r, behind, behind'⟩ := definite_name.split word word'
      rw [definite_numeral.eq behind behind']
    | _ => exact absurd keyword (of_decide_eq_false rfl)
  | take counter amount otherwise =>
    cases c' with
    | take counter' amount' otherwise' =>
      obtain ⟨rfl, r, behind, behind'⟩ := definite_name.split word word'
      obtain ⟨rfl, r, jump, jump'⟩ := definite_numeral.split behind behind'
      rw [settled_perhaps definite_name (fun _ => nil_notMem_singleWord _) jump jump']
    | _ => exact absurd keyword (of_decide_eq_false rfl)
  | become tile =>
    cases c' with
    | become tile' => rw [settled_tile word word']
    | _ => exact absurd keyword (of_decide_eq_false rfl)
  | change source target => exact absurd rfl no_change
  | char code =>
    cases c' with
    | char code' => rw [definite_numeral.eq word word']
    | _ => exact absurd keyword (of_decide_eq_false rfl)
  | torch radius =>
    cases c' with
    | torch radius' => rw [definite_numeral.eq word word']
    | _ => exact absurd keyword (of_decide_eq_false rfl)
  | shoot heading =>
    cases c' with
    | shoot heading' => rw [definite_heading.eq word word']
    | _ => exact absurd keyword (of_decide_eq_false rfl)
  | throwStar heading =>
    cases c' with
    | throwStar heading' => rw [definite_heading.eq word word']
    | _ => exact absurd keyword (of_decide_eq_false rfl)
  | walk heading =>
    cases c' with
    | walk heading' => rw [definite_heading.eq word word']
    | _ => exact absurd keyword (of_decide_eq_false rfl)
  | restore label =>
    cases c' with
    | restore label' => rw [definite_name.eq word word']
    | _ => exact absurd keyword (of_decide_eq_false rfl)
  | zap label =>
    cases c' with
    | zap label' => rw [definite_name.eq word word']
    | _ => exact absurd keyword (of_decide_eq_false rfl)
  | play tune exclusive =>
    cases c' with
    | play tune' exclusive' =>
      obtain ⟨rfl, r, behind, behind'⟩ := definite_quoted.split word word'
      rw [settled_flag behind behind']
    | _ => exact absurd keyword (of_decide_eq_false rfl)
  | finish | die | stand | lock | unlock =>
    cases c' <;> first | rfl | exact absurd keyword (of_decide_eq_false rfl)

end Settled

/-- The word that a condition begins with, when all is written. -/
def Condition.keyword : Condition → String
  | .not .. => "NOT"
  | .adjacent => "ADJACENT"
  | .blocked .. => "BLOCKED"
  | .aligned .. => "ALIGNED"
  | .peep .. => "PEEP"
  | .present .. => "EXISTS"
  | .testing .. => "TESTING"

section Jump

variable {w r : List Token} {t u : Token} {label : String} {l : Language Token}

theorem Condition.keyword_mem (q : Condition) : q.keyword ∈ Grammar.conditionKeywords := by
  cases q <;> simp [Condition.keyword, Grammar.conditionKeywords]

theorem mem_of_key {text : String} (word : t :: r ∈ key text * l) : r ∈ l :=
  (cons_mem_singleWord_mul.1 word).2

theorem opening_keyword {q : Condition} (word : t :: r ∈ q.spellings * l) :
    sameWord t.value q.keyword = true ∨ q.keyword = "TESTING" ∧
      ∀ text ∈ Grammar.conditionKeywords, sameWord t.value text = false := by
  cases q with
  | adjacent =>
    rw [Condition.spellings] at word
    exact .inl (cons_mem_singleWord_mul.1 word).1.2
  | not | blocked | aligned | peep | present =>
    rw [Condition.spellings, mul_assoc] at word
    exact .inl (cons_mem_singleWord_mul.1 word).1.2
  | testing counter comparison value =>
    rw [Condition.spellings, mul_assoc, add_mul, mul_assoc] at word
    rcases (Language.mem_add _ _ _).1 word with word | word
    · exact .inl (cons_mem_singleWord_mul.1 word).1.2
    · exact .inr ⟨rfl, (cons_mem_singleWord_mul.1 word).1.2.1⟩

theorem keyword_of_shown {q : Condition} {text : String} (word : t :: r ∈ q.spellings * l)
    (listed : text ∈ Grammar.conditionKeywords) (shown : sameWord t.value text = true) :
    q.keyword = text := by
  have apart : ∀ a ∈ Grammar.conditionKeywords, ∀ b ∈ Grammar.conditionKeywords,
      sameWord a b = true → b = a := by decide
  rcases opening_keyword word with same | ⟨-, none_shown⟩
  · rw [sameWord_congr shown] at same
    exact apart text listed _ q.keyword_mem same
  · rw [none_shown text listed] at shown
    exact absurd shown (by decide)

theorem keyword_of_none_shown {q : Condition} (word : t :: r ∈ q.spellings * l)
    (none_shown : ∀ text ∈ Grammar.conditionKeywords, sameWord t.value text = false) :
    q.keyword = "TESTING" := by
  rcases opening_keyword word with same | ⟨testing, -⟩
  · rw [none_shown _ q.keyword_mem] at same
    exact absurd same (by decide)
  · exact testing

theorem keyword_eq {spell : Aim → String} {q q' : Condition}
    (word : q.tokens spell ++ w ∈ q'.spellings * l) : q'.keyword = q.keyword := by
  obtain ⟨r, source⟩ : ∃ r, q.tokens spell = ofWord q.keyword :: r := by
    cases q <;> exact ⟨_, rfl⟩
  rw [source] at word
  exact keyword_of_shown word q.keyword_mem (sameWord_refl q.keyword)

theorem mem_jump (word : w ∈ jump label) : ∃ before t, w = before ++ [t] ∧
    (∀ u ∈ before, u.kind = .operator ∨ u.kind = .word ∧ sameWord u.value "THEN" = true) ∧
      t.kind = .word ∧ Grammar.nameOf t = label := by
  obtain ⟨v, then_word, _, ends, rfl⟩ := Language.mem_mul.1 word
  obtain ⟨v', colon, _, ⟨t, ⟨bare, -, named⟩, rfl⟩, rfl⟩ := Language.mem_mul.1 ends
  refine ⟨v ++ v', t, (List.append_assoc ..).symm, fun u mem => ?_, bare, named⟩
  rcases List.mem_append.1 mem with mem | mem
  · rcases (Language.mem_add _ _ _).1 then_word with ⟨u', shown, rfl⟩ | nothing
    · obtain rfl := List.mem_singleton.1 mem
      exact .inr shown
    · obtain rfl : v = [] := nothing
      exact absurd mem List.not_mem_nil
  · rcases (Language.mem_add _ _ _).1 colon with ⟨u', shown, rfl⟩ | nothing
    · obtain rfl := List.mem_singleton.1 mem
      exact .inl shown.1
    · obtain rfl : v' = [] := nothing
      exact absurd mem List.not_mem_nil

theorem settled_jump {label' : String} (word : w ∈ jump label) (word' : w ∈ jump label') :
    label = label' := by
  obtain ⟨before, t, rfl, -, -, rfl⟩ := mem_jump word
  obtain ⟨before', t', same, -, -, rfl⟩ := mem_jump word'
  rw [List.singleton_inj.1 (List.append_inj' same rfl).2]

theorem no_number_of_jump (word : w ∈ jump label) : ∀ t ∈ w, t.kind ≠ .number := by
  obtain ⟨before, t, rfl, opening, bare, -⟩ := mem_jump word
  intro u mem
  rcases List.mem_append.1 mem with mem | mem
  · rcases opening u mem with operator | ⟨bare', -⟩
    · simp [operator]
    · simp [bare']
  · obtain rfl := List.mem_singleton.1 mem
    simp [bare]

theorem heading_opening {h : Heading} (word : w ∈ h.spellings) :
    ∃ t r, w = t :: r ∧ t.kind = .word ∧ sameWord t.value "THEN" = false := by
  have apart : ∀ text ∈ Turn.keywords ++ Aim.keywords, sameWord text "THEN" = false := by decide
  obtain ⟨aim, turns⟩ := h
  cases turns with
  | nil =>
    rw [aim_heading] at word
    obtain ⟨t, ⟨bare, aims⟩, rfl⟩ := word
    obtain ⟨text, listed, same⟩ := exists_keyword aims
    refine ⟨t, [], rfl, bare, ?_⟩
    rw [sameWord_congr same, apart text (List.mem_append_right _ listed)]
  | cons turn turns =>
    rw [turn_heading turn ⟨aim, turns⟩] at word
    obtain ⟨t, r, ⟨bare, turned⟩, -, rfl⟩ := mem_singleWord_mul.1 word
    obtain ⟨text, listed, same⟩ := exists_keyword turned
    refine ⟨t, r, rfl, bare, ?_⟩
    rw [sameWord_congr same, apart text (List.mem_append_left _ listed)]

theorem tile_words {tile : Tile} (word : w ∈ tile.spellings) : ∀ t ∈ w, t.kind = .word := by
  obtain ⟨color, thing⟩ := tile
  obtain ⟨v, colored, _, ⟨t, ⟨bare, -⟩, rfl⟩, rfl⟩ := Language.mem_mul.1 word
  have color_word : ∀ u ∈ v, u.kind = .word := by
    cases color with
    | none =>
      obtain rfl : v = [] := colored
      simp
    | some color =>
      obtain ⟨u, ⟨bare', -⟩, rfl⟩ := colored
      simp [bare']
  exact List.forall_mem_append.2 ⟨color_word, by simp [bare]⟩

theorem settled_present {tile tile' : Tile} {count count' : Numeral} (first : w ∈ tile.spellings)
    (counted : t.kind = .number ∧ t.numeral? = some count)
    (word : w ++ t :: r ∈ tile'.spellings * (count'.countSpellings * jump label)) :
    tile = tile' ∧ count = count' ∧ r ∈ jump label := by
  obtain ⟨w', first', _, behind, same⟩ := Language.mem_mul.1 word
  obtain ⟨v, counted', r', jump, rfl⟩ := Language.mem_mul.1 behind
  have words := tile_words first
  have words' := tile_words first'
  -- The number belongs neither to the other tile nor to the jump: it is the other count.
  have shown : v ∈ count'.spellings := by
    refine ((Language.mem_add _ _ _).1 counted').resolve_right fun left_out => ?_
    have nothing : v = [] := by
      split at left_out
      · exact left_out
      · exact absurd left_out (Language.notMem_zero v)
    have mem : t ∈ w' ++ (v ++ r') := by rw [same]; simp
    rw [nothing, List.nil_append] at mem
    rcases List.mem_append.1 mem with mem | mem
    · exact absurd (words' t mem) (by simp [counted.1])
    · exact no_number_of_jump jump t mem counted.1
  obtain ⟨t', counts, rfl⟩ := shown
  -- So both tiles end where the first number stands.
  have stop {t : Token} {r : List Token} (number : t.kind = .number) :
      ∀ u ∈ (t :: r).head?, (decide (u.kind = .word)) = false := by
    simp [number]
  have cut := congrArg (List.takeWhile fun t => decide (t.kind = .word)) same
  rw [List.singleton_append, takeWhile_append_stop (by simpa using words') (stop counts.1),
    takeWhile_append_stop (by simpa using words) (stop counted.1)] at cut
  subst cut
  obtain ⟨rfl, rfl⟩ := List.cons.inj (List.append_cancel_left same)
  exact ⟨settled_tile first first', Option.some.inj (counted.2.symm.trans counts.2), jump⟩

section Asked

theorem definite_nameBut (texts : List String) : Definite (nameBut texts) :=
  definite_singleWord _ fun _ _ _ has has' => has.2.2.symm.trans has'.2.2

theorem count_numbers {n : Numeral} (word : w ∈ n.countSpellings) : ∀ t ∈ w, t.kind = .number := by
  rcases (Language.mem_add _ _ _).1 word with ⟨t, ⟨number, -⟩, rfl⟩ | left_out
  · simp [number]
  · split at left_out
    · obtain rfl : w = [] := left_out
      simp
    · exact absurd left_out (Language.notMem_zero w)

theorem settled_counted {tile tile' : Tile} {count count' : Numeral}
    (word : w ∈ tile.spellings * count.countSpellings)
    (word' : w ∈ tile'.spellings * count'.countSpellings) : tile = tile' ∧ count = count' := by
  have words {tile : Tile} {count : Numeral} {u v : List Token} (first : u ∈ tile.spellings)
      (later : v ∈ count.countSpellings) :
      (u ++ v).filter (fun t => decide (t.kind = .word)) = u := by
    have no_words : v.filter (fun t => decide (t.kind = .word)) = [] :=
      List.filter_eq_nil_iff.2 fun t mem => by simp [count_numbers later t mem]
    rw [List.filter_append, no_words, List.append_nil]
    exact List.filter_eq_self.2 fun t mem => by simp [tile_words first t mem]
  obtain ⟨u, first, v, later, rfl⟩ := Language.mem_mul.1 word
  obtain ⟨u', first', v', later', same⟩ := Language.mem_mul.1 word'
  obtain rfl : u' = u := by rw [← words first' later', same, words first later]
  obtain rfl := List.append_cancel_left same
  exact ⟨settled_tile first first', settled_count later later'⟩

theorem settled_compared {spellings : String → Language Token} {counter counter' : String}
    {comparison comparison' : Comparison} {value value' : Numeral} (definite : Definite spellings)
    (word : w ∈ spellings counter * (comparison.spellings * value.spellings))
    (word' : w ∈ spellings counter' * (comparison'.spellings * value'.spellings)) :
    Condition.testing counter comparison value = .testing counter' comparison' value' := by
  obtain ⟨rfl, r, compared, compared'⟩ := definite.split word word'
  obtain ⟨rfl, r, bound, bound'⟩ := definite_comparison.split compared compared'
  rw [definite_numeral.eq bound bound']

theorem settled_asked {q q' : Condition} (word : w ∈ q.spellings) (word' : w ∈ q'.spellings) :
    q = q' := by
  have alone {q : Condition} {w : List Token} (word : w ∈ q.spellings) :
      w ∈ q.spellings * 1 := by rwa [mul_one]
  induction q generalizing q' w with
  | not inner ih =>
    obtain ⟨t, r, keyed, asked, rfl⟩ := mem_singleWord_mul.1 word
    have keyword := keyword_of_shown (alone word') (by decide) keyed.2
    cases q' with
    | not inner' => rw [ih asked (mem_of_key word')]
    | _ => exact absurd keyword (of_decide_eq_false rfl)
  | adjacent =>
    obtain ⟨t, keyed, rfl⟩ := word
    have keyword := keyword_of_shown (alone word') (by decide) keyed.2
    cases q' with
    | adjacent => rfl
    | _ => exact absurd keyword (of_decide_eq_false rfl)
  | blocked heading =>
    obtain ⟨t, r, keyed, asked, rfl⟩ := mem_singleWord_mul.1 word
    have keyword := keyword_of_shown (alone word') (by decide) keyed.2
    cases q' with
    | blocked heading' => rw [definite_heading.eq asked (mem_of_key word')]
    | _ => exact absurd keyword (of_decide_eq_false rfl)
  | aligned heading =>
    obtain ⟨t, r, keyed, asked, rfl⟩ := mem_singleWord_mul.1 word
    have keyword := keyword_of_shown (alone word') (by decide) keyed.2
    cases q' with
    | aligned heading' =>
      have shown (h : Heading) : [] ∉ h.spellings :=
        fun nothing => nil_notMem_heading (heading_le h nothing)
      rw [settled_perhaps definite_heading shown asked (mem_of_key word')]
    | _ => exact absurd keyword (of_decide_eq_false rfl)
  | peep radius =>
    obtain ⟨t, r, keyed, asked, rfl⟩ := mem_singleWord_mul.1 word
    have keyword := keyword_of_shown (alone word') (by decide) keyed.2
    cases q' with
    | peep radius' => rw [definite_numeral.eq asked (mem_of_key word')]
    | _ => exact absurd keyword (of_decide_eq_false rfl)
  | present tile count =>
    obtain ⟨t, r, keyed, asked, rfl⟩ := mem_singleWord_mul.1 word
    have keyword := keyword_of_shown (alone word') (by decide) keyed.2
    cases q' with
    | present tile' count' =>
      obtain ⟨rfl, rfl⟩ := settled_counted asked (mem_of_key word')
      rfl
    | _ => exact absurd keyword (of_decide_eq_false rfl)
  | testing counter comparison value =>
    rw [Condition.spellings, add_mul, mul_assoc] at word
    rcases (Language.mem_add _ _ _).1 word with word | bare
    · obtain ⟨t, r, keyed, asked, rfl⟩ := mem_singleWord_mul.1 word
      have keyword := keyword_of_shown (alone word') (by decide) keyed.2
      cases q' with
      | testing counter' comparison' value' =>
        rw [Condition.spellings, add_mul, mul_assoc] at word'
        rcases (Language.mem_add _ _ _).1 word' with word' | bare'
        · exact settled_compared definite_name asked (mem_of_key word')
        · obtain ⟨⟨-, none_shown, -⟩, -⟩ := cons_mem_singleWord_mul.1 bare'
          rw [none_shown "TESTING" (by decide)] at keyed
          exact absurd keyed.2 (by decide)
      | _ => exact absurd keyword (of_decide_eq_false rfl)
    · obtain ⟨t, r, ⟨-, none_shown, -⟩, -, rfl⟩ := mem_singleWord_mul.1 bare
      have keyword := keyword_of_none_shown (alone word') none_shown
      cases q' with
      | testing counter' comparison' value' =>
        rw [Condition.spellings, add_mul, mul_assoc] at word'
        rcases (Language.mem_add _ _ _).1 word' with keyed | bare'
        · have shown := (cons_mem_singleWord_mul.1 keyed).1.2
          rw [none_shown "TESTING" (by decide)] at shown
          exact absurd shown (by decide)
        · exact settled_compared (definite_nameBut _) bare bare'
      | _ => exact absurd keyword (of_decide_eq_false rfl)

end Asked

section Source

variable {spell : Aim → String} (listed : ∀ aim, (spell aim, aim) ∈ Aim.words)

include listed

theorem settled_aligned {heading heading' : Option Heading}
    (then_word : t.kind = .word ∧ sameWord t.value "THEN" = true)
    (word : perhapsTokens (Heading.tokens spell) heading ++ [t, u] ∈
      perhaps Heading.spellings heading' * jump label) :
    heading = heading' ∧ [t, u] ∈ jump label := by
  cases heading with
  | none =>
    cases heading' with
    | none =>
      rw [perhaps, one_mul] at word
      exact ⟨rfl, word⟩
    | some heading' =>
      obtain ⟨w, first, r, -, same⟩ := Language.mem_mul.1 word
      obtain ⟨t', w, rfl, -, other⟩ := heading_opening first
      obtain ⟨rfl, -⟩ := List.cons.inj same
      rw [then_word.2] at other
      exact absurd other (by decide)
  | some heading =>
    have spelled := (written_heading listed heading).word
    cases heading' with
    | none =>
      obtain ⟨t', r, opening, bare, other⟩ := heading_opening spelled
      rw [perhaps, one_mul] at word
      obtain ⟨before, last, same, allowed, -⟩ := mem_jump word
      rw [perhapsTokens, opening] at same
      cases before with
      | nil => exact absurd (List.cons.inj same).2 (by simp)
      | cons first before =>
        obtain ⟨rfl, -⟩ := List.cons.inj same
        rcases allowed t' List.mem_cons_self with operator | ⟨-, then_word'⟩
        · rw [bare] at operator
          exact absurd operator (by decide)
        · rw [other] at then_word'
          exact absurd then_word' (by decide)
    | some heading' =>
      obtain ⟨rfl, ends⟩ := definite_heading.cancel spelled word
      exact ⟨rfl, ends⟩

/-- The source of a condition is settled in front of `THEN` and a label. -/
theorem settled_condition {q q' : Condition} (writable : Writable q.spellings)
    (then_word : t.kind = .word ∧ sameWord t.value "THEN" = true)
    (word : q.tokens spell ++ [t, u] ∈ q'.spellings * jump label) :
    q = q' ∧ [t, u] ∈ jump label := by
  induction q generalizing q' with
  | not inner ih =>
    have keyword := keyword_eq word
    cases q' with
    | not inner' =>
      rw [Condition.spellings, mul_assoc] at word
      obtain ⟨rfl, ends⟩ := ih writable.of_mul.2 (mem_of_key word)
      exact ⟨rfl, ends⟩
    | _ => exact absurd keyword (of_decide_eq_false rfl)
  | adjacent =>
    have keyword := keyword_eq word
    cases q' with
    | adjacent =>
      rw [Condition.spellings] at word
      exact ⟨rfl, mem_of_key word⟩
    | _ => exact absurd keyword (of_decide_eq_false rfl)
  | blocked heading =>
    have keyword := keyword_eq word
    cases q' with
    | blocked heading' =>
      rw [Condition.spellings, mul_assoc] at word
      have spelled := (written_heading listed heading).word
      obtain ⟨rfl, ends⟩ := definite_heading.cancel spelled (mem_of_key word)
      exact ⟨rfl, ends⟩
    | _ => exact absurd keyword (of_decide_eq_false rfl)
  | aligned heading =>
    have keyword := keyword_eq word
    cases q' with
    | aligned heading' =>
      rw [Condition.spellings, mul_assoc] at word
      obtain ⟨rfl, ends⟩ := settled_aligned listed then_word (mem_of_key word)
      exact ⟨rfl, ends⟩
    | _ => exact absurd keyword (of_decide_eq_false rfl)
  | peep radius =>
    have keyword := keyword_eq word
    cases q' with
    | peep radius' =>
      rw [Condition.spellings, mul_assoc] at word
      obtain ⟨rfl, ends⟩ := definite_numeral.cancel (written_numeral radius).word (mem_of_key word)
      exact ⟨rfl, ends⟩
    | _ => exact absurd keyword (of_decide_eq_false rfl)
  | present tile count =>
    have keyword := keyword_eq word
    cases q' with
    | present tile' count' =>
      rw [Condition.spellings, Condition.tokens, mul_assoc, mul_assoc, List.cons_append,
        List.append_assoc] at word
      obtain ⟨rfl, rfl, ends⟩ := settled_present (written_tile writable.of_mul.2.of_mul.1).word
        ⟨rfl, numeral?_ofNumeral count⟩ (mem_of_key word)
      exact ⟨rfl, ends⟩
    | _ => exact absurd keyword (of_decide_eq_false rfl)
  | testing counter comparison value =>
    have keyword := keyword_eq word
    cases q' with
    | testing counter' comparison' value' =>
      rw [Condition.spellings, mul_assoc, add_mul, mul_assoc, mul_assoc] at word
      rcases (Language.mem_add _ _ _).1 word with word | word
      · have named : [ofWord counter] ∈ name counter := (written_counter writable.of_mul.1).word
        obtain ⟨rfl, compared⟩ := definite_name.cancel named (mem_of_key word)
        obtain ⟨rfl, bound⟩ :=
          definite_comparison.cancel (written_comparison comparison).word compared
        obtain ⟨rfl, ends⟩ := definite_numeral.cancel (written_numeral value).word bound
        exact ⟨rfl, ends⟩
      · obtain ⟨⟨-, apart, -⟩, -⟩ := cons_mem_singleWord_mul.1 word
        exact absurd (apart "TESTING" (by decide)) (by decide)
    | _ => exact absurd keyword (of_decide_eq_false rfl)

/-- The source of a command is a spelling of no other, unless it is a change. -/
theorem settled_source {c c' : Command} (writable : Writable c.spellings)
    (no_change : c.keyword ≠ "CHANGE") (word : c.tokens spell ∈ c'.spellings) : c = c' := by
  have same := (cons_mem_singleWord_mul.1 word).1.2
  rw [value_ofWord] at same
  have keyword : c'.keyword = c.keyword :=
    keywords_apart _ c.keyword_mem _ c'.keyword_mem same
  have behind := mem_of_key word
  by_cases jump : c.keyword = "IF"
  · cases c with
    | jumpIf q label =>
      cases c' with
      | jumpIf q' label' =>
        have then_word : (ofWord "THEN").kind = .word ∧
            sameWord (ofWord "THEN").value "THEN" = true := ⟨rfl, sameWord_refl "THEN"⟩
        obtain ⟨rfl, ends⟩ := settled_condition listed writable.of_mul.2.of_mul.1 then_word behind
        rw [settled_jump (written_jump writable.of_mul.2.of_mul.2).word ends]
      | _ => exact absurd keyword (of_decide_eq_false rfl)
    | _ => exact absurd jump (of_decide_eq_false rfl)
  · exact settled_command keyword (written_operands listed writable.of_mul.2).word behind jump
      no_change

end Source

end Jump

end ActorScript
