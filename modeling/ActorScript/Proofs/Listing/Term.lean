import ActorScript.Listing.Form
import ActorScript.Proofs.Token.RoundTrip
import Mathlib.Tactic.SplitIfs

/-!
Written-out forms are unambiguous. A form is taken apart into a term, of words, strings, fields with
keys, and items in brackets. What is written for a term tells where it ends, whatever may follow it,
and it is written for no other term: a word ends where no letter or digit follows, a string at its
closing quote, and brackets where they close.
-/
namespace ActorScript

namespace Form

section Strings

def hexValue (digits : List Char) : Nat :=
  digits.foldl (fun n d => 16 * n + (d.toNat - if d.isDigit then 48 else 87)) 0

/-- Reads one character of a string, unless the string ends here, and gives what comes behind it. -/
def unescape : List Char → Option (Char × List Char)
  | '"' :: _ => none
  | '\\' :: '"' :: rest => some ('"', rest)
  | '\\' :: '\\' :: rest => some ('\\', rest)
  | '\\' :: 'n' :: rest => some ('\n', rest)
  | '\\' :: 'r' :: rest => some ('\r', rest)
  | '\\' :: 't' :: rest => some ('\t', rest)
  | '\\' :: '0' :: rest => some ('\x00', rest)
  | '\\' :: 'u' :: '\x7b' :: rest =>
    some (Char.ofNat (hexValue (rest.takeWhile (· ≠ '\x7d'))), (rest.dropWhile (· ≠ '\x7d')).tail)
  | c :: rest => some (c, rest)
  | [] => none

theorem hexDigit_spec : ∀ n < 16, hexDigit n ≠ '\x7d' ∧
    ((hexDigit n).toNat - if (hexDigit n).isDigit then 48 else 87) = n := by
  decide

theorem hexValue_hexDigits (n : Nat) : hexValue (hexDigits n) = n := by
  fun_induction hexDigits n with
  | case1 n small => simpa [hexValue] using (hexDigit_spec n small).2
  | case2 n large ih =>
    have last := (hexDigit_spec (n % 16) (Nat.mod_lt n (by decide))).2
    rw [hexValue] at ih
    rw [hexValue, List.foldl_append, ih, List.foldl_cons, List.foldl_nil, last]
    omega

theorem hexDigits_ne_brace (n : Nat) : ∀ d ∈ hexDigits n, d ≠ '\x7d' := by
  fun_induction hexDigits n with
  | case1 n small => simpa using (hexDigit_spec n small).1
  | case2 n large ih =>
    refine List.forall_mem_append.2 ⟨ih, ?_⟩
    simpa using (hexDigit_spec (n % 16) (Nat.mod_lt n (by decide))).1

theorem unescape_codeEscape (c : Char) (r : List Char) :
    unescape (codeEscape c ++ r) = some (c, r) := by
  have inside : ∀ d ∈ hexDigits c.toNat, decide (d ≠ '\x7d') = true := by
    simpa using hexDigits_ne_brace c.toNat
  have opened : codeEscape c ++ r =
      '\\' :: 'u' :: '\x7b' :: (hexDigits c.toNat ++ '\x7d' :: r) := by
    simp [codeEscape]
  have digits : (hexDigits c.toNat ++ '\x7d' :: r).takeWhile (· ≠ '\x7d') = hexDigits c.toNat :=
    takeWhile_append_stop inside (by simp)
  have behind : (hexDigits c.toNat ++ '\x7d' :: r).dropWhile (· ≠ '\x7d') = '\x7d' :: r := by
    rw [List.dropWhile_append_of_pos inside]
    rfl
  rw [opened, unescape, digits, behind, hexValue_hexDigits, Char.ofNat_toNat, List.tail_cons]

theorem unescape_character (c : Char) (r : List Char) :
    unescape (character c ++ r) = some (c, r) := by
  unfold character
  split_ifs with quote slash feed back tab zero
  · subst quote; rfl
  · subst slash; rfl
  · subst feed; rfl
  · subst back; rfl
  · subst tab; rfl
  · subst zero; rfl
  · rw [List.singleton_append, unescape] <;> simp [quote, slash]
  · exact unescape_codeEscape c r

theorem characters_settled {cs ds r r' : List Char}
    (same : cs.flatMap character ++ '"' :: r = ds.flatMap character ++ '"' :: r') :
    cs = ds ∧ r = r' := by
  induction cs generalizing ds with
  | nil =>
    cases ds with
    | nil => exact ⟨rfl, (List.cons.inj same).2⟩
    | cons d ds =>
      rw [List.flatMap_cons, List.append_assoc] at same
      have read := unescape_character d (ds.flatMap character ++ '"' :: r')
      rw [← same] at read
      cases read
  | cons c cs ih =>
    have read := unescape_character c (cs.flatMap character ++ '"' :: r)
    rw [← List.append_assoc, ← List.flatMap_cons, same] at read
    cases ds with
    | nil => cases read
    | cons d ds =>
      rw [List.flatMap_cons, List.append_assoc, unescape_character] at read
      obtain ⟨rfl, rest⟩ := Prod.mk.inj (Option.some.inj read)
      obtain ⟨rfl, rfl⟩ := ih rest.symm
      exact ⟨rfl, rfl⟩

theorem string_settled {a b : String} {r r' : List Char}
    (same : (string a).toList ++ r = (string b).toList ++ r') : a = b ∧ r = r' := by
  simp only [string, String.toList_ofList, List.cons_append, List.cons.injEq, List.append_assoc,
    List.nil_append, true_and] at same
  obtain ⟨text, rest⟩ := characters_settled same
  exact ⟨String.toList_inj.1 text, rest⟩

end Strings

end Form

/-- Brackets around items, as lists, wrapped forms and records have them. -/
inductive Bracket where
  | square
  | round
  | curly
  deriving DecidableEq

namespace Bracket

def opening : Bracket → String
  | .square => "["
  | .round => "("
  | .curly => " \x7b "

def closing : Bracket → String
  | .square => "]"
  | .round => ")"
  | .curly => " \x7d"

end Bracket

/-- What a form is put together of. -/
inductive Term where
  | word (text : String)
  | quoted (text : String)
  | field (key : String) (value : Term)
  | group (name : String) (bracket : Bracket) (items : List Term)

namespace Term

mutual

def form : Term → String
  | .word text => text
  | .quoted text => Form.string text
  | .field key value => key ++ ": " ++ value.form
  | .group name bracket items =>
    name ++ bracket.opening ++ String.intercalate ", " (forms items) ++ bracket.closing

def forms : List Term → List String
  | [] => []
  | item :: items => item.form :: forms items

end

theorem forms_eq_map (items : List Term) : forms items = items.map form := by
  induction items with
  | nil => rfl
  | cons item items ih => rw [forms, ih, List.map_cons]

/-- Letters, digits and the minus sign make up names and numbers. -/
def isNameChar (c : Char) : Bool := c.isAlphanum || c == '-'

def IsName (text : String) : Prop := ∀ c ∈ text.toList, isNameChar c = true

-- Named, since characters are finitely many and another instance would go through all of them.
instance (text : String) : Decidable (IsName text) :=
  List.decidableBAll (fun c => isNameChar c = true) text.toList

/-- Words, keys and names have only such characters, and a word has some. -/
inductive IsProper : Term → Prop where
  | word {text} (name : IsName text) (some_text : text ≠ "") : IsProper (.word text)
  | quoted {text} : IsProper (.quoted text)
  | field {key value} (name : IsName key) (proper : IsProper value) : IsProper (.field key value)
  | group {name bracket items} (named : IsName name) (proper : ∀ item ∈ items, IsProper item) :
      IsProper (.group name bracket items)

/-- What can follow a form: nothing, or a sign that no form begins with. -/
def Ends (r : List Char) : Prop :=
  r = [] ∨ (∃ c tail, r = c :: tail ∧ c ∈ [',', ')', ']', '\n']) ∨ ∃ tail, r = ' ' :: '\x7d' :: tail

/-- The name that a form begins with, if any. -/
def lead : Term → List Char
  | .word text => text.toList
  | .quoted _ => []
  | .field key _ => key.toList
  | .group name _ _ => name.toList

/-- Items behind the first. -/
def later (items : List Term) : List Char :=
  items.flatMap fun item => ", ".toList ++ item.form.toList

def row : List Term → List Char
  | [] => []
  | item :: items => item.form.toList ++ later items

/-- What a form has behind its name. -/
def tail : Term → List Char
  | .word _ => []
  | .quoted text => (Form.string text).toList
  | .field _ value => ": ".toList ++ value.form.toList
  | .group _ bracket items => bracket.opening.toList ++ (row items ++ bracket.closing.toList)

theorem toList_intercalate_forms (items : List Term) :
    (String.intercalate ", " (forms items)).toList = row items := by
  rw [String.toList_intercalate, forms_eq_map, List.map_map]
  cases items with
  | nil => rfl
  | cons item items =>
    rw [row, List.map_cons]
    induction items generalizing item with
    | nil => simp [later]
    | cons other items ih =>
      rw [List.map_cons, List.intercalate_cons_cons, ih, later, later, List.flatMap_cons]
      simp

theorem toList_form (t : Term) : t.form.toList = t.lead ++ t.tail := by
  cases t with
  | word | quoted | field => simp [form, lead, tail]
  | group name bracket items =>
    rw [form, String.toList_append, String.toList_append, String.toList_append,
      toList_intercalate_forms, lead, tail]
    simp only [List.append_assoc]

variable {s t : Term} {xs ys : List Term} {r r' : List Char} {c : Char}

theorem ends_cons : Ends (c :: r) ↔
    c ∈ [',', ')', ']', '\n'] ∨ c = ' ' ∧ ∃ tail, r = '\x7d' :: tail := by
  simp [Ends]

/-- What can follow the last of some items. -/
structure Closes (r : List Char) : Prop where
  ends : Ends r
  no_comma : r.head? ≠ some ','

theorem closes_closing (bracket : Bracket) (r : List Char) :
    Closes (bracket.closing.toList ++ r) := by
  cases bracket <;> exact ⟨by simp [Bracket.closing, ends_cons], by simp [Bracket.closing]⟩

theorem Closes.ends_later (closes : Closes r) (items : List Term) : Ends (later items ++ r) := by
  cases items with
  | nil => exact closes.ends
  | cons => simp [later, ends_cons]

theorem not_ends_of_isNameChar (named : isNameChar c = true) : ¬Ends (c :: r) := by
  rw [ends_cons]
  rintro (mem | ⟨rfl, -⟩)
  · revert named
    simp only [List.mem_cons, List.not_mem_nil, or_false] at mem
    rcases mem with rfl | rfl | rfl | rfl <;> decide
  · exact absurd named (by decide)

theorem Ends.stop (ends : Ends r) : ∀ c ∈ r.head?, isNameChar c = false := by
  intro c first
  obtain ⟨tail, rfl⟩ : ∃ tail, r = c :: tail := by
    cases r with
    | nil => cases first
    | cons d tail => exact ⟨tail, by rw [Option.some.inj first]⟩
  exact Bool.eq_false_iff.2 fun named => not_ends_of_isNameChar named ends

theorem IsProper.lead (proper : t.IsProper) : ∀ c ∈ t.lead, isNameChar c = true := by
  cases proper with
  | word name => exact name
  | quoted => exact nofun
  | field name => exact name
  | group named => exact named

/-- The sign that a form has behind its name, if it has more than that. -/
def sign : Term → Option Char
  | .word _ => none
  | .quoted _ => some '"'
  | .field _ _ => some ':'
  | .group _ .square _ => some '['
  | .group _ .round _ => some '('
  | .group _ .curly _ => some ' '

theorem head?_tail (t : Term) : (t.tail ++ r).head? = t.sign.or r.head? := by
  rcases t with text | text | ⟨key, value⟩ | ⟨name, bracket, items⟩
  · rfl
  · simp [tail, Form.string, sign]
  · simp [tail, sign]
  · cases bracket <;> simp [tail, Bracket.opening, sign]

theorem not_ends_tail (some_sign : t.sign ≠ none) : ¬Ends (t.tail ++ r) := by
  rcases t with text | text | ⟨key, value⟩ | ⟨name, bracket, items⟩
  · exact absurd rfl some_sign
  · simp [tail, Form.string, ends_cons]
  · simp [tail, ends_cons]
  · cases bracket <;> simp [tail, Bracket.opening, ends_cons]

/-- No form begins like what can follow one. -/
theorem IsProper.not_ends (proper : t.IsProper) (r : List Char) : ¬Ends (t.form.toList ++ r) := by
  rw [toList_form, List.append_assoc]
  cases named : t.lead with
  | cons c cs => exact not_ends_of_isNameChar (proper.lead c (by simp [named]))
  | nil =>
    refine not_ends_tail fun unsigned => ?_
    cases proper with
    | word _ some_text => exact some_text (String.toList_eq_nil_iff.1 named)
    | quoted | field => cases unsigned
    | @group _ bracket => cases bracket <;> cases unsigned

theorem tail_stop (ends : Ends r) : ∀ c ∈ (t.tail ++ r).head?, isNameChar c = false := by
  intro c first
  rw [head?_tail] at first
  rcases t with text | text | ⟨key, value⟩ | ⟨name, bracket, items⟩
  · exact ends.stop c first
  · obtain rfl := Option.some.inj first
    decide
  · obtain rfl := Option.some.inj first
    decide
  · cases bracket <;> obtain rfl := Option.some.inj first <;> decide

theorem leads_alike (proper : s.IsProper) (proper' : t.IsProper) (ends : Ends r) (ends' : Ends r')
    (same : s.form.toList ++ r = t.form.toList ++ r') :
    s.lead = t.lead ∧ s.tail ++ r = t.tail ++ r' := by
  rw [toList_form, toList_form, List.append_assoc, List.append_assoc] at same
  have names := congrArg (List.takeWhile isNameChar) same
  rw [takeWhile_append_stop proper.lead (tail_stop ends),
    takeWhile_append_stop proper'.lead (tail_stop ends')] at names
  rw [names] at same
  exact ⟨names, List.append_cancel_left same⟩

theorem tail_of_unsigned (unsigned : t.sign = none) : t.tail = [] := by
  rcases t with text | text | ⟨key, value⟩ | ⟨name, bracket, items⟩
  · rfl
  · cases unsigned
  · cases unsigned
  · cases bracket <;> cases unsigned

theorem signs_alike (ends : Ends r) (ends' : Ends r') (same : s.tail ++ r = t.tail ++ r') :
    s.sign = t.sign := by
  have heads := congrArg List.head? same
  rw [head?_tail, head?_tail] at heads
  cases signed : s.sign with
  | none =>
    cases signed' : t.sign with
    | none => rfl
    | some =>
      rw [tail_of_unsigned signed, List.nil_append] at same
      exact absurd (same ▸ ends) (not_ends_tail (by simp [signed']))
  | some =>
    cases signed' : t.sign with
    | none =>
      rw [tail_of_unsigned signed', List.nil_append] at same
      exact absurd (same ▸ ends') (not_ends_tail (by simp [signed]))
    | some => simpa [signed, signed'] using heads

theorem forms_alike (proper : s.IsProper) (proper' : t.IsProper) (ends : Ends r) (ends' : Ends r')
    (same : s.form.toList ++ r = t.form.toList ++ r') :
    s.lead = t.lead ∧ s.sign = t.sign ∧ s.tail ++ r = t.tail ++ r' := by
  obtain ⟨leads, tails⟩ := leads_alike proper proper' ends ends' same
  exact ⟨leads, signs_alike ends ends' tails, tails⟩

/-- Whatever may follow it, the form of this term reads like that of no other. -/
def Settles (s : Term) : Prop :=
  ∀ (t : Term) (r r' : List Char), t.IsProper → Ends r → Ends r' →
    s.form.toList ++ r = t.form.toList ++ r' → s = t ∧ r = r'

theorem later_settled (settles : ∀ x ∈ xs, x.Settles) (proper : ∀ y ∈ ys, y.IsProper)
    (closes : Closes r) (closes' : Closes r') (same : later xs ++ r = later ys ++ r') :
    xs = ys ∧ r = r' := by
  have goes_on {r r' : List Char} (closes : Closes r) (x : Term) (xs : List Term) :
      r ≠ later (x :: xs) ++ r' := by
    rintro rfl
    exact closes.no_comma (by simp [later])
  induction xs generalizing ys with
  | nil =>
    cases ys with
    | nil => exact ⟨rfl, same⟩
    | cons y ys => exact absurd same (goes_on closes y ys)
  | cons x xs ih =>
    cases ys with
    | nil => exact absurd same.symm (goes_on closes' x xs)
    | cons y ys =>
      obtain ⟨first, others⟩ := List.forall_mem_cons.1 settles
      obtain ⟨proper_first, proper_others⟩ := List.forall_mem_cons.1 proper
      simp only [later, List.flatMap_cons, List.append_assoc, List.append_cancel_left_eq] at same
      obtain ⟨rfl, rest⟩ := first y _ _ proper_first (closes.ends_later xs)
        (closes'.ends_later ys) same
      obtain ⟨rfl, rfl⟩ := ih others proper_others rest
      exact ⟨rfl, rfl⟩

theorem row_settled (proper : ∀ x ∈ xs, x.IsProper) (settles : ∀ x ∈ xs, x.Settles)
    (proper' : ∀ y ∈ ys, y.IsProper) (closes : Closes r) (closes' : Closes r')
    (same : row xs ++ r = row ys ++ r') : xs = ys ∧ r = r' := by
  cases xs with
  | nil =>
    cases ys with
    | nil => exact ⟨rfl, same⟩
    | cons y ys =>
      rw [row, row, List.append_assoc, List.nil_append] at same
      exact absurd (same ▸ closes.ends) ((proper' y List.mem_cons_self).not_ends _)
  | cons x xs =>
    cases ys with
    | nil =>
      rw [row, row, List.append_assoc, List.nil_append] at same
      exact absurd (same ▸ closes'.ends) ((proper x List.mem_cons_self).not_ends _)
    | cons y ys =>
      obtain ⟨first, others⟩ := List.forall_mem_cons.1 settles
      obtain ⟨proper_first, proper_others⟩ := List.forall_mem_cons.1 proper'
      rw [row, row, List.append_assoc, List.append_assoc] at same
      obtain ⟨rfl, rest⟩ := first y _ _ proper_first (closes.ends_later xs)
        (closes'.ends_later ys) same
      obtain ⟨rfl, rfl⟩ := later_settled others proper_others closes closes' rest
      exact ⟨rfl, rfl⟩

theorem IsProper.settles (proper : s.IsProper) : s.Settles := by
  induction proper with
  | @word text name some_text =>
    intro t r r' proper' ends ends' same
    obtain ⟨leads, signs, tails⟩ := forms_alike (.word name some_text) proper' ends ends' same
    cases proper' with
    | word => exact ⟨congrArg _ (String.toList_inj.1 leads), tails⟩
    | quoted | field => cases signs
    | @group _ bracket => cases bracket <;> cases signs
  | @quoted text =>
    intro t r r' proper' ends ends' same
    obtain ⟨-, signs, tails⟩ := forms_alike .quoted proper' ends ends' same
    cases proper' with
    | quoted =>
      obtain ⟨rfl, rfl⟩ := Form.string_settled tails
      exact ⟨rfl, rfl⟩
    | word | field => cases signs
    | @group _ bracket => cases bracket <;> cases signs
  | @field key value name proper ih =>
    intro t r r' proper' ends ends' same
    obtain ⟨leads, signs, tails⟩ := forms_alike (.field name proper) proper' ends ends' same
    cases proper' with
    | field _ proper' =>
      obtain rfl := String.toList_inj.1 leads
      rw [tail, tail, List.append_assoc, List.append_assoc] at tails
      obtain ⟨rfl, rfl⟩ := ih _ r r' proper' ends ends' (List.append_cancel_left tails)
      exact ⟨rfl, rfl⟩
    | word | quoted => cases signs
    | @group _ bracket => cases bracket <;> cases signs
  | @group name bracket items named proper ih =>
    intro t r r' proper' ends ends' same
    obtain ⟨leads, signs, tails⟩ := forms_alike (.group named proper) proper' ends ends' same
    cases proper' with
    | word | quoted | field => cases bracket <;> cases signs
    | @group _ bracket' _ _ proper' =>
      obtain rfl := String.toList_inj.1 leads
      obtain rfl : bracket = bracket' := by
        cases bracket <;> cases bracket' <;> first | rfl | cases signs
      simp only [tail, List.append_assoc, List.append_cancel_left_eq] at tails
      obtain ⟨rfl, rest⟩ := row_settled proper ih proper' (closes_closing bracket r)
        (closes_closing bracket r') tails
      exact ⟨rfl, List.append_cancel_left rest⟩

end Term
end ActorScript
