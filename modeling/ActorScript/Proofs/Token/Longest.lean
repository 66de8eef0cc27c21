import ActorScript.Proofs.Token.Lexeme
import Mathlib.Data.List.Infix

/-!
Words and numbers are as long as can be: no stretch of a text that is a word or a number has the
span of a token as a part of it. To the right this is what an item is; to the left it is that, where
a word begins, no word ends, and where a number begins, no number.
-/
namespace ActorScript

section Runs

/-- A stretch of characters of one sort, the first of which is even of another. -/
def IsRun (first inside : Char → Bool) (cs : List Char) : Prop :=
  (∃ c ∈ cs.head?, first c = true) ∧ ∀ c ∈ cs, inside c = true

def IsWord : List Char → Prop := IsRun isLetter isWordChar

def IsNumber : List Char → Prop := IsRun Char.isDigit Char.isDigit

/-- `span` has a shape that no longer stretch has which it is part of, in a text where it stands
between `before` and `after`. -/
def Longest (shape : List Char → Prop) (before span after : List Char) : Prop :=
  shape span ∧ ∀ left right, left <:+ before → right <+: after → shape (left ++ span ++ right) →
    left = [] ∧ right = []

/-- No run that ends `before` could go on with the first character of `after`. -/
def Parted (first inside : Char → Bool) (before after : List Char) : Prop :=
  ∀ d ∈ after.head?, inside d = true → ∀ run, run <:+ before → ¬ IsRun first inside run

variable {first inside : Char → Bool} {before span after cs ds : List Char}

theorem IsRun.left (h : IsRun first inside (cs ++ ds)) (nonempty : cs ≠ []) :
    IsRun first inside cs := by
  obtain ⟨⟨c, head, letter⟩, all⟩ := h
  obtain ⟨a, cs, rfl⟩ := List.exists_cons_of_ne_nil nonempty
  exact ⟨⟨c, head, letter⟩, fun d mem => all d (List.mem_append_left _ mem)⟩

theorem longest_of_parted (run : IsRun first inside span)
    (parted : Parted first inside before (span ++ after))
    (stop : ∀ d ∈ after.head?, inside d = false) :
    Longest (IsRun first inside) before span after := by
  refine ⟨run, fun left right behind ahead stretch => ⟨?_, ?_⟩⟩
  · by_contra nonempty
    obtain ⟨⟨c, head, -⟩, all⟩ := run
    have start : c ∈ (span ++ after).head? := by
      rw [Option.mem_def] at head ⊢
      rw [List.head?_append, head, Option.some_or]
    rw [List.append_assoc] at stretch
    exact parted c start (all c (List.mem_of_mem_head? head)) left behind (stretch.left nonempty)
  · cases right with
    | nil => rfl
    | cons d right =>
      obtain ⟨rest, rfl⟩ := ahead
      have going_on : inside d = true := stretch.2 d (by simp)
      have ended : inside d = false := stop d rfl
      simp [going_on] at ended

theorem parted_of_stop {b : Char} (stop : inside b = false) :
    Parted first inside (before ++ [b]) after := by
  intro d _ _ run suffix h
  rcases List.suffix_concat_iff.1 suffix with rfl | ⟨t, rfl, -⟩
  · simp [IsRun] at h
  · have := h.2 b (by simp)
    simp [stop] at this

theorem parted_of_follow (stop : ∀ d ∈ after.head?, inside d = false) :
    Parted first inside before after := by
  intro d head going_on
  simp [stop d head] at going_on

/-- Where a run could not begin before `cs`, it cannot reach into `cs` if `cs` has nothing to begin
it with. -/
theorem Parted.append (parted : Parted first inside before (cs ++ after)) (nonempty : cs ≠ [])
    (all : ∀ c ∈ cs, inside c = true ∧ first c = false) :
    Parted first inside (before ++ cs) after := by
  intro d _ _ run suffix h
  have no_start (run : List Char) (part : run <:+ cs) : ¬ IsRun first inside run := by
    rintro ⟨⟨c, head, letter⟩, -⟩
    have := (all c (part.subset (List.mem_of_mem_head? head))).2
    simp [letter] at this
  rcases List.suffix_or_suffix_of_suffix suffix (List.suffix_append before cs) with part | ⟨t, rfl⟩
  · exact no_start run part h
  · by_cases empty : t = []
    · exact no_start _ (by simp [empty]) h
    · obtain ⟨c, cs, rfl⟩ := List.exists_cons_of_ne_nil nonempty
      obtain ⟨u, whole⟩ := suffix
      have earlier : u ++ t = before := by
        rw [← List.append_assoc] at whole
        exact List.append_cancel_right whole
      exact parted c rfl (all c List.mem_cons_self).1 t ⟨u, earlier⟩ (h.left empty)

end Runs

section Fresh

variable {before span after cs value : List Char} {kind : Token.Kind}

/-- No word and no number that ends `before` could go on behind it. -/
structure Fresh (before after : List Char) : Prop where
  word : Parted isLetter isWordChar before after
  number : Parted Char.isDigit Char.isDigit before after

theorem isWordChar_of_isDigit {c : Char} (h : c.isDigit = true) : isWordChar c = true := by
  simp [isWordChar, Char.isAlphanum, h]

theorem isWordChar_of_isLetter {c : Char} (h : isLetter c = true) : isWordChar c = true := by
  simp only [isLetter, isWordChar, Char.isAlphanum, Bool.or_eq_true] at h ⊢
  tauto

theorem isDigit_of_not_isWordChar {c : Char} (h : isWordChar c = false) : c.isDigit = false := by
  rw [Bool.eq_false_iff]
  intro digit
  simp [isWordChar_of_isDigit digit] at h

theorem isLetter_of_isDigit {c : Char} (h : c.isDigit = true) : isLetter c = false := by
  rw [Bool.eq_false_iff]
  intro letter
  simp [isDigit_of_isLetter letter] at h

theorem fresh_nil (after : List Char) : Fresh [] after := by
  constructor <;> rintro d - - run suffix ⟨⟨c, head, -⟩, -⟩ <;>
    simp [List.suffix_nil.1 suffix] at head

theorem fresh_of_stop {b : Char} (stop : isWordChar b = false) : Fresh (before ++ [b]) after :=
  ⟨parted_of_stop stop, parted_of_stop (isDigit_of_not_isWordChar stop)⟩

theorem fresh_of_follow (stop : ∀ d ∈ after.head?, isWordChar d = false) : Fresh before after :=
  ⟨parted_of_follow stop, parted_of_follow fun d head => isDigit_of_not_isWordChar (stop d head)⟩

theorem isWordChar_of_isBlank {c : Char} (h : isBlank c = true) : isWordChar c = false := by
  rcases isBlank_iff.1 h with rfl | rfl | rfl <;> rfl

theorem Fresh.gap {gap : List Char} (fresh : Fresh before (gap ++ after))
    (blank : ∀ c ∈ gap, isBlank c = true) : Fresh (before ++ gap) after := by
  cases gap using List.reverseRecOn with
  | nil => simpa using fresh
  | append_singleton gap b =>
    rw [← List.append_assoc]
    exact fresh_of_stop (isWordChar_of_isBlank (blank b (by simp)))

theorem Fresh.lexeme (fresh : Fresh before (span ++ after)) (h : Lexeme span after kind value) :
    Fresh (before ++ span) after := by
  cases h with
  | newline => exact fresh_of_stop rfl
  | comment _ stop => exact fresh_of_follow fun d head => stop d head ▸ rfl
  | @quoted written _ _ _ =>
    rw [← List.cons_append, ← List.append_assoc]
    exact fresh_of_stop rfl
  | @angleEquals c _ _ =>
    rw [show before ++ [c, '='] = (before ++ [c]) ++ ['='] by simp]
    exact fresh_of_stop rfl
  | angle angle => rcases angle with rfl | rfl <;> exact fresh_of_stop rfl
  | sign sign => rcases sign with rfl | rfl <;> exact fresh_of_stop rfl
  | comma => exact fresh_of_stop rfl
  | number digits _ stop =>
    exact ⟨fresh.word.append (by simp) fun d mem =>
        ⟨isWordChar_of_isDigit (digits d mem), isLetter_of_isDigit (digits d mem)⟩,
      parted_of_follow stop⟩
  | word _ _ stop => exact fresh_of_follow stop

end Fresh

end ActorScript
