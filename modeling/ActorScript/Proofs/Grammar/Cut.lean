import ActorScript.Proofs.Grammar.Acceptance
import ActorScript.Proofs.Match.Starving

/-!
Commands that end too early. The tokens of a command without its last ones starve its rule, which
then asks for a token and blames none; only a jump can hide that it ended too early. A heading takes
its tokens in one way, a tile begins wherever a word does, and all else goes token by token.
-/
namespace ActorScript

open Computability

namespace Sentence

/-- A word of the language can stop anywhere. -/
def Stoppable (l : Language Token) : Prop := ∀ u v, u ++ v ∈ l → u ∈ l

theorem stoppable_one : Stoppable 1 := by
  intro u v word
  have nothing : u ++ v = [] := word
  exact (List.append_eq_nil_iff.1 nothing).1

theorem stoppable_maybe_mul (p : Token → Prop) {l : Language Token} (stoppable : Stoppable l) :
    Stoppable (maybe (singleWord p) * l) := by
  intro u v word
  rw [maybe, add_mul, one_mul] at word ⊢
  rcases (Language.mem_add _ _ _).1 word with lead | word
  · cases u with
    | nil =>
      obtain ⟨t, r, -, word, -⟩ := mem_singleWord_mul.1 lead
      exact .inr (stoppable [] r word)
    | cons t u =>
      obtain ⟨has, word⟩ := cons_mem_singleWord_mul.1 lead
      exact .inl (cons_mem_singleWord_mul.2 ⟨has, stoppable u v word⟩)
  · exact .inr (stoppable u v word)

theorem stoppable_maybe (p : Token → Prop) : Stoppable (maybe (singleWord p)) := by
  have stoppable := stoppable_maybe_mul p stoppable_one
  rwa [mul_one] at stoppable

theorem mem_of_maybe {l : Language Token} {u v : List Token} (goes_on : v ≠ [])
    (word : u ++ v ∈ maybe l) : u ++ v ∈ l := by
  rcases (Language.mem_add _ _ _).1 word with word | nothing
  · exact word
  · have both : u ++ v = [] := nothing
    exact absurd (List.append_eq_nil_iff.1 both).2 goes_on

def jumpEnd : Language Token :=
  maybe (key "THEN") * (maybe (sign ":") * wordBut ["THEN"])

def jumping : Language Token := key "IF" * (condition * jumpEnd)

theorem begin_of_mul {l k : Language Token} {r more : List Token} (word : r ++ more ∈ l * k) :
    (∃ u v, r = u ++ v ∧ u ∈ l ∧ v ++ more ∈ k) ∨
      ∃ v, v ≠ [] ∧ r ++ v ∈ l ∧ ∃ w ∈ k, more = v ++ w := by
  obtain ⟨u, first, w, second, split⟩ := Language.mem_mul.1 word
  rcases List.append_eq_append_iff.1 split with ⟨v, rest, rfl⟩ | ⟨v, rfl, cut⟩
  · exact .inl ⟨u, v, rest, first, second⟩
  · by_cases whole : v = []
    · subst whole
      rw [List.append_nil] at first
      rw [List.nil_append] at cut
      exact .inl ⟨r, [], (List.append_nil r).symm, first, cut ▸ second⟩
    · exact .inr ⟨v, whole, first, w, second, cut⟩

theorem singleton_mem_singleWord {p : Token → Prop} {t : Token} :
    [t] ∈ singleWord p ↔ p t := by
  constructor
  · rintro ⟨u, has, same⟩
    obtain ⟨rfl, -⟩ := List.cons.inj same
    exact has
  · intro has
    exact ⟨t, has, rfl⟩

theorem cons_mem_heading {t : Token} {w : List Token} :
    t :: w ∈ heading ↔ [t] ∈ among Aim.keywords ∧ w = [] ∨ [t] ∈ turn ∧ w ∈ heading := by
  have unrolled : t :: w ∈ heading ↔ t :: w ∈ among Aim.keywords + turn * heading := by
    rw [heading, add_mul_kstar_mul]
  have turned : t :: w ∈ turn * heading ↔ [t] ∈ turn ∧ w ∈ heading := by
    unfold turn among
    rw [cons_mem_singleWord_mul, singleton_mem_singleWord]
  rw [unrolled, Language.mem_add, turned]
  refine or_congr_left ?_
  constructor
  · rintro ⟨u, aimed, same⟩
    obtain ⟨rfl, rfl⟩ := List.cons.inj same
    exact ⟨⟨t, aimed, rfl⟩, rfl⟩
  · rintro ⟨aimed, rfl⟩
    exact aimed

theorem nil_notMem_tile : [] ∉ tile := by
  intro word
  obtain ⟨colored, -, thing, ⟨t, -, rfl⟩, nothing⟩ := Language.mem_mul.1 word
  exact absurd (List.append_eq_nil_iff.1 nothing).2 (List.cons_ne_nil t [])

theorem word_mem_tile {w : List Token} (thing : w ∈ word) : w ∈ tile :=
  Language.append_mem_mul (nil_mem_maybe (among Color.keywords)) thing

theorem tile_begin {u v : List Token} (some_begun : u ≠ []) (shown : u ++ v ∈ tile) : u ∈ tile := by
  rw [tile, maybe, add_mul, one_mul] at shown
  obtain ⟨t, u, rfl⟩ := List.exists_cons_of_ne_nil some_begun
  rcases (Language.mem_add _ _ _).1 shown with colored | ⟨s, kind, same⟩
  · obtain ⟨⟨kind, color⟩, s, thing, rest⟩ := cons_mem_singleWord_mul.1 colored
    cases u with
    | nil => exact word_mem_tile ⟨t, kind, rfl⟩
    | cons s' u =>
      obtain ⟨rfl, nothing⟩ := List.cons.inj rest
      obtain ⟨rfl, -⟩ := List.append_eq_nil_iff.1 nothing
      have colored : [t] ∈ maybe (among Color.keywords) := .inl ⟨t, ⟨kind, color⟩, rfl⟩
      have named : [s'] ∈ word := ⟨s', thing, rfl⟩
      exact Language.append_mem_mul colored named
  · obtain ⟨rfl, nothing⟩ := List.cons.inj same
    obtain ⟨rfl, -⟩ := List.append_eq_nil_iff.1 nothing
    exact word_mem_tile ⟨t, kind, rfl⟩

theorem singleton_of_tile {w : List Token} (word : w ∈ tile) (lone : w ∉ tile * tile) :
    ∃ t, w = [t] := by
  obtain ⟨t, w, rfl⟩ := List.exists_cons_of_ne_nil (ne_of_mem_of_not_mem word nil_notMem_tile)
  rw [tile, maybe, add_mul, one_mul] at word
  rcases (Language.mem_add _ _ _).1 word with colored | ⟨s, -, same⟩
  · obtain ⟨⟨kind, -⟩, thing⟩ := cons_mem_singleWord_mul.1 colored
    have color : [t] ∈ tile := word_mem_tile ⟨t, kind, rfl⟩
    exact absurd (Language.append_mem_mul color (word_mem_tile thing)) lone
  · exact ⟨s, same⟩

end Sentence

namespace Grammar

open Rule Phrase

variable {depth : Nat} {c d : Candidate Token Node} {m r : List Token} {t : Token}

theorem behind_next (lexical : ∀ t ∈ c.tokens, t.IsLexical) (next : c.rest = t :: r)
    (item : Option (Token → Node)) :
    t.IsLexical ∧ (c.skip item t).rest = r ∧ (∀ u ∈ (c.skip item t).tokens, u.IsLexical) ∧
      (c.skip item t).rest.length + 1 = c.rest.length := by
  have taken := Candidate.takes_skip next item
  have fewer := taken.length_rest
  rw [List.length_singleton] at fewer
  refine ⟨lexical t (Candidate.mem_tokens_of_rest next), taken.rest_eq next, ?_, by omega⟩
  rwa [taken.tokens]

section Heading

theorem advance_heading_of_ended (some_depth : 0 < depth) (ended : c.rest = []) :
    advance (book.enter depth) heading [c] = .ok [] := by
  obtain ⟨depth, rfl⟩ := Nat.exists_eq_succ_of_ne_zero some_depth.ne'
  rw [heading, advance, Rulebook.enter]
  exact advanceEach_of_closed headings_open (by simp [ended])

theorem advance_heading_of_turn (follows : c.rest = t :: r)
    (turning : t.isOneOf Turn.keywords = true) :
    advance (book.enter (depth + 1)) heading [c] = advance (book.enter depth) turned [c] := by
  rw [heading, advance, Rulebook.enter]
  exact advanceEach_of_exclusive headings_open
    (by simpa using fun t => Token.isOneOf_apart turns_apart) (by simp)
    (.build (.sequence .terminal)) follows turning

theorem advance_heading_of_aim (follows : c.rest = t :: r)
    (aimed : t.isOneOf Aim.keywords = true) :
    advance (book.enter (depth + 1)) heading [c] = advance (book.enter depth) aimOnly [c] := by
  rw [heading, advance, Rulebook.enter]
  exact advanceEach_of_exclusive headings_open
    (by simpa using fun t => Token.isOneOf_apart turns_apart) (by simp)
    (.build .terminal) follows aimed

theorem heading_starves (lexical : ∀ t ∈ c.tokens, t.IsLexical) (enough : c.rest.length < depth)
    (some_left : c.rest ≠ []) (goes_on : m ≠ []) (word : c.rest ++ m ∈ Sentence.heading) :
    advance (book.enter depth) heading [c] = .error .exhausted := by
  induction depth generalizing c with
  | zero => exact absurd enough (Nat.not_lt_zero _)
  | succ depth ih =>
    obtain ⟨t, r, follows⟩ := List.exists_cons_of_ne_nil some_left
    obtain ⟨lexical_t, behind, lexical_behind, fewer⟩ := behind_next lexical follows (some .token)
    rw [follows, List.cons_append, Sentence.cons_mem_heading] at word
    rcases word with ⟨-, nothing⟩ | ⟨turning, word⟩
    · exact absurd (List.append_eq_nil_iff.1 nothing).2 goes_on
    have shown := (Token.isOneOf_names turn_names lexical_t).2
      (Sentence.singleton_mem_singleWord.1 turning)
    rw [advance_heading_of_turn follows shown]
    apply advance_build_of_error
    rw [oneOf, advance_lead follows shown]
    by_cases nothing : r = []
    · have ended := behind.trans nothing
      rw [advanceRest_of_nil (advance_heading_of_ended (by omega) ended),
        nextTokenError_of_all_ended (by simp [ended])]
    · exact advanceRest_of_error (ih lexical_behind (by omega) (by rwa [behind]) (by rwa [behind]))

theorem heading_alone (lexical : ∀ t ∈ c.tokens, t.IsLexical) (enough : c.rest.length < depth)
    {h : List Token} (word : h ∈ Sentence.heading) (follows : c.rest = h ++ r) :
    ∃ d, advance (book.enter depth) heading [c] = .ok [d] ∧ c.Takes h d := by
  induction depth generalizing c h with
  | zero => exact absurd enough (Nat.not_lt_zero _)
  | succ depth ih =>
    cases h with
    | nil => exact absurd word Sentence.nil_notMem_heading
    | cons t h =>
      obtain ⟨lexical_t, behind, lexical_behind, fewer⟩ := behind_next lexical follows (some .token)
      have taken := Candidate.takes_skip follows (some Node.token)
      rcases Sentence.cons_mem_heading.1 word with ⟨aimed, rfl⟩ | ⟨turning, word⟩
      · have shown := (Token.isOneOf_names aim_names lexical_t).2
          (Sentence.singleton_mem_singleWord.1 aimed)
        rw [advance_heading_of_aim follows shown]
        exact ⟨_, advance_build_eq_ok.2 ⟨_, advance_terminal_of_rest follows shown, rfl⟩,
          taken.rework _⟩
      · have shown := (Token.isOneOf_names turn_names lexical_t).2
          (Sentence.singleton_mem_singleWord.1 turning)
        obtain ⟨d, read, later⟩ := ih lexical_behind (by omega) word behind
        rw [advance_heading_of_turn follows shown]
        refine ⟨_, advance_build_eq_ok.2 ⟨[d], ?_, rfl⟩, (taken.trans later).rework _⟩
        rw [oneOf, advance_lead follows shown, advanceRest_of_ok read (List.cons_ne_nil d [])]
        rfl

end Heading

section Tile

theorem advance_terminal_of_all_ended {cs : Pool Token Node} (ended : ∀ c ∈ cs, c.rest = [])
    {accepts : Token → Bool} {item : Option (Token → Node)} :
    advance (book.enter depth) (.terminal accepts item) cs = .ok [] := by
  rw [advance, List.filterMap_eq_nil_iff.2 fun c mem => Candidate.take?_eq_none ?_]
  simp [ended c mem]

theorem tile_starves {cs : Pool Token Node} (some_left : cs ≠ [])
    (ended : ∀ c ∈ cs, c.rest = []) :
    advance (book.enter depth) tile cs = .error .exhausted := by
  apply advance_build_of_error
  have colored : advance (book.enter depth) (.optional colorWord) cs = .ok cs := by
    have no_color : advance (book.enter depth) colorWord cs = .ok [] :=
      advance_build_eq_ok.2 ⟨[], advance_terminal_of_all_ended ended, rfl⟩
    rw [Rule.optional, advance, advanceEach, no_color, advanceEach, advance, advanceEach]
    show Except.ok ([] ++ (cs ++ [])) = _
    rw [List.append_nil, List.nil_append]
  rw [advance, advanceFirst, colored]
  show (if cs.isEmpty then _ else advanceRest (book.enter depth) [word] cs) = _
  rw [if_neg (by simpa using some_left), word,
    advanceRest_of_nil (advance_terminal_of_all_ended ended), nextTokenError_of_all_ended ended]

theorem tile_takes_last (depth : Nat) (lexical : ∀ t ∈ c.tokens, t.IsLexical) (last : c.rest = [t])
    (shown : [t] ∈ Sentence.tile) :
    ∃ outs, advance (book.enter depth) tile [c] = .ok outs ∧ outs ≠ [] ∧
      ∀ d ∈ outs, d.rest = [] := by
  obtain ⟨e, leads, -⟩ := leads_of_scans scans_tile lexical (Nat.le_refl _) (last ▸ shown)
  obtain ⟨outs, read⟩ := forgives_tile [c] c List.mem_cons_self e leads
  have found := (advance_complete (book.enter_complete depth) tile).of_singleton read leads
  refine ⟨outs, read, List.ne_nil_of_mem found, fun d mem => ?_⟩
  have derived := (advance_sound (book.enter_sound depth) tile).of_singleton read mem
  obtain ⟨w, word, taken⟩ := scans_tile.sound lexical (Nat.le_refl _) derived
  have all := taken.rest
  rw [last] at all
  cases w with
  | nil => exact absurd word Sentence.nil_notMem_tile
  | cons u w =>
    obtain ⟨-, nothing⟩ := List.cons.inj all
    exact (List.append_eq_nil_iff.1 nothing.symm).2

end Tile

section Parts

/-- Parts read from a lone candidate ask for a token where its tokens begin a word of the language
and are none. -/
def Starves (parts : List Phrase) (l : Language Token) : Prop :=
  ∀ {depth : Nat} {c : Candidate Token Node} {more : List Token}, (∀ t ∈ c.tokens, t.IsLexical) →
    c.rest.length < depth → c.rest ∉ l → c.rest ++ more ∈ l →
      advanceRest (book.enter depth) parts [c] = .error .exhausted

variable {accepts : Token → Bool} {item : Option (Token → Node)} {p : Token → Prop}
  {parts : List Phrase} {l : Language Token}

theorem starves_stoppable (stoppable : Sentence.Stoppable l) : Starves parts l := by
  intro depth c more _ _ unfinished word
  exact absurd (stoppable c.rest more word) unfinished

theorem starves_behind (same : ∀ t, t.IsLexical → (accepts t = true ↔ p t))
    (starves : Starves parts l) {more : List Token} (lexical : ∀ t ∈ c.tokens, t.IsLexical)
    (enough : c.rest.length < depth + 1) (rest : c.rest = t :: r)
    (unfinished : c.rest ∉ singleWord p * l) (word : c.rest ++ more ∈ singleWord p * l) :
    accepts t = true ∧
      advanceRest (book.enter depth) parts [c.skip item t] = .error .exhausted := by
  obtain ⟨lexical_t, behind, lexical_behind, fewer⟩ := behind_next lexical rest item
  rw [rest, List.cons_append] at word
  rw [rest] at unfinished
  obtain ⟨has, word⟩ := cons_mem_singleWord_mul.1 word
  have left_open : (c.skip item t).rest ∉ l := by
    rw [behind]
    exact fun whole => unfinished (cons_mem_singleWord_mul.2 ⟨has, whole⟩)
  rw [← behind] at word
  exact ⟨(same t lexical_t).2 has, starves lexical_behind (by omega) left_open word⟩

theorem starves_terminal (same : ∀ t, t.IsLexical → (accepts t = true ↔ p t))
    (later : Starves parts l) : Starves (.terminal accepts item :: parts) (singleWord p * l) := by
  intro depth c more lexical enough unfinished word
  cases rest : c.rest with
  | nil =>
    have nothing : advance (book.enter depth) (.terminal accepts item) [c] = .ok [] :=
      advance_terminal_of_all_ended (by simp [rest])
    rw [advanceRest_of_nil nothing, nextTokenError_of_all_ended (by simp [rest])]
  | cons t r =>
    obtain ⟨accepted, starved⟩ :=
      starves_behind same later lexical (Nat.lt_succ_of_lt enough) rest unfinished word
    exact (advanceRest_terminal rest accepted).trans starved

theorem sequence_starves (same : ∀ t, t.IsLexical → (accepts t = true ↔ p t))
    (starves : Starves parts l) {more : List Token} (lexical : ∀ t ∈ c.tokens, t.IsLexical)
    (enough : c.rest.length < depth + 1) (some_left : c.rest ≠ [])
    (unfinished : c.rest ∉ singleWord p * l) (word : c.rest ++ more ∈ singleWord p * l) :
    advance (book.enter depth) (.sequence (.terminal accepts item :: parts)) [c] =
      .error .exhausted := by
  obtain ⟨t, r, rest⟩ := List.exists_cons_of_ne_nil some_left
  obtain ⟨accepted, starved⟩ := starves_behind same starves lexical enough rest unfinished word
  exact (advance_lead rest accepted).trans starved

theorem starves_heading (later : Starves parts l) :
    Starves (heading :: parts) (Sentence.heading * l) := by
  intro depth c more lexical enough unfinished word
  rcases Sentence.begin_of_mul word with ⟨h, v, rest, headed, word⟩ | ⟨v, goes_on, headed, -⟩
  · obtain ⟨d, read, taken⟩ := heading_alone lexical enough headed rest
    have behind := taken.rest_eq rest
    have fewer := taken.length_rest
    rw [advanceRest_of_ok read (List.cons_ne_nil d [])]
    have left_open : d.rest ∉ l := by
      rw [behind]
      intro whole
      rw [rest] at unfinished
      exact unfinished (Language.append_mem_mul headed whole)
    rw [← behind] at word
    exact later (by rwa [taken.tokens]) (by omega) left_open word
  · by_cases nothing : c.rest = []
    · rw [advanceRest_of_nil (advance_heading_of_ended (by omega) nothing),
        nextTokenError_of_all_ended (by simp [nothing])]
    · exact advanceRest_of_error (heading_starves lexical enough nothing goes_on headed)

theorem starves_tile (stoppable : Sentence.Stoppable l) :
    Starves (tile :: parts) (Sentence.tile * l) := by
  intro depth c more _ _ unfinished word
  have nothing : c.rest = [] := by
    by_contra some_left
    rcases Sentence.begin_of_mul word with ⟨u, v, rest, shown, word⟩ | ⟨v, -, shown, w, word, -⟩
    · rw [rest] at unfinished
      exact unfinished (Language.append_mem_mul shown (stoppable v more word))
    · have whole := Language.append_mem_mul (Sentence.tile_begin some_left shown)
        (stoppable [] w word)
      rw [List.append_nil] at whole
      exact unfinished whole
  exact advanceRest_of_error (tile_starves (List.cons_ne_nil c []) (by simp [nothing]))

theorem starves_tiles : Starves [tile, tile] (Sentence.tile * Sentence.tile) := by
  intro depth c more lexical _ unfinished word
  by_cases nothing : c.rest = []
  · exact advanceRest_of_error (tile_starves (List.cons_ne_nil c []) (by simp [nothing]))
  have first : c.rest ∈ Sentence.tile := by
    rcases Sentence.begin_of_mul word with ⟨u, v, rest, thing, other⟩ | ⟨v, -, thing, -⟩
    · by_cases none_left : v = []
      · rwa [rest, none_left, List.append_nil]
      · refine absurd ?_ unfinished
        rw [rest]
        exact Language.append_mem_mul thing (Sentence.tile_begin none_left other)
    · exact Sentence.tile_begin nothing thing
  obtain ⟨t, last⟩ := Sentence.singleton_of_tile first unfinished
  obtain ⟨outs, read, some_left, ended⟩ := tile_takes_last depth lexical last (last ▸ first)
  rw [advanceRest_of_ok read some_left]
  exact advanceRest_of_error (tile_starves some_left ended)

theorem rounds_starve (depth : Nat) {rounds : Nat} {more : List Token}
    (lexical : ∀ t ∈ c.tokens, t.IsLexical) (enough : c.rest.length < rounds)
    (unfinished : c.rest ∉ (Sentence.comma * Sentence.quoted)∗)
    (word : c.rest ++ more ∈ (Sentence.comma * Sentence.quoted)∗) :
    repetitionFrom (advance (book.enter depth) (.sequence [keyword ",", quoted])) rounds [c] =
      .error .exhausted := by
  induction rounds generalizing c with
  | zero => exact absurd enough (Nat.not_lt_zero _)
  | succ rounds ih =>
    have some_left : c.rest ≠ [] :=
      fun nothing => unfinished (nothing ▸ Language.nil_mem_kstar _)
    obtain ⟨a, r, rest⟩ := List.exists_cons_of_ne_nil some_left
    rw [← Language.one_add_self_mul_kstar_eq_kstar, mul_assoc, rest] at unfinished word
    rcases (Language.mem_add _ _ _).1 word with nothing | again
    · exact absurd nothing (List.cons_ne_nil a _)
    obtain ⟨comma, later⟩ := cons_mem_singleWord_mul.1 again
    have mem : a ∈ c.tokens := Candidate.mem_tokens_of_rest rest
    have shown := (Token.isLiteral_comma (lexical a mem)).2 comma
    have taken := Candidate.takes_skip (ι := Node) rest none
    have behind := taken.rest_eq rest
    cases r with
    | nil =>
      have nothing : advance (book.enter depth) quoted [c.skip none a] = .ok [] :=
        advance_terminal_of_all_ended (by simp [behind])
      apply repetitionFrom_of_error (List.cons_ne_nil c [])
      rw [keyword, advance_lead rest shown, advanceRest_of_nil nothing,
        nextTokenError_of_all_ended (by simp [behind])]
    | cons q r =>
      obtain ⟨string, others⟩ := cons_mem_singleWord_mul.1 later
      have taken' := taken.trans (Candidate.takes_skip behind (some .token))
      have behind' := taken'.rest_eq (show c.rest = [a] ++ [q] ++ r from rest)
      have fewer := taken'.length_rest
      rw [List.length_append, List.length_singleton, List.length_singleton] at fewer
      have read : advance (book.enter depth) (.sequence [keyword ",", quoted]) [c] =
          .ok [(c.skip none a).skip (some .token) q] := by
        rw [keyword, advance_lead rest shown, quoted,
          advanceRest_terminal behind (by simpa [Token.isQuoted] using string)]
        rfl
      refine repetitionFrom_of_later_error read (by rw [taken'.index]; simp)
        (ih (by rwa [taken'.tokens]) (by omega) ?_ (by rwa [behind']))
      rw [behind']
      intro whole
      refine unfinished (.inr (cons_mem_singleWord_mul.2 ⟨comma, ?_⟩))
      exact cons_mem_singleWord_mul.2 ⟨string, whole⟩

theorem starves_rounds : Starves [.repetition (.sequence [keyword ",", quoted])]
    (Sentence.comma * Sentence.quoted)∗ := by
  intro depth c more lexical _ unfinished word
  have rounds : c.rest.length < repetitionRounds [c] := by
    simp [repetitionRounds, Pool.longest, Pool.smallestIndex, Candidate.rest]
  have failed := rounds_starve depth lexical rounds unfinished word
  apply advanceRest_of_error
  rw [advance, failed]
  rfl

end Parts

section Commands

/-- Tokens that begin a command of this form, and are none yet, make its rule ask for more. -/
structure Cut (phrase : Phrase) (form : String × Language Token) : Prop where
  opens : Opens (Token.isLiteral form.1) phrase
  name : kindOf? form.1 = some .word
  other : sameWord form.1 "IF" = false
  starves : ∀ {depth : Nat} {c : Candidate Token Node} {more : List Token},
    (∀ t ∈ c.tokens, t.IsLexical) → c.rest.length < depth → c.rest ≠ [] →
    c.rest ∉ Sentence.key form.1 * form.2 → c.rest ++ more ∈ Sentence.key form.1 * form.2 →
      advance (book.enter depth) phrase [c] = .error .exhausted

variable {text : String} {construction : Construction Unit} {parts : List Phrase}
  {l l' : Language Token}

theorem cut_of_starves (name : kindOf? text = some .word) (other : sameWord text "IF" = false)
    (starves : Starves parts l) (same : l = l') :
    Cut (make construction (.sequence (keyword text :: parts))) (text, l') := by
  subst same
  refine ⟨.build (.sequence .terminal), name, other,
    fun {depth c more} lexical enough some_left unfinished word => advance_build_of_error ?_⟩
  exact sequence_starves (fun _ lexical => Token.isLiteral_name name lexical) starves lexical
    (Nat.lt_succ_of_lt enough) some_left unfinished word

theorem cut_alone (name : kindOf? text = some .word) (other : sameWord text "IF" = false) :
    Cut (make construction (keyword text)) (text, 1) := by
  refine ⟨.build .terminal, name, other, fun {depth c more} _ _ some_left unfinished word => ?_⟩
  rw [mul_one] at unfinished word
  obtain ⟨t, shown, same⟩ := word
  obtain ⟨u, r, rest⟩ := List.exists_cons_of_ne_nil some_left
  rw [rest] at same unfinished
  obtain ⟨rfl, nothing⟩ := List.cons.inj same
  obtain ⟨rfl, -⟩ := List.append_eq_nil_iff.1 nothing
  exact absurd ⟨u, shown, rfl⟩ unfinished

theorem starves_word (later : Starves parts l) : Starves (word :: parts) (Sentence.word * l) :=
  starves_terminal (fun t _ => by simp [Token.isWord]) later

theorem starves_number (later : Starves parts l) :
    Starves (number :: parts) (Sentence.number * l) :=
  starves_terminal (fun t _ => by simp [Token.isNumber]) later

theorem starves_quoted (later : Starves parts l) :
    Starves (quoted :: parts) (Sentence.quoted * l) :=
  starves_terminal (fun t _ => by simp [Token.isQuoted]) later

theorem starves_nothing : Starves [] 1 := starves_stoppable Sentence.stoppable_one

theorem starves_maybe (p : Token → Prop) : Starves parts (Sentence.maybe (singleWord p)) :=
  starves_stoppable (Sentence.stoppable_maybe p)

/-- All commands but a jump ask for more. -/
theorem commands_cut : List.Forall₂ (fun phrase form => Cut phrase form ∨
    phrase = jumpIfRule ∧ Sentence.key form.1 * form.2 = Sentence.jumping)
    commands Sentence.commandForms :=
  .cons (.inl (cut_of_starves (by decide) (by decide) (starves_heading (starves_stoppable
    (Sentence.stoppable_maybe_mul _ (Sentence.stoppable_maybe _)))) (by rw [← mul_assoc]; rfl))) <|
  .cons (.inl (cut_of_starves (by decide) (by decide) (starves_heading (starves_maybe _)) rfl)) <|
  .cons (.inl (cut_of_starves (by decide) (by decide) (starves_maybe _) rfl)) <|
  .cons (.inl (cut_of_starves (by decide) (by decide) (starves_quoted starves_nothing)
    (mul_one _))) <|
  .cons (.inl (cut_of_starves (by decide) (by decide) (starves_quoted starves_rounds) rfl)) <|
  .cons (.inl (cut_alone (by decide) (by decide))) <|
  .cons (.inl (cut_alone (by decide) (by decide))) <|
  .cons (.inr ⟨rfl, by rw [Sentence.jumping, Sentence.jumpEnd, mul_assoc, mul_assoc]⟩) <|
  .cons (.inl (cut_of_starves (by decide) (by decide)
    (starves_heading (starves_tile Sentence.stoppable_one)) (by rw [mul_one]))) <|
  .cons (.inl (cut_of_starves (by decide) (by decide) (starves_word (starves_maybe _)) rfl)) <|
  .cons (.inl (cut_of_starves (by decide) (by decide)
    (starves_word (starves_number starves_nothing)) (by rw [mul_one]))) <|
  .cons (.inl (cut_of_starves (by decide) (by decide)
    (starves_word (starves_number starves_nothing)) (by rw [mul_one]))) <|
  .cons (.inl (cut_of_starves (by decide) (by decide)
    (starves_word (starves_number (starves_maybe _))) (by rw [← mul_assoc]; rfl))) <|
  .cons (.inl (cut_of_starves (by decide) (by decide) (starves_tile Sentence.stoppable_one)
    (mul_one _))) <|
  .cons (.inl (cut_of_starves (by decide) (by decide) starves_tiles rfl)) <|
  .cons (.inl (cut_of_starves (by decide) (by decide) (starves_number starves_nothing)
    (mul_one _))) <|
  .cons (.inl (cut_of_starves (by decide) (by decide) (starves_number starves_nothing)
    (mul_one _))) <|
  .cons (.inl (cut_of_starves (by decide) (by decide) (starves_heading starves_nothing)
    (mul_one _))) <|
  .cons (.inl (cut_of_starves (by decide) (by decide) (starves_heading starves_nothing)
    (mul_one _))) <|
  .cons (.inl (cut_of_starves (by decide) (by decide) (starves_heading starves_nothing)
    (mul_one _))) <|
  .cons (.inl (cut_alone (by decide) (by decide))) <|
  .cons (.inl (cut_alone (by decide) (by decide))) <|
  .cons (.inl (cut_alone (by decide) (by decide))) <|
  .cons (.inl (cut_of_starves (by decide) (by decide) (starves_word starves_nothing)
    (mul_one _))) <|
  .cons (.inl (cut_of_starves (by decide) (by decide) (starves_word starves_nothing)
    (mul_one _))) <|
  .cons (.inl (cut_of_starves (by decide) (by decide) (starves_quoted (starves_maybe _)) rfl)) .nil

end Commands

end Grammar
end ActorScript
