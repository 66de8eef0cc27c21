import ActorScript.Proofs.Command.Source
import ActorScript.Proofs.Grammar.Unfinished

/-!
Jumps with `THEN`. A whole condition has one reading, and before `THEN` and a label it is what the
jump asks. Where its last word is a color, a longer condition would take `THEN` for a thing of that
color and as many tokens in all; but candidates that take `THEN` for itself come before those that
do not, and the first of equals is found.
-/
namespace ActorScript

open Computability

section Behind

variable {τ ι ρ : Type} {accepts : τ → Bool} {item : Option (τ → ι)} {cs ds : Pool τ ι}
  {c d : Candidate τ ι} {t : τ} {r ts : List τ}

namespace Pool

/-- The candidates with one more token taken, where that is accepted. -/
def behind (accepts : τ → Bool) (item : Option (τ → ι)) (cs : Pool τ ι) : Pool τ ι :=
  cs.filterMap (Candidate.take? accepts item)

theorem behind_append : behind accepts item (cs ++ ds) =
    behind accepts item cs ++ behind accepts item ds := List.filterMap_append

theorem mem_behind : d ∈ behind accepts item cs ↔
    ∃ c ∈ cs, ∃ t, c.rest = t :: d.rest ∧ accepts t = true ∧ d = c.skip item t := by
  rw [behind, List.mem_filterMap]
  refine exists_congr fun c => and_congr_right fun _ => ?_
  rw [Candidate.take?_iff]
  constructor
  · rintro ⟨t, r, next, accepted, rfl⟩
    exact ⟨t, by rw [(Candidate.takes_skip next item).rest_eq next, next], accepted, rfl⟩
  · rintro ⟨t, next, accepted, same⟩
    exact ⟨t, _, next, accepted, same⟩

theorem skip_mem_behind (given : c ∈ cs) (next : c.rest = t :: r) (accepted : accepts t = true) :
    c.skip item t ∈ behind accepts item cs ∧ (c.skip item t).rest = r :=
  ⟨List.mem_filterMap.2 ⟨c, given, Candidate.take?_of_rest next accepted item⟩,
    (Candidate.takes_skip next item).rest_eq next⟩

theorem behind_tokens (same : ∀ c ∈ cs, c.tokens = ts) :
    ∀ d ∈ behind accepts item cs, d.tokens = ts := by
  intro d mem
  obtain ⟨c, given, t, -, -, rfl⟩ := mem_behind.1 mem
  exact same c given

theorem exists_of_mem_behind (same : ∀ c ∈ cs, c.tokens = ts) (suffix : t :: r <:+ ts)
    (mem : d ∈ behind accepts item cs) (left : d.rest.length = r.length) :
    accepts t = true ∧ ∃ c ∈ cs, c.rest = t :: r ∧ d = c.skip item t := by
  obtain ⟨c, given, u, next, accepted, rfl⟩ := mem_behind.1 mem
  have rest : c.rest = t :: r := by
    apply Candidate.rest_eq_of_suffix (by rwa [same c given])
    rw [next, List.length_cons, left, List.length_cons]
  obtain ⟨rfl, -⟩ := List.cons.inj (rest.symm.trans next)
  exact ⟨accepted, c, given, rest, rfl⟩

end Pool

theorem Rule.advance_optional_terminal {enter : ρ → Pool τ ι → Reading τ (Pool τ ι)} :
    advance enter (.optional (.terminal accepts item)) cs =
      .ok (Pool.behind accepts item cs ++ cs) := by
  rw [optional, advance, advanceEach, advance, advanceEach, advance]
  show Except.ok (_ ++ (cs ++ [])) = _
  rw [List.append_nil]
  rfl

end Behind

namespace Grammar

open Rule Phrase

variable {depth : Nat} {c d : Candidate Token Node} {cs outs : Pool Token Node}
  {asked lead ts : List Token} {opening label : Token}

section Tail

/-- What stands between a condition and a label, if `THEN` is not left out. -/
def thenLead : Language Token := Sentence.key "THEN" * Sentence.maybe (Sentence.sign ":")

theorem cases_of_thenLead (leads : lead ∈ thenLead) :
    ∃ t, (t.kind = .word ∧ sameWord t.value "THEN" = true) ∧
      (lead = [t] ∨ ∃ u, (u.kind = .operator ∧ u.value = ":") ∧ lead = [t, u]) := by
  obtain ⟨t, r, shown, later, rfl⟩ := mem_singleWord_mul.1 leads
  refine ⟨t, shown, ?_⟩
  rcases (Language.mem_add _ _ _).1 later with ⟨u, colon, rfl⟩ | nothing
  · exact .inr ⟨u, colon, rfl⟩
  · obtain rfl : r = [] := nothing
    exact .inl rfl

def thens (cs : Pool Token Node) : Pool Token Node := Pool.behind (Token.isLiteral "THEN") none cs

def colons (cs : Pool Token Node) : Pool Token Node := Pool.behind (Token.isLiteral ":") none cs

def labels (cs : Pool Token Node) : Pool Token Node :=
  Pool.behind (Token.isWordExcept ["THEN"]) (some .token) cs

theorem advanceRest_jumpTail (read : advanceRest (book.enter depth) jumpTail cs = .ok outs) :
    outs = labels (colons (thens cs) ++ colons cs ++ (thens cs ++ cs)) := by
  obtain ⟨_, then_read, -, later⟩ := advanceRest_cons_eq_ok.1 read
  obtain rfl := Except.ok.inj (advance_optional_terminal.symm.trans then_read)
  obtain ⟨_, colon_read, -, later⟩ := advanceRest_cons_eq_ok.1 later
  obtain rfl := Except.ok.inj (advance_optional_terminal.symm.trans colon_read)
  obtain ⟨_, label_read, -, later⟩ := advanceRest_cons_eq_ok.1 later
  rw [wordExcept, advance] at label_read
  obtain rfl := Except.ok.inj label_read
  obtain rfl := Except.ok.inj later
  rw [Pool.behind_append]
  rfl

/-- Some of what is found behind conditions has taken all tokens, and all that has took these behind
the condition. -/
def Ends (cs : Pool Token Node) (lead : List Token) (label : Token) (found : Pool Token Node) :
    Prop :=
  (∃ d ∈ found, d.rest = []) ∧ ∀ d ∈ found, d.rest = [] →
    ∃ c ∈ cs, c.rest = lead ++ [label] ∧ d.stack = .token label :: c.stack

section Ends

variable {t u : Token} (is_then : t.isLiteral "THEN" = true)
  (accepted : label.isWordExcept ["THEN"] = true) (same : ∀ e ∈ cs, e.tokens = ts) (given : c ∈ cs)

include is_then accepted same given

theorem ends_then (rest : c.rest = [t, label]) :
    Ends cs [t] label (labels (colons (thens cs) ++ colons cs ++ thens cs)) := by
  have suffix : [t, label] <:+ ts := rest ▸ same c given ▸ List.drop_suffix c.index c.tokens
  have same_then : ∀ e ∈ thens cs, e.tokens = ts := Pool.behind_tokens same
  have same_all : ∀ e ∈ colons (thens cs) ++ colons cs ++ thens cs, e.tokens = ts := by
    simp only [List.forall_mem_append]
    exact ⟨⟨Pool.behind_tokens same_then, Pool.behind_tokens same⟩, same_then⟩
  constructor
  · obtain ⟨mem, next⟩ := Pool.skip_mem_behind given rest is_then
    obtain ⟨mem', ended⟩ := Pool.skip_mem_behind (List.mem_append_right _ mem) next accepted
    exact ⟨_, mem', ended⟩
  · intro d mem ended
    obtain ⟨-, b, between, last, rfl⟩ := Pool.exists_of_mem_behind same_all
      ((List.suffix_append [t] [label]).trans suffix) mem (congrArg List.length ended)
    -- The token before the label is no colon.
    have no_colon {ds : Pool Token Node} (same : ∀ e ∈ ds, e.tokens = ts) : b ∉ colons ds := by
      intro colon
      obtain ⟨coloned, -⟩ :=
        Pool.exists_of_mem_behind same suffix colon (congrArg List.length last)
      rw [Token.isLiteral_apart (by decide) is_then] at coloned
      cases coloned
    rcases List.mem_append.1 between with colon | taken
    · rcases List.mem_append.1 colon with colon | colon
      · exact absurd colon (no_colon same_then)
      · exact absurd colon (no_colon same)
    · obtain ⟨-, e, before, rest, rfl⟩ :=
        Pool.exists_of_mem_behind same suffix taken (congrArg List.length last)
      exact ⟨e, before, rest, rfl⟩

theorem ends_then_colon (is_colon : u.isLiteral ":" = true) (rest : c.rest = [t, u, label]) :
    Ends cs [t, u] label (labels (colons (thens cs))) := by
  have suffix : [t, u, label] <:+ ts := rest ▸ same c given ▸ List.drop_suffix c.index c.tokens
  have same_then : ∀ e ∈ thens cs, e.tokens = ts := Pool.behind_tokens same
  constructor
  · obtain ⟨mem, next⟩ := Pool.skip_mem_behind given rest is_then
    obtain ⟨mem', next'⟩ := Pool.skip_mem_behind mem next is_colon
    obtain ⟨mem'', ended⟩ := Pool.skip_mem_behind mem' next' accepted
    exact ⟨_, mem'', ended⟩
  · intro d mem ended
    obtain ⟨-, b, between, last, rfl⟩ := Pool.exists_of_mem_behind (Pool.behind_tokens same_then)
      ((List.suffix_append [t, u] [label]).trans suffix) mem (congrArg List.length ended)
    obtain ⟨-, b', taken, last', rfl⟩ := Pool.exists_of_mem_behind same_then
      ((List.suffix_append [t] [u, label]).trans suffix) between (congrArg List.length last)
    obtain ⟨-, e, before, rest, rfl⟩ :=
      Pool.exists_of_mem_behind same suffix taken (congrArg List.length last')
    exact ⟨e, before, rest, rfl⟩

end Ends

/-- What is found behind conditions has first taken `THEN` for itself. -/
theorem then_is_taken (lexical : ∀ t ∈ lead ++ [label], t.IsLexical) (leads : lead ∈ thenLead)
    (named : [label] ∈ Sentence.wordBut ["THEN"]) (same : ∀ e ∈ cs, e.tokens = ts)
    (given : c ∈ cs) (rest : c.rest = lead ++ [label])
    (read : advanceRest (book.enter depth) jumpTail cs = .ok outs) :
    ∃ first others, outs = first ++ others ∧ Ends cs lead label first := by
  have accepted : label.isWordExcept ["THEN"] = true := by
    obtain ⟨bare, apart⟩ := Sentence.singleton_mem_singleWord.1 named
    simp [Token.isWordExcept, Token.isWord, bare, apart]
  obtain rfl := advanceRest_jumpTail read
  obtain ⟨t, shown, rfl | ⟨u, colon, rfl⟩⟩ := cases_of_thenLead leads
  · have is_then := (Token.isLiteral_name (by decide) (lexical t List.mem_cons_self)).2 shown
    refine ⟨_, labels cs, ?_, ends_then is_then accepted same given rest⟩
    rw [← List.append_assoc, labels, Pool.behind_append]
    rfl
  · have is_then := (Token.isLiteral_name (by decide) (lexical t List.mem_cons_self)).2 shown
    have is_colon := (Token.isLiteral_sign (by decide) (lexical u (by simp))).2 colon
    refine ⟨_, labels (colons cs ++ (thens cs ++ cs)), ?_,
      ends_then_colon is_then accepted same given is_colon rest⟩
    rw [List.append_assoc, labels, Pool.behind_append]
    rfl

end Tail

section Asked

variable {q : Condition} {r : List Token}

theorem exists_condition (lexical : ∀ t ∈ asked, t.IsLexical)
    (sentence : asked ∈ Sentence.condition) : ∃ q : Condition, asked ∈ q.spellings := by
  let start : Candidate Token Node := .start asked
  obtain ⟨d, leads, taken⟩ := scans_condition.complete (c := start) lexical (Nat.le_refl _) sentence
    (List.append_nil asked).symm
  obtain ⟨w, taken', left⟩ :=
    leaves_condition start d lexical (Nat.le_refl _) (leads.mono fun _ _ _ => trivial)
  obtain rfl := taken.unique taken'
  have empty : start.stack = [] := rfl
  obtain ⟨q, spelled, -⟩ := left (by simp [empty]) (by simp [empty])
  exact ⟨q, spelled⟩

theorem stack_of_condition (lexical : ∀ t ∈ c.tokens, t.IsLexical) (empty : c.stack = [])
    (spelled : asked ∈ q.spellings) (derived : Derives book.rule AnyRound condition c d)
    (rest : c.rest = asked ++ d.rest) : d.stack = [.condition q] := by
  obtain ⟨w, taken, left⟩ := leaves_condition c d lexical (Nat.le_refl _) derived
  obtain rfl : asked = w := List.append_cancel_right (rest.symm.trans taken.rest)
  obtain ⟨q', spelled', stack⟩ := left (by simp [empty]) (by simp [empty])
  rw [stack, empty, settled_asked spelled spelled']

theorem complete_condition (lexical : ∀ t ∈ asked, t.IsLexical) (spelled : asked ∈ q.spellings) :
    ∃ d, book.complete condition (.start asked) = .ok d ∧ d.stack = [.condition q] := by
  let start : Candidate Token Node := .start asked
  have sentence := condition_le q spelled
  obtain ⟨d, leads, taken, ended⟩ :=
    leads_of_scans (c := start) scans_condition lexical (Nat.le_refl _) sentence
  have goes : Goes (book.depth [start]) condition start :=
    goes_condition lexical (Line.length_rest_lt_depth asked) leads taken (by simp [ended])
  obtain ⟨b, found⟩ := book.exists_complete
    (builds_deferred .condition).keepsTokens goes leads (Candidate.isDone_iff.2 ended)
  obtain ⟨derived, done, -⟩ := book.complete_eq_ok found
  refine ⟨b, found, stack_of_condition lexical rfl spelled derived ?_⟩
  rw [Candidate.isDone_iff.1 done, List.append_nil]
  rfl

end Asked

section Jump

variable {q : Condition} {r : List Token}

theorem not_stumbling (leads : lead ∈ thenLead) :
    opening :: (asked ++ (lead ++ [label])) ∉ Sentence.stumbling := by
  intro stumbles
  obtain ⟨-, v, a, t, last, aligned⟩ := mem_stumbling stumbles
  have apart : sameWord a.value "ALIGNED" = false := by
    obtain ⟨t', shown, rfl | ⟨u, colon, rfl⟩⟩ := cases_of_thenLead leads
    · have ends : opening :: asked ++ [t', label] = v ++ [a, t] := last
      obtain ⟨rfl, -⟩ := List.cons.inj (List.append_inj' ends rfl).2
      rw [sameWord_congr shown.2]
      decide
    · have ends : opening :: (asked ++ [t']) ++ [u, label] = v ++ [a, t] := by simpa using last
      obtain ⟨rfl, -⟩ := List.cons.inj (List.append_inj' ends rfl).2
      rw [colon.2]
      decide
  rw [apart] at aligned
  cases aligned

theorem advance_jumpIfRule (next : c.rest = opening :: r) (is_if : opening.isLiteral "IF" = true)
    (read : advance (book.enter depth) jumpIfRule [c] = .ok outs) :
    ∃ cs made action, advance (book.enter depth) condition [c.skip none opening] = .ok cs ∧
      advanceRest (book.enter depth) jumpTail cs = .ok made ∧
      outs = made.map (Candidate.rework action) ∧
      ∀ (d : Candidate Token Node) label q s, d.stack = .token label :: .condition q :: s →
        action d = .line (.command (.jumpIf q (nameOf label))) :: s := by
  obtain ⟨made, made_read, rfl⟩ := advance_build_eq_ok.1 read
  have behind : advanceRest (book.enter depth) (condition :: jumpTail) [c.skip none opening] =
      .ok made := (advance_lead next is_if).symm.trans made_read
  obtain ⟨cs, asked_read, -, tail⟩ := advanceRest_cons_eq_ok.1 behind
  refine ⟨cs, made, _, asked_read, tail, rfl, fun d label q s stack => ?_⟩
  simp [stack]

/-- The first part of what a jump with `THEN` can be read as is what it says. -/
theorem jump_takes_then (lexical : ∀ t ∈ c.tokens, t.IsLexical)
    (empty : c.stack = []) (next : c.rest = opening :: (asked ++ (lead ++ [label])))
    (is_if : opening.isLiteral "IF" = true) (spelled : asked ∈ q.spellings)
    (leads : lead ∈ thenLead) (named : [label] ∈ Sentence.wordBut ["THEN"])
    (read : advance (book.enter depth) jumpIfRule [c] = .ok outs) :
    ∃ first others, outs = first ++ others ∧ (∃ d ∈ first, d.rest = []) ∧
      ∀ d ∈ first, d.rest = [] →
        d.stack = [.line (.command (.jumpIf q (nameOf label)))] := by
  obtain ⟨cs, made, action, asked_read, tail, rfl, makes⟩ := advance_jumpIfRule next is_if read
  obtain ⟨-, rest, lexical_behind, -⟩ := behind_next lexical next none
  -- Among the readings of a condition there is the one that stops before `THEN`.
  obtain ⟨b, leads_b, taken⟩ := scans_condition.complete lexical_behind (Nat.le_refl _)
    (condition_le q spelled) rest
  have given :=
    (advance_complete (book.enter_complete depth) condition).of_singleton asked_read leads_b
  have derived {e : Candidate Token Node} (mem : e ∈ cs) :
      Derives book.rule AnyRound condition (c.skip none opening) e :=
    (advance_sound (book.enter_sound depth) condition).of_singleton asked_read mem
  have same := (builds_deferred .condition).tokens_eq asked_read
  have lexical_end : ∀ t ∈ lead ++ [label], t.IsLexical := by
    intro t mem
    apply lexical t
    have mem' : t ∈ c.rest := by
      rw [next]
      exact List.mem_cons_of_mem _ (List.mem_append_right _ mem)
    exact List.mem_of_mem_drop mem'
  obtain ⟨first, others, rfl, ⟨d, found, ended⟩, ends⟩ :=
    then_is_taken lexical_end leads named same given (taken.rest_eq rest) tail
  refine ⟨_, _, List.map_append, ⟨_, List.mem_map_of_mem found, ended⟩, ?_⟩
  intro d' mem ended'
  obtain ⟨d, among, rfl⟩ := List.mem_map.1 mem
  obtain ⟨e, before, left, stack⟩ := ends d among ended'
  have asked_stack : e.stack = [.condition q] := by
    apply stack_of_condition lexical_behind empty spelled (derived before)
    rw [rest, left]
  rw [asked_stack] at stack
  exact makes d label q [] stack

theorem complete_jump (lexical : ∀ t ∈ opening :: (asked ++ (lead ++ [label])), t.IsLexical)
    (opens : [opening] ∈ Sentence.key "IF") (spelled : asked ∈ q.spellings)
    (leads : lead ∈ thenLead) (named : [label] ∈ Sentence.wordBut ["THEN"])
    (found : book.complete lineRule (.start (opening :: (asked ++ (lead ++ [label])))) = .ok d) :
    d.stack = [.line (.command (.jumpIf q (nameOf label)))] := by
  have is_if : opening.isLiteral "IF" = true :=
    (Token.isLiteral_name (by decide) (lexical opening List.mem_cons_self)).2
      (Sentence.singleton_mem_singleWord.1 opens)
  obtain ⟨outs, read, -, done⟩ := book.complete_iff.1 found
  have listed : jumpIfRule ∈ commands ++ [labelRule] := by simp [commands]
  have line_read := read
  rw [Rulebook.read, advance_lineRule listed (.build (.sequence .terminal)) rfl is_if] at line_read
  obtain ⟨jumps, jump_read, joined⟩ := bind_eq_ok.1 line_read
  obtain ⟨first, others, rfl, ⟨c, among, ended⟩, all⟩ :=
    jump_takes_then lexical rfl rfl is_if spelled leads named jump_read
  obtain rfl := Except.ok.inj joined
  rw [List.append_assoc] at read
  have first_found :=
    book.mem_of_complete_append builds_line.keepsTokens read among (Candidate.isDone_iff.2 ended)
      found
  exact all d first_found (Candidate.isDone_iff.1 done)

end Jump

end Grammar

namespace Line

open Grammar

variable {asked lead : List Token} {opening label : Token} {q : Condition}

theorem parse_jump (lexical : ∀ t ∈ opening :: (asked ++ (lead ++ [label])), t.IsLexical)
    (opens : [opening] ∈ Sentence.key "IF") (spelled : asked ∈ q.spellings)
    (leads : lead ∈ thenLead) (named : [label] ∈ Sentence.wordBut ["THEN"]) (number : Nat) :
    parse (opening :: (asked ++ (lead ++ [label]))) number =
      .ok (.command (.jumpIf q (nameOf label))) := by
  have ends : lead ++ [label] ∈ Sentence.jumpEnd := by
    have word := Language.append_mem_mul leads named
    rw [thenLead, mul_assoc] at word
    exact mul_le_mul' (le_maybe _) le_rfl word
  have jump : opening :: (asked ++ (lead ++ [label])) ∈ Sentence.jumping :=
    Language.append_mem_mul opens (Language.append_mem_mul (condition_le q spelled) ends)
  obtain ⟨line, read⟩ := (exists_parse_iff lexical number).2
    ⟨Sentence.mem_line_of_jumping jump, not_stumbling leads⟩
  obtain ⟨d, found, kept⟩ := parse_eq_ok.1 read
  rw [complete_jump lexical opens spelled leads named found] at kept
  rcases kept with ⟨nothing, -⟩ | ⟨below, top⟩
  · cases nothing
  · rw [read, Node.line.inj (List.cons.inj top).1]

end Line

/-- Tokens of texts that are a condition have one reading as such, and before `THEN`, perhaps a
colon, and a label they are the condition of the jump. -/
theorem jump_asks_its_condition {opening label : Token} {asked lead : List Token}
    (lexical : ∀ t ∈ opening :: asked ++ lead ++ [label], t.IsLexical)
    (opens : [opening] ∈ Sentence.key "IF") (sentence : asked ∈ Sentence.condition)
    (leads : lead ∈ Sentence.key "THEN" * Sentence.maybe (Sentence.sign ":"))
    (named : [label] ∈ Sentence.wordBut ["THEN"]) :
    ∃ q : Condition,
      (∀ q' : Condition, asked ∈ q'.spellings ↔ q' = q) ∧
      (∃ d, Grammar.book.complete Grammar.Phrase.condition (.start asked) = .ok d ∧
        d.stack = [.condition q]) ∧
      (∀ d, Rule.Derives Grammar.book.rule Rule.AnyRound Grammar.Phrase.condition (.start asked) d →
        d.isDone = true → d.stack = [.condition q]) ∧
      ∀ number, Line.parse (opening :: asked ++ lead ++ [label]) number =
        .ok (.command (.jumpIf q (lowerCase label.value))) := by
  have lexical_asked : ∀ t ∈ asked, t.IsLexical := fun t mem => lexical t (by simp [mem])
  have whole : opening :: asked ++ lead ++ [label] = opening :: (asked ++ (lead ++ [label])) := by
    simp
  obtain ⟨q, spelled⟩ := Grammar.exists_condition lexical_asked sentence
  refine ⟨q, fun q' => ⟨fun spelled' => settled_asked spelled' spelled, ?_⟩,
    Grammar.complete_condition lexical_asked spelled, fun d derived done => ?_, fun number => ?_⟩
  · rintro rfl
    exact spelled
  · apply Grammar.stack_of_condition lexical_asked rfl spelled derived
    rw [Candidate.isDone_iff.1 done, List.append_nil]
    rfl
  · rw [whole] at lexical ⊢
    exact Line.parse_jump lexical opens spelled leads named number

/-- A color is asked for as a thing, although `THEN` could be a thing of that color. -/
theorem red_is_the_thing :
    let opening : Token := ⟨.word, "IF", ⟨1, 1, 0⟩⟩
    let present : Token := ⟨.word, "EXISTS", ⟨1, 4, 3⟩⟩
    let red : Token := ⟨.word, "RED", ⟨1, 11, 10⟩⟩
    let lead : Token := ⟨.word, "THEN", ⟨1, 15, 14⟩⟩
    let label : Token := ⟨.word, "Gone", ⟨1, 20, 19⟩⟩
    let ts : List Token := [opening, present, red, lead, label]
    tokenize "IF EXISTS RED THEN Gone" = .ok ts ∧
      ts ∈ (Command.jumpIf (.present ⟨some .red, "then"⟩ .one) "gone").spellings ∧
      Line.parse ts 1 = .ok (.command (.jumpIf (.present ⟨none, "red"⟩ .one) "gone")) := by
  intro opening present red lead label ts
  have lexed : tokenize "IF EXISTS RED THEN Gone" = .ok ts := by
    rw [tokenize_eq, show "IF EXISTS RED THEN Gone".toList = ['I', 'F', ' ', 'E', 'X', 'I', 'S',
      'T', 'S', ' ', 'R', 'E', 'D', ' ', 'T', 'H', 'E', 'N', ' ', 'G', 'o', 'n', 'e'] by simp]
    refine Lexer.tokens_of_read ⟨.word, ['I', 'F'], 1⟩ rfl rfl rfl ?_
    refine (Lexer.tokens_blank rfl _).trans ?_
    refine Lexer.tokens_of_read ⟨.word, ['E', 'X', 'I', 'S', 'T', 'S'], 5⟩ rfl rfl rfl ?_
    refine (Lexer.tokens_blank rfl _).trans ?_
    refine Lexer.tokens_of_read ⟨.word, ['R', 'E', 'D'], 2⟩ rfl rfl rfl ?_
    refine (Lexer.tokens_blank rfl _).trans ?_
    refine Lexer.tokens_of_read ⟨.word, ['T', 'H', 'E', 'N'], 3⟩ rfl rfl rfl ?_
    refine (Lexer.tokens_blank rfl _).trans ?_
    refine Lexer.tokens_of_read ⟨.word, ['G', 'o', 'n', 'e'], 3⟩ rfl rfl rfl ?_
    exact Lexer.tokens_nil ..
  -- The count is left out.
  have asks {tile : Tile} {w : List Token} (word : w ∈ tile.spellings) :
      present :: w ∈ (Condition.present tile .one).spellings := by
    have uncounted := Language.append_mem_mul word nil_mem_count
    rw [List.append_nil] at uncounted
    exact mem_singleWord_mul.2 ⟨present, w, ⟨rfl, by decide⟩, uncounted, rfl⟩
  have thing : [red] ∈ Sentence.name "red" := ⟨red, ⟨rfl, by decide⟩, rfl⟩
  have asked : [present, red] ∈ (Condition.present ⟨none, "red"⟩ .one).spellings :=
    asks (Language.append_mem_mul (a := []) rfl thing)
  obtain ⟨q, spelled, -, -, read⟩ := jump_asks_its_condition (isLexical_of_tokenize lexed)
    ⟨opening, ⟨rfl, by decide⟩, rfl⟩ (condition_le _ asked)
    (mem_singleWord_mul.2 ⟨lead, [], ⟨rfl, by decide⟩, Sentence.nil_mem_maybe _, rfl⟩)
    ⟨label, ⟨rfl, by decide⟩, rfl⟩
  obtain rfl := (spelled _).1 asked
  have lower : lowerCase "Gone" = "gone" := by decide
  refine ⟨lexed, ?_, lower ▸ read 1⟩
  have other_thing : [lead] ∈ Sentence.name "then" := ⟨lead, ⟨rfl, by decide⟩, rfl⟩
  have color : [red] ∈ Color.red.spellings := ⟨red, ⟨rfl, by decide⟩, rfl⟩
  have other : [present, red, lead] ∈ (Condition.present ⟨some .red, "then"⟩ .one).spellings :=
    asks (Language.append_mem_mul color other_thing)
  have goal : [label] ∈ Sentence.nameBut ["THEN"] "gone" :=
    ⟨label, ⟨rfl, by decide, by decide⟩, rfl⟩
  have jump : [label] ∈ Sentence.jump "gone" :=
    Language.append_mem_mul (a := []) (Sentence.nil_mem_maybe _)
      (Language.append_mem_mul (a := []) (Sentence.nil_mem_maybe _) goal)
  exact mem_singleWord_mul.2 ⟨opening, [present, red, lead] ++ [label], ⟨rfl, by decide⟩,
    Language.append_mem_mul other jump, rfl⟩

end ActorScript
