import ActorScript.Proofs.Grammar.Acceptance
import ActorScript.Proofs.Match.Nesting

/-!
A line is read to the end. Its rules refer to one another, a heading to headings and a condition to
conditions, but each of them takes a token first: so that named rules enter one another at most as
often as there are tokens, and never with no candidate left.
-/
namespace ActorScript.Grammar

open Rule Phrase

theorem lineRule_not_enters (name : Name) : ¬Enters book.rule lineRule name := by
  intro entered
  rw [lineRule_eq] at entered
  cases entered with
  | choice among chosen =>
    rcases List.mem_append.1 among with among | among
    · obtain ⟨_, -, begun⟩ := exists_of_forall₂ lines_open among
      exact begun.not_enters (builds_of_mem among) chosen
    · obtain rfl := List.mem_singleton.1 among
      nomatch chosen

theorem book_not_enters (name inner : Name) : ¬Enters book.rule (book.rule name) inner :=
  fun entered => Nat.lt_irrefl 0 (book_guarded.falls entered)

/-- To read lines goes to an end, whatever candidates it begins with, and gives what the bounded
reading computes. With at most so many tokens, no more named rules are inside one
another, and one more where it begins with one. For whatever named rule is inside another, or inside
a line, is come to with candidates that have taken a token since, and with some. -/
theorem line_reading_ends_within_its_tokens {n : Nat} {cs : Pool Token Node}
    (short : ∀ c ∈ cs, c.tokens.length ≤ n) :
    (∀ result, Gives book.rule (.rule lineRule) cs result ↔ result = book.read lineRule cs) ∧
    (∀ goal pool depth, Comes book.rule goal pool depth (.rule lineRule) cs → depth ≤ n) ∧
    (∀ name goal pool depth, Comes book.rule goal pool depth (.rule (.deferred name)) cs →
      depth ≤ n + 1) ∧
    ∀ outer, outer = lineRule ∨ (∃ name, outer = book.rule name) →
      ∀ inner before pool, Comes book.rule (.rule (.deferred inner)) pool 0 (.rule outer) before →
        pool ≠ [] ∧ ∀ d ∈ pool, ∃ c ∈ before, d.tokens = c.tokens ∧ c.index < d.index := by
  have within : cs.Within n := fun c given => by
    have := short c given
    omega
  refine ⟨fun result => book_guarded.gives_iff builds_line, ?_, ?_, ?_⟩
  · intro goal pool depth comes
    have low : ∀ name, Enters book.rule lineRule name → 0 < 0 := fun name entered =>
      absurd entered (lineRule_not_enters name)
    simpa [book] using book_guarded.depth_le comes builds_line within low
  · intro name goal pool depth comes
    simpa [book] using
      book_guarded.depth_le comes (builds_deferred name) within fun _ _ => Nat.one_pos
  · rintro outer (rfl | ⟨name, rfl⟩) inner before pool comes
    · exact comes.taken builds_line (lineRule_not_enters inner)
    · exact comes.taken (builds_deferred name).entered (book_not_enters name inner)

/-- A walk by a turned heading has two headings inside one another, and leaves the line untaken as
well. -/
theorem turned_walk_ends :
    let ts : List Token :=
      [⟨.word, "WALK", ⟨1, 1, 0⟩⟩, ⟨.word, "CW", ⟨1, 6, 5⟩⟩, ⟨.word, "N", ⟨1, 9, 8⟩⟩]
    let start : Candidate Token Node := .start ts
    (∀ c ∈ [start], c.tokens.length ≤ 3) ∧
      Gives book.rule (.rule lineRule) [start]
        (.ok [⟨ts, 3, [.line (.command (.walk ⟨.fixed .north, [.clockwise]⟩))], by decide⟩,
          start]) ∧
      ∀ goal pool depth, Comes book.rule goal pool depth (.rule lineRule) [start] → depth ≤ 3 := by
  intro ts start
  have short : ∀ c ∈ [start], c.tokens.length ≤ 3 := by decide
  obtain ⟨ends, within, -⟩ := line_reading_ends_within_its_tokens short
  exact ⟨short, (ends _).2 rfl, within⟩

end ActorScript.Grammar
