import ActorScript.Proofs.Token.Span
import ActorScript.Text.Lines

/-!
Where the lines of a text stand in it. A line is said here by what is around it, and not by reading
the text from its start: by the text above, which ends in a line feed, and by how the line ends.
Cutting a text into lines finds just these, and the place behind a text says which line comes next
and how far it has come.
-/
namespace ActorScript

/-- A text is one line, or a line and a line feed before a text of which the same is shown. -/
@[elab_as_elim]
theorem line_induction {motive : List Char → Prop} (last : ∀ cs, '\n' ∉ cs → motive cs)
    (append_feed : ∀ part rest, '\n' ∉ part → motive rest → motive (part ++ '\n' :: rest))
    (cs : List Char) : motive cs := by
  induction length : cs.length using Nat.strongRecOn generalizing cs with
  | ind n ih =>
    subst length
    by_cases ends : '\n' ∈ cs
    · obtain ⟨part, rest, rfl, plain⟩ := List.eq_append_cons_of_mem ends
      have shorter : rest.length < (part ++ '\n' :: rest).length := by
        rw [List.length_append, List.length_cons]
        omega
      exact append_feed part rest plain (ih rest.length shorter rest rfl)
    · exact last cs ends

/-- A line in its text: what stands above it, what it says, how it ends, and what stands below. -/
structure Stretch where
  above : List Char
  line : List Char
  ending : List Char
  below : List Char

/-- How a line can end, and what can be below it then. -/
inductive EndsLine (line : List Char) : List Char → List Char → Prop where
  | feed {below : List Char} (clean : line.getLast? ≠ some '\r') : EndsLine line ['\n'] below
  | returnFeed {below : List Char} : EndsLine line ['\r', '\n'] below
  /-- Behind the last line feed there is a line only if something stands there. -/
  | text (nonempty : line ≠ []) : EndsLine line [] []

/-- The stretch is line `n` of the text. -/
structure Stretch.IsLine (s : Stretch) (text : List Char) (n : Nat) : Prop where
  whole : text = s.above ++ (s.line ++ (s.ending ++ s.below))
  number : n = 1 + s.above.count '\n'
  begins : ∀ c ∈ s.above.getLast?, c = '\n'
  plain : '\n' ∉ s.line
  ends : EndsLine s.line s.ending s.below

section Cutting

variable {above cs part rest : List Char}

theorem linesFrom_of_plain (plain : '\n' ∉ cs) (line : List Char) :
    linesFrom line cs = if line.reverse ++ cs = [] then [] else [line.reverse ++ cs] := by
  induction cs generalizing line with
  | nil => simp [linesFrom]
  | cons c cs ih =>
    rw [List.mem_cons, not_or] at plain
    rw [linesFrom, if_neg (Ne.symm plain.1), ih plain.2, List.reverse_cons, List.append_assoc,
      List.singleton_append]

theorem linesFrom_append_feed (plain : '\n' ∉ part) (line rest : List Char) :
    linesFrom line (part ++ '\n' :: rest) =
      dropReturn (line.reverse ++ part) :: linesFrom [] rest := by
  induction part generalizing line with
  | nil => rw [List.nil_append, linesFrom, if_pos rfl, List.append_nil]
  | cons c part ih =>
    rw [List.mem_cons, not_or] at plain
    rw [List.cons_append, linesFrom, if_neg (Ne.symm plain.1), ih plain.2, List.reverse_cons,
      List.append_assoc, List.singleton_append]

theorem linesFrom_append (begins : ∀ c ∈ above.getLast?, c = '\n') (cs : List Char) :
    linesFrom [] (above ++ cs) = linesFrom [] above ++ linesFrom [] cs ∧
      (linesFrom [] above).length = above.count '\n' := by
  induction above using line_induction with
  | last above plain =>
    have nothing : above = [] := by
      cases last : above.getLast? with
      | none => exact List.getLast?_eq_none_iff.1 last
      | some c =>
        have feed := begins c last
        exact absurd (feed ▸ List.mem_of_getLast? last) plain
    rw [nothing]
    exact ⟨rfl, rfl⟩
  | append_feed part rest plain ih =>
    have begins' : ∀ c ∈ rest.getLast?, c = '\n' := by
      intro c last
      apply begins c
      rw [Option.mem_def] at last ⊢
      simp [List.getLast?_append, List.getLast?_cons, last]
    obtain ⟨cut, length⟩ := ih begins'
    constructor
    · rw [List.append_assoc, List.cons_append, linesFrom_append_feed plain,
        linesFrom_append_feed plain, cut, List.cons_append]
    · rw [linesFrom_append_feed plain, List.length_cons, length, List.count_append,
        List.count_cons_self, List.count_eq_zero_of_not_mem plain, Nat.zero_add]

theorem dropReturn_of_clean (clean : cs.getLast? ≠ some '\r') : dropReturn cs = cs :=
  if_neg clean

theorem dropReturn_append (cs : List Char) : dropReturn (cs ++ ['\r']) = cs := by
  simp [dropReturn]

theorem getElem?_linesFrom_of_ends {line ending below : List Char} (plain : '\n' ∉ line)
    (ends : EndsLine line ending below) :
    (linesFrom [] (line ++ (ending ++ below)))[0]? = some line := by
  cases ends with
  | feed clean =>
    rw [List.singleton_append, linesFrom_append_feed plain, List.reverse_nil, List.nil_append,
      dropReturn_of_clean clean]
    rfl
  | returnFeed =>
    have plain' : '\n' ∉ line ++ ['\r'] := by simp [plain]
    rw [show line ++ (['\r', '\n'] ++ below) = (line ++ ['\r']) ++ '\n' :: below by simp,
      linesFrom_append_feed plain', List.reverse_nil, List.nil_append, dropReturn_append]
    rfl
  | text nonempty =>
    rw [List.append_nil, List.append_nil, linesFrom_of_plain plain, List.reverse_nil,
      List.nil_append, if_neg nonempty]
    rfl

theorem Stretch.IsLine.getElem?_linesFrom {s : Stretch} {text : List Char} {n : Nat}
    (h : s.IsLine text n) : (linesFrom [] text)[n - 1]? = some s.line := by
  obtain ⟨cut, length⟩ := linesFrom_append h.begins (s.line ++ (s.ending ++ s.below))
  have first := getElem?_linesFrom_of_ends h.plain h.ends
  rw [h.whole, cut, h.number, Nat.add_sub_cancel_left, List.getElem?_append_right (by omega),
    length, Nat.sub_self, first]

/-- Where something stands before a line feed, or before the end of the text, that is a line, but
for a carriage return that is part of its ending. -/
theorem exists_ends {part tail : List Char} (nonempty : part ≠ [])
    (stop : ∀ c ∈ tail.head?, c = '\n') :
    ∃ line ending below, part ++ tail = line ++ (ending ++ below) ∧ EndsLine line ending below ∧
      (part = line ∨ part = line ++ ['\r']) := by
  cases tail with
  | nil => exact ⟨part, [], [], rfl, .text nonempty, .inl rfl⟩
  | cons c below =>
    obtain rfl := stop c rfl
    by_cases carried : part.getLast? = some '\r'
    · obtain ⟨line, rfl⟩ := List.getLast?_eq_some_iff.1 carried
      exact ⟨line, ['\r', '\n'], below, by simp, .returnFeed, .inr rfl⟩
    · exact ⟨part, ['\n'], below, rfl, .feed carried, .inl rfl⟩

theorem exists_isLine (begins : ∀ c ∈ above.getLast?, c = '\n') (plain : '\n' ∉ part)
    (nonempty : part ≠ []) (tail : List Char) (stop : ∀ c ∈ tail.head?, c = '\n') :
    ∃ s : Stretch, s.IsLine (above ++ (part ++ tail)) (1 + above.count '\n') ∧ s.above = above ∧
      part ++ tail = s.line ++ (s.ending ++ s.below) ∧
      (part = s.line ∨ part = s.line ++ ['\r']) := by
  obtain ⟨line, ending, below, cut, ends, made⟩ := exists_ends nonempty stop
  have plain_line : '\n' ∉ line := by
    intro mem
    rcases made with rfl | rfl
    · exact plain mem
    · exact plain (List.mem_append_left _ mem)
  exact ⟨⟨above, line, ending, below⟩, ⟨by rw [cut], rfl, begins, plain_line, ends⟩, rfl, cut, made⟩

end Cutting

theorem exists_behind_feed (cs : List Char) :
    ∃ above left, cs = above ++ left ∧ (∀ c ∈ above.getLast?, c = '\n') ∧ '\n' ∉ left ∧
      (Place.behind cs).line = 1 + above.count '\n' ∧
      (Place.behind cs).column = 1 + left.length := by
  obtain ⟨left, above, reversed, taken, inside, stop⟩ := exists_plain_run cs.reverse
  have whole : cs = above.reverse ++ left.reverse := by
    rw [← List.reverse_append, ← reversed, List.reverse_reverse]
  have plain : '\n' ∉ left.reverse := fun mem => inside (List.mem_reverse.1 mem)
  refine ⟨above.reverse, left.reverse, whole, fun c last => ?_, plain, ?_, ?_⟩
  · rw [List.getLast?_reverse] at last
    exact stop c last
  · show 1 + cs.count '\n' = _
    rw [whole, List.count_append, List.count_eq_zero_of_not_mem plain, Nat.add_zero]
  · show 1 + (cs.reverse.takeWhile (· ≠ '\n')).length = _
    rw [taken, List.length_reverse]

theorem exists_of_append_return {left right line : List Char} {c : Char}
    (made : left ++ c :: right = line ++ ['\r']) (carriage : c ≠ '\r') :
    ∃ shorter, right = shorter ++ ['\r'] ∧ line = left ++ c :: shorter := by
  cases right using List.reverseRecOn with
  | nil =>
    have last := (List.append_inj' made rfl).2
    exact absurd (List.cons.inj last).1 carriage
  | append_singleton shorter d =>
    rw [← List.cons_append, ← List.append_assoc] at made
    obtain ⟨line_eq, last⟩ := List.append_inj' made rfl
    obtain rfl := (List.cons.inj last).1
    exact ⟨shorter, rfl, line_eq.symm⟩

theorem exists_isLine_of_char {c : Char} (before rest : List Char) (feed : c ≠ '\n')
    (carriage : c ≠ '\r') :
    ∃ (s : Stretch) (left right : List Char),
      s.IsLine (before ++ c :: rest) (Place.behind before).line ∧
      before = s.above ++ left ∧ s.line = left ++ c :: right ∧
      rest = right ++ (s.ending ++ s.below) ∧
      (Place.behind before).column = left.length + 1 := by
  obtain ⟨above, left, whole, begins, plain_left, line_eq, column_eq⟩ := exists_behind_feed before
  obtain ⟨right, tail, rfl, -, plain_right, stop⟩ := exists_plain_run rest
  have plain : '\n' ∉ left ++ c :: right := by simp [plain_left, plain_right, Ne.symm feed]
  obtain ⟨s, is_line, rfl, cut, made⟩ :=
    exists_isLine begins plain (by simp) tail stop
  rw [List.append_assoc, List.cons_append] at cut
  have column : (Place.behind before).column = left.length + 1 := by rw [column_eq, Nat.add_comm]
  have placed : s.IsLine (before ++ c :: (right ++ tail)) (Place.behind before).line := by
    rw [line_eq, whole]
    simpa using is_line
  rcases made with made | made
  · rw [← made] at cut
    exact ⟨s, left, right, placed, whole, made.symm, by simpa using cut, column⟩
  · -- the carriage return of the ending is the last of what stands to the right
    obtain ⟨right, rfl, line_made⟩ := exists_of_append_return made carriage
    rw [line_made] at cut
    exact ⟨s, left, right, placed, whole, line_made, by simpa using cut, column⟩

theorem exists_of_splitOn {cs part : List Char} {i : Nat}
    (here : (cs.splitOn '\n')[i]? = some part) :
    ∃ above tail, cs = above ++ (part ++ tail) ∧ above.count '\n' = i ∧
      (∀ c ∈ above.getLast?, c = '\n') ∧ '\n' ∉ part ∧ ∀ c ∈ tail.head?, c = '\n' := by
  induction cs using line_induction generalizing i with
  | last cs plain =>
    rw [List.splitOn_eq_singleton plain, List.getElem?_singleton] at here
    split at here
    · rename_i first
      obtain rfl := Option.some.inj here
      exact ⟨[], [], by simp, by simp [first], by simp, plain, by simp⟩
    · simp at here
  | append_feed first rest plain ih =>
    rw [List.splitOn_append_cons_self_of_not_mem plain] at here
    cases i with
    | zero =>
      obtain rfl := Option.some.inj here
      exact ⟨[], '\n' :: rest, rfl, rfl, by simp, plain, by simp⟩
    | succ i =>
      rw [List.getElem?_cons_succ] at here
      obtain ⟨above, tail, rfl, counted, begins, plain_part, stop⟩ := ih here
      refine ⟨first ++ '\n' :: above, tail, by simp, ?_, fun c last => ?_, plain_part, stop⟩
      · rw [List.count_append, List.count_cons_self, List.count_eq_zero_of_not_mem plain, counted]
        omega
      · rw [List.getLast?_append, List.getLast?_cons, Option.mem_def] at last
        cases last_above : above.getLast? with
        | none => simpa [last_above, eq_comm] using last
        | some d =>
          obtain rfl : d = c := by simpa [last_above] using last
          exact begins d last_above

theorem exists_isLine_of_splitOn {cs part : List Char} {i : Nat}
    (here : (cs.splitOn '\n')[i]? = some part) (nonempty : part ≠ []) :
    ∃ s : Stretch, s.IsLine cs (i + 1) := by
  obtain ⟨above, tail, rfl, rfl, begins, plain, stop⟩ := exists_of_splitOn here
  obtain ⟨s, is_line, -⟩ := exists_isLine begins plain nonempty tail stop
  exact ⟨s, Nat.add_comm 1 _ ▸ is_line⟩

end ActorScript
