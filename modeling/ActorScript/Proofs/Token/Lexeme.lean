import ActorScript.Proofs.Token.RoundTrip

/-!
Which stretches of a text are items, said without reading: what an item of each kind looks like, and
what may stand behind it. Reading finds just these, so that what a stretch is depends on itself and
on the one character that follows.
-/
namespace ActorScript

/-- `written` stands between quotes for `contents`. -/
inductive InQuotes : List Char → List Char → Prop where
  | nil : InQuotes [] []
  | plain {c : Char} {written contents : List Char} (quote : c ≠ '"') (feed : c ≠ '\n')
      (slash : c ≠ '\\') : InQuotes written contents → InQuotes (c :: written) (c :: contents)
  | escaped {e : Char} {written contents : List Char} (feed : e ≠ '\n') :
      InQuotes written contents → InQuotes ('\\' :: e :: written) (unescape e ++ contents)

/-- `span` is an item, in a text that goes on with `after`. -/
inductive Lexeme : List Char → List Char → Token.Kind → List Char → Prop where
  | newline {after : List Char} : Lexeme ['\n'] after .newline ['\n']
  | comment {text after : List Char} (inside : '\n' ∉ text) (stop : ∀ d ∈ after.head?, d = '\n') :
      Lexeme ('/' :: '/' :: text) after .comment text
  | quoted {written contents after : List Char} : InQuotes written contents →
      Lexeme ('"' :: (written ++ ['"'])) after .quoted contents
  | angleEquals {c : Char} {after : List Char} (angle : c = '<' ∨ c = '>') :
      Lexeme [c, '='] after .operator [c, '=']
  | angle {c : Char} {after : List Char} (angle : c = '<' ∨ c = '>')
      (stop : after.head? ≠ some '=') : Lexeme [c] after .operator [c]
  | sign {c : Char} {after : List Char} (sign : c = '=' ∨ c = ':') : Lexeme [c] after .operator [c]
  | comma {after : List Char} : Lexeme [','] after .punctuation [',']
  | number {c : Char} {cs after : List Char} (digits : ∀ d ∈ c :: cs, d.isDigit = true)
      (small : decimalValue (c :: cs) < Nat.pow 2 63)
      (stop : ∀ d ∈ after.head?, d.isDigit = false) : Lexeme (c :: cs) after .number (c :: cs)
  | word {c : Char} {cs after : List Char} (letter : isLetter c = true)
      (inside : ∀ d ∈ cs, isWordChar d = true) (stop : ∀ d ∈ after.head?, isWordChar d = false) :
      Lexeme (c :: cs) after .word (c :: cs)

section Quotes

variable {written contents cs text : List Char} {extra : Nat}

theorem readQuoted_of_inQuotes (h : InQuotes written contents) (rest : List Char) :
    readQuoted (written ++ '"' :: rest) = some (contents, written.length + 1) := by
  induction h with
  | nil => exact readQuoted_close rest
  | plain quote feed slash _ ih =>
    rw [List.cons_append, readQuoted_plain quote feed slash, ih, Option.map_some, List.length_cons]
  | escaped feed _ ih =>
    rw [List.cons_append, List.cons_append, readQuoted_backslash feed, ih, Option.map_some,
      List.length_cons, List.length_cons]

theorem inQuotes_of_readQuoted (h : readQuoted cs = some (text, extra)) :
    ∃ written rest, cs = written ++ '"' :: rest ∧ InQuotes written text ∧
      extra = written.length + 1 := by
  fun_induction readQuoted cs generalizing text extra with
  | case1 | case3 | case4 | case5 => simp at h
  | case2 cs =>
    obtain ⟨rfl, rfl⟩ := Prod.mk.inj (Option.some.inj h)
    exact ⟨[], cs, rfl, .nil, rfl⟩
  | case6 e cs feed _ _ ih =>
    obtain ⟨r, read, eq⟩ := Option.map_eq_some_iff.1 h
    obtain ⟨rfl, rfl⟩ := Prod.mk.inj eq
    obtain ⟨written, rest, rfl, stands, length⟩ := ih read
    exact ⟨'\\' :: e :: written, rest, rfl, .escaped feed stands, by simp [length]⟩
  | case7 c cs quote feed slash ih =>
    obtain ⟨r, read, eq⟩ := Option.map_eq_some_iff.1 h
    obtain ⟨rfl, rfl⟩ := Prod.mk.inj eq
    obtain ⟨written, rest, rfl, stands, length⟩ := ih read
    exact ⟨c :: written, rest, rfl, .plain quote feed slash stands, by simp [length]⟩

end Quotes

section Items

variable {c : Char} {cs ds span after value : List Char} {kind : Token.Kind} {item : Item}

theorem exists_run {α : Type} {p : α → Bool} (l : List α) :
    ∃ run rest, l = run ++ rest ∧ l.takeWhile p = run ∧ (∀ a ∈ run, p a = true) ∧
      ∀ a ∈ rest.head?, p a = false := by
  refine ⟨l.takeWhile p, l.dropWhile p, List.takeWhile_append_dropWhile.symm, rfl,
    fun a => of_mem_takeWhile, fun a first => ?_⟩
  have stop := List.head?_dropWhile_not p l
  rw [Option.mem_def.1 first] at stop
  simpa using stop

theorem exists_plain_run (cs : List Char) :
    ∃ run rest, cs = run ++ rest ∧ cs.takeWhile (· ≠ '\n') = run ∧ '\n' ∉ run ∧
      ∀ d ∈ rest.head?, d = '\n' := by
  obtain ⟨run, rest, whole, taken, inside, stop⟩ := exists_run (p := (· ≠ '\n')) cs
  exact ⟨run, rest, whole, taken, fun mem => by simpa using inside _ mem,
    fun d first => by simpa using stop d first⟩

/-- Whatever is read is an item, and takes up as many characters as it has. -/
theorem lexeme_of_read (h : Item.read c ds = .ok item) :
    ∃ cs after, ds = cs ++ after ∧ item.extra = cs.length ∧
      Lexeme (c :: cs) after item.kind item.value := by
  unfold Item.read at h
  split at h
  · rename_i feed
    obtain rfl := Except.ok.inj h
    exact ⟨[], ds, rfl, rfl, feed ▸ .newline⟩
  split at h
  · rename_i slashes
    obtain ⟨rest, rfl⟩ := List.head?_eq_some_iff.1 slashes.2
    obtain ⟨text, after, rfl, run, inside, stop⟩ := exists_plain_run rest
    rw [List.tail_cons, run] at h
    obtain rfl := Except.ok.inj h
    exact ⟨'/' :: text, after, rfl, rfl, slashes.1 ▸ .comment inside stop⟩
  split at h
  · rename_i quote
    split at h
    · rename_i read
      obtain rfl := Except.ok.inj h
      obtain ⟨written, rest, rfl, stands, rfl⟩ := inQuotes_of_readQuoted read
      exact ⟨written ++ ['"'], rest, by simp, by simp, quote ▸ .quoted stands⟩
    · simp at h
  split at h
  · rename_i angle
    split at h
    · rename_i equals
      obtain rfl := Except.ok.inj h
      obtain ⟨rest, rfl⟩ := List.head?_eq_some_iff.1 equals
      exact ⟨['='], rest, rfl, rfl, .angleEquals angle⟩
    · rename_i alone
      obtain rfl := Except.ok.inj h
      exact ⟨[], ds, rfl, rfl, .angle angle alone⟩
  split at h
  · rename_i sign
    obtain rfl := Except.ok.inj h
    exact ⟨[], ds, rfl, rfl, .sign sign⟩
  split at h
  · rename_i comma
    obtain rfl := Except.ok.inj h
    exact ⟨[], ds, rfl, rfl, comma ▸ .comma⟩
  split at h
  · rename_i digit
    obtain ⟨digits, after, rfl, run, inside, stop⟩ := exists_run (p := Char.isDigit) ds
    simp only [run] at h
    split at h
    · rename_i small
      obtain rfl := Except.ok.inj h
      exact ⟨digits, after, rfl, rfl, .number (List.forall_mem_cons.2 ⟨digit, inside⟩) small stop⟩
    · simp at h
  split at h
  · rename_i letter
    obtain ⟨letters, after, rfl, run, inside, stop⟩ := exists_run (p := isWordChar) ds
    simp only [run] at h
    obtain rfl := Except.ok.inj h
    exact ⟨letters, after, rfl, rfl, .word letter inside stop⟩
  · simp at h

/-- Every item is read where it stands. -/
theorem read_of_lexeme (h : Lexeme (c :: cs) after kind value) :
    Item.read c (cs ++ after) = .ok ⟨kind, value, cs.length⟩ := by
  cases h with
  | newline => simp [Item.read]
  | @comment _ _ inside stop =>
    have plain (d : Char) (mem : d ∈ value) : decide (d ≠ '\n') = true := by
      rw [decide_eq_true_eq]
      rintro rfl
      exact inside mem
    have run : (value ++ after).takeWhile (· ≠ '\n') = value :=
      takeWhile_append_stop plain fun d first => by simp [stop d first]
    rw [List.cons_append, Item.read, if_neg (by decide), if_pos ⟨rfl, rfl⟩, List.tail_cons, run]
    rfl
  | @quoted written _ _ stands =>
    rw [List.append_assoc, List.singleton_append]
    simp [Item.read, readQuoted_of_inQuotes stands]
  | angleEquals angle => rcases angle with rfl | rfl <;> simp [Item.read]
  | angle angle stop => rcases angle with rfl | rfl <;> simp [Item.read, stop]
  | sign sign => rcases sign with rfl | rfl <;> simp [Item.read]
  | comma => simp [Item.read]
  | number digits small stop => exact read_number digits small stop
  | word letter inside stop => exact read_word letter inside stop

theorem Lexeme.cut (h : Lexeme span after kind value) {left : List Char} (cut : left <+: after) :
    Lexeme span left kind value := by
  have first {d : Char} (mem : d ∈ left.head?) : d ∈ after.head? := by
    obtain ⟨rest, rfl⟩ := cut
    rw [Option.mem_def] at mem ⊢
    rw [List.head?_append, mem, Option.some_or]
  cases h with
  | newline => exact .newline
  | comment inside stop => exact .comment inside fun d mem => stop d (first mem)
  | quoted stands => exact .quoted stands
  | angleEquals angle => exact .angleEquals angle
  | angle angle stop => exact .angle angle fun mem => stop (first mem)
  | sign sign => exact .sign sign
  | comma => exact .comma
  | number digits small stop => exact .number digits small fun d mem => stop d (first mem)
  | word letter inside stop => exact .word letter inside fun d mem => stop d (first mem)

end Items

end ActorScript
