import ActorScript.Proofs.Token.Lexeme

/-!
No token crosses a line feed, and none depends on where its text stands. The tokens of a text that
goes on behind a line feed are therefore those of its first part, a line feed, and those of its
second part, moved to their places.
-/
namespace ActorScript

section Items

variable {c : Char} {cs : List Char}

theorem takeWhile_append_feed {p : Char → Bool} (feed : p '\n' = false) (cs ds : List Char) :
    (cs ++ '\n' :: ds).takeWhile p = cs.takeWhile p := by
  induction cs with
  | nil => rw [List.nil_append, List.takeWhile_cons_of_neg (by simp [feed]), List.takeWhile_nil]
  | cons c cs ih => rw [List.cons_append, List.takeWhile_cons, List.takeWhile_cons, ih]

theorem readQuoted_append_feed (cs ds : List Char) :
    readQuoted (cs ++ '\n' :: ds) = readQuoted cs := by
  fun_induction readQuoted cs with
  | case1 => rw [List.nil_append, readQuoted.eq_def]; simp
  | case2 cs => exact readQuoted_close _
  | case3 | case4 | case5 => rw [List.cons_append, readQuoted.eq_def]; simp
  | case6 e cs feed _ _ ih =>
    rw [List.cons_append, List.cons_append, readQuoted_backslash feed, ih]
  | case7 c cs quote feed slash ih =>
    rw [List.cons_append, readQuoted_plain quote feed slash, ih]

theorem extra_le_of_read {item : Item} (h : Item.read c cs = .ok item) :
    item.extra ≤ cs.length := by
  obtain ⟨span, after, rfl, extra, -⟩ := lexeme_of_read h
  rw [extra, List.length_append]
  exact Nat.le_add_right ..

theorem read_append_feed (c : Char) (cs ds : List Char) :
    Item.read c (cs ++ '\n' :: ds) = Item.read c cs := by
  cases cs with
  | nil =>
    have nothing := readQuoted_append_feed [] ds
    rw [List.nil_append] at nothing
    rw [List.nil_append, Item.read, Item.read, nothing]
    simp [isWordChar, Char.isAlphanum]
    rfl
  | cons d cs =>
    have string := readQuoted_append_feed (d :: cs) ds
    have text := takeWhile_append_feed (p := (· ≠ '\n')) (by simp) cs ds
    have digits := takeWhile_append_feed (p := Char.isDigit) (by decide) (d :: cs) ds
    have letters := takeWhile_append_feed (p := isWordChar) (by decide) (d :: cs) ds
    rw [List.cons_append] at string digits letters
    rw [List.cons_append, Item.read, Item.read, string, digits, letters]
    simp only [List.head?_cons, List.tail_cons, text]
    rfl

theorem kind_ne_newline_of_read {item : Item} (plain : c ≠ '\n') (h : Item.read c cs = .ok item) :
    item.kind ≠ .newline := by
  rw [Item.read, if_neg plain] at h
  grind

end Items

section Scans

variable {keep : Bool} {place next : Place} {cs rest : List Char} {token : Token}

theorem scan_append_feed (keep : Bool) (place : Place) (cs ds : List Char) :
    scan keep place (cs ++ '\n' :: ds) =
      match scan keep place cs with
      | .ended =>
        .found ⟨.newline, "\n", place.afterAll cs⟩ ((place.afterAll cs).after '\n') ds
      | .failed error => .failed error
      | .found token next rest => .found token next (rest ++ '\n' :: ds) := by
  fun_induction scan keep place cs with
  | case1 place => exact scan_of_read ⟨.newline, ['\n'], 0⟩ rfl rfl rfl
  | case2 place c cs blank ih => rw [List.cons_append, scan, if_pos blank, ih]; rfl
  | case3 place c cs visible fault read =>
    rw [List.cons_append, scan, if_neg visible, read_append_feed, read]
  | case4 place c cs visible item read next skipped ih =>
    have enough := extra_le_of_read read
    rw [List.cons_append, scan, if_neg visible, read_append_feed, read]
    dsimp only
    rw [if_pos skipped, List.take_append_of_le_length enough, List.drop_append_of_le_length enough,
      ih, ← Place.afterAll_append, List.take_append_drop]
    rfl
  | case5 place c cs visible item read next kept =>
    have enough := extra_le_of_read read
    rw [List.cons_append, scan, if_neg visible, read_append_feed, read]
    dsimp only
    rw [if_neg kept, List.take_append_of_le_length enough, List.drop_append_of_le_length enough]

theorem afterAll_of_scan (h : scan keep place cs = .found token next rest) :
    next.afterAll rest = place.afterAll cs := by
  fun_induction scan keep place cs with
  | case1 => simp at h
  | case2 place c cs _ ih => exact ih h
  | case3 => simp at h
  | case4 place c cs _ item _ next' _ ih =>
    rw [ih h, Place.afterAll_cons, ← Place.afterAll_append, List.take_append_drop]
  | case5 place c cs _ item _ next' _ =>
    obtain ⟨-, rfl, rfl⟩ := Scan.found.inj h
    rw [Place.afterAll_cons, ← Place.afterAll_append, List.take_append_drop]

theorem kind_ne_newline_of_scan (plain : '\n' ∉ cs)
    (h : scan keep place cs = .found token next rest) : token.kind ≠ .newline ∧ '\n' ∉ rest := by
  fun_induction scan keep place cs with
  | case1 => simp at h
  | case2 place c cs _ ih => exact ih (fun mem => plain (List.mem_cons_of_mem c mem)) h
  | case3 => simp at h
  | case4 place c cs _ item _ _ _ ih =>
    exact ih (fun mem => plain (List.mem_cons_of_mem c (List.mem_of_mem_drop mem))) h
  | case5 place c cs _ item read _ _ =>
    obtain ⟨rfl, -, rfl⟩ := Scan.found.inj h
    have other : c ≠ '\n' := fun eq => plain (eq ▸ List.mem_cons_self)
    exact ⟨kind_ne_newline_of_read other read,
      fun mem => plain (List.mem_cons_of_mem c (List.mem_of_mem_drop mem))⟩

theorem Place.line_afterAll (plain : '\n' ∉ cs) (p : Place) : (p.afterAll cs).line = p.line := by
  induction cs generalizing p with
  | nil => rfl
  | cons c cs ih =>
    rw [List.mem_cons, not_or] at plain
    rw [afterAll_cons, ih plain.2, after, if_neg (Ne.symm plain.1)]

theorem line_of_scan (keep : Bool) (place : Place) (plain : '\n' ∉ cs) :
    (∀ error, scan keep place cs = .failed error → error.line = place.line) ∧
    ∀ token next rest, scan keep place cs = .found token next rest →
      token.place.line = place.line ∧ next.line = place.line := by
  fun_induction scan keep place cs with
  | case1 => simp
  | case2 place c cs _ ih =>
    rw [List.mem_cons, not_or] at plain
    have same : (place.after c).line = place.line := by rw [Place.after, if_neg (Ne.symm plain.1)]
    rw [← same]
    exact ih plain.2
  | case3 place c cs _ fault _ =>
    refine ⟨fun error failed => ?_, fun _ _ _ found => by simp at found⟩
    obtain rfl := Scan.failed.inj failed
    rfl
  | case4 place c cs _ item _ next _ ih =>
    have taken : '\n' ∉ c :: cs.take item.extra :=
      fun mem => plain (List.take_subset (item.extra + 1) (c :: cs) mem)
    have same : next.line = place.line := Place.line_afterAll taken place
    rw [← same]
    exact ih fun mem => plain (List.mem_cons_of_mem c (List.mem_of_mem_drop mem))
  | case5 place c cs _ item _ next _ =>
    refine ⟨fun error failed => by simp at failed, fun token after rest found => ?_⟩
    obtain ⟨rfl, rfl, rfl⟩ := Scan.found.inj found
    have taken : '\n' ∉ c :: cs.take item.extra :=
      fun mem => plain (List.take_subset (item.extra + 1) (c :: cs) mem)
    exact ⟨rfl, Place.line_afterAll taken place⟩

end Scans

namespace Lexer

theorem kind_ne_newline_of_tokens {keep : Bool} {place : Place} {cs : List Char} {ts : List Token}
    (plain : '\n' ∉ cs) (h : tokens ⟨keep, place, cs⟩ = .ok ts) : ∀ t ∈ ts, t.kind ≠ .newline :=
  forall_mem_tokens kind_ne_newline_of_scan place plain h

/-- The tokens of one line stand on it, and so does what cannot be read. -/
theorem line_of_tokens (keep : Bool) (place : Place) {cs : List Char} (plain : '\n' ∉ cs) :
    (∀ error, tokens ⟨keep, place, cs⟩ = .error error → error.line = place.line) ∧
    ∀ ts, tokens ⟨keep, place, cs⟩ = .ok ts → ∀ t ∈ ts, t.place.line = place.line := by
  induction place, cs using scan_induction keep with
  | ended ends => simp [tokens_of_ended ends]
  | @failed place _ error fails =>
    rw [tokens_of_failed fails]
    simpa using (line_of_scan keep place plain).1 error fails
  | @found place _ token next rest finds ih =>
    obtain ⟨first, same⟩ := (line_of_scan keep place plain).2 token next rest finds
    have later := ih (kind_ne_newline_of_scan plain finds).2
    rw [same] at later
    rw [tokens_of_found finds]
    cases more : tokens ⟨keep, next, rest⟩ with
    | error error =>
      have blamed := later.1 error more
      simpa [Except.map] using blamed
    | ok ts =>
      have others := later.2 ts more
      simpa [Except.map, first] using others

theorem tokens_append_feed (keep : Bool) (place : Place) (cs ds : List Char) :
    tokens ⟨keep, place, cs ++ '\n' :: ds⟩ = do
      let ts ← tokens ⟨keep, place, cs⟩
      let us ← tokens ⟨keep, (place.afterAll cs).after '\n', ds⟩
      return ts ++ ⟨.newline, "\n", place.afterAll cs⟩ :: us := by
  induction place, cs using scan_induction keep with
  | @ended place cs ends =>
    have whole := scan_append_feed keep place cs ds
    rw [ends] at whole
    rw [tokens_of_found whole, tokens_of_ended ends]
    cases tokens ⟨keep, (place.afterAll cs).after '\n', ds⟩ <;> rfl
  | @failed place cs _ fails =>
    have whole := scan_append_feed keep place cs ds
    rw [fails] at whole
    rw [tokens_of_failed whole, tokens_of_failed fails]
    rfl
  | @found place cs token next rest finds ih =>
    have whole := scan_append_feed keep place cs ds
    rw [finds] at whole
    rw [tokens_of_found whole, tokens_of_found finds, ih, afterAll_of_scan finds]
    cases tokens ⟨keep, next, rest⟩ with
    | error error => rfl
    | ok ts => cases tokens ⟨keep, (place.afterAll cs).after '\n', ds⟩ <;> rfl

end Lexer

end ActorScript
