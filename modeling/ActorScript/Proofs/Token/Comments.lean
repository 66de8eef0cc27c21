import ActorScript.Proofs.Token.Stream

/-!
Reading with and without comments. A reader that passes over comments goes on behind one where a
reader that keeps them goes on when it is called again; both stand at the same place then, and come
to the same tokens otherwise.
-/
namespace ActorScript

theorem scan_dropping (place : Place) (cs : List Char) :
    scan false place cs =
      match scan true place cs with
      | .ended => .ended
      | .failed error => .failed error
      | .found token next rest =>
        if token.kind = .comment then scan false next rest else .found token next rest := by
  fun_induction scan false place cs with
  | case1 => rw [scan]
  | case2 place c cs blank ih => rw [scan, if_pos blank, ih]
  | case3 place c cs visible fault read => rw [scan, if_neg visible, read]
  | case4 place c cs visible item read next dropped _ =>
    rw [scan_of_read item (by simpa using visible) read (by simp)]
    exact (if_pos dropped.1).symm
  | case5 place c cs visible item read next kept =>
    rw [scan_of_read item (by simpa using visible) read (by simp)]
    exact (if_neg fun comment => kept ⟨comment, rfl⟩).symm

theorem Lexer.tokens_dropping (place : Place) (cs : List Char) :
    tokens ⟨false, place, cs⟩ =
      (tokens ⟨true, place, cs⟩).map (List.filter (·.kind ≠ .comment)) := by
  -- along what a reader finds that keeps comments, since each of its tokens stops it
  induction place, cs using scan_induction true with
  | @ended place cs ends =>
    have dropping := scan_dropping place cs
    rw [ends] at dropping
    rw [tokens_of_ended ends, tokens_of_ended dropping]
    rfl
  | @failed place cs _ fails =>
    have dropping := scan_dropping place cs
    rw [fails] at dropping
    rw [tokens_of_failed fails, tokens_of_failed dropping]
    rfl
  | @found place cs token next rest finds ih =>
    have dropping := scan_dropping place cs
    rw [finds] at dropping
    rw [tokens_of_found finds]
    by_cases comment : token.kind = .comment
    · rw [tokens_of_scan_eq (dropping.trans (if_pos comment)), ih]
      cases tokens ⟨true, next, rest⟩ with
      | error error => rfl
      | ok ts =>
        show Except.ok _ = Except.ok (List.filter _ (token :: ts))
        rw [List.filter_cons_of_neg (by simp [comment])]
    · rw [tokens_of_found (dropping.trans (if_neg comment)), ih]
      cases tokens ⟨true, next, rest⟩ with
      | error error => rfl
      | ok ts =>
        show Except.ok _ = Except.ok (List.filter _ (token :: ts))
        rw [List.filter_cons_of_pos (by simp [comment])]

/-- The tokens of a text without its comments are those with them, less the comments. Every other
token is the same and stands at the same place, and a text that has an error has it either way. -/
theorem comments_only_add_tokens (text : String) :
    tokenize text = (tokenizeWithComments text).map (List.filter (·.kind ≠ .comment)) :=
  Lexer.tokens_dropping .start text.toList

end ActorScript
