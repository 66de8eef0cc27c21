import ActorScript.Proofs.Token.Stream

/-!
Where a text stands. A text that begins a later line has the tokens it has at the start of a script,
moved as far as the text is, and the same error if it has one.
-/
namespace ActorScript

namespace Place

def shift (lines offset : Nat) (p : Place) : Place := ⟨p.line + lines, p.column, p.offset + offset⟩

theorem after_shift (lines offset : Nat) (p : Place) (c : Char) :
    (p.shift lines offset).after c = (p.after c).shift lines offset := by
  unfold after
  split <;> simp [shift, Nat.add_right_comm]

theorem afterAll_shift (lines offset : Nat) (p : Place) (cs : List Char) :
    (p.shift lines offset).afterAll cs = (p.afterAll cs).shift lines offset := by
  induction cs generalizing p with
  | nil => rfl
  | cons c cs ih => rw [afterAll_cons, afterAll_cons, after_shift, ih]

theorem after_feed (p : Place) : p.after '\n' = start.shift p.line (p.offset + 1) := by
  rw [after, if_pos rfl, shift, start, Nat.add_comm 1, Nat.zero_add]

end Place

def Token.shift (lines offset : Nat) (t : Token) : Token :=
  { t with place := t.place.shift lines offset }

def LexError.shift (lines : Nat) (e : LexError) : LexError := { e with line := e.line + lines }

def Scan.shift (lines offset : Nat) : Scan → Scan
  | .ended => .ended
  | .failed error => .failed (error.shift lines)
  | .found token place rest => .found (token.shift lines offset) (place.shift lines offset) rest

theorem scan_shift (lines offset : Nat) (keep : Bool) (place : Place) (cs : List Char) :
    scan keep (place.shift lines offset) cs = (scan keep place cs).shift lines offset := by
  fun_induction scan keep place cs with
  | case1 => rw [scan]; rfl
  | case2 place c cs blank ih => rw [scan, if_pos blank, Place.after_shift, ih]
  | case3 place c cs visible fault read =>
    rw [scan, if_neg visible, read]
    rfl
  | case4 place c cs visible item read next skipped ih =>
    rw [scan, if_neg visible, read]
    dsimp only
    rw [if_pos skipped, Place.after_shift, Place.afterAll_shift, ih]
  | case5 place c cs visible item read next kept =>
    rw [scan, if_neg visible, read]
    dsimp only
    rw [if_neg kept, Place.after_shift, Place.afterAll_shift]
    rfl

namespace Lexer

theorem tokens_shift (lines offset : Nat) (keep : Bool) (place : Place) (cs : List Char) :
    tokens ⟨keep, place.shift lines offset, cs⟩ =
      match tokens ⟨keep, place, cs⟩ with
      | .ok ts => .ok (ts.map (Token.shift lines offset))
      | .error error => .error (error.shift lines) := by
  induction place, cs using scan_induction keep with
  | @ended place cs ends =>
    have moved := scan_shift lines offset keep place cs
    rw [ends] at moved
    rw [tokens_of_ended moved, tokens_of_ended ends]
    rfl
  | @failed place cs _ fails =>
    have moved := scan_shift lines offset keep place cs
    rw [fails] at moved
    rw [tokens_of_failed moved, tokens_of_failed fails]
  | @found place cs token next rest finds ih =>
    have moved := scan_shift lines offset keep place cs
    rw [finds] at moved
    rw [tokens_of_found moved, tokens_of_found finds, ih]
    cases tokens ⟨keep, next, rest⟩ <;> rfl

end Lexer
end ActorScript
