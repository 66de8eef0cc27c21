import ActorScript.Token.Lexer

/-!
The tokens of a text as a stream: what one scan finds, and then the tokens of the rest. Whatever is
shown of all tokens of a text follows one scan after the other, along the text that is left.
-/
namespace ActorScript

theorem scan_of_read {keep : Bool} {place : Place} {c : Char} {cs : List Char} (item : Item)
    (visible : isBlank c = false) (read : Item.read c cs = .ok item)
    (kept : (item.kind == .comment && !keep) = false) :
    scan keep place (c :: cs) = .found ⟨item.kind, String.ofList item.value, place⟩
      ((place.after c).afterAll (cs.take item.extra)) (cs.drop item.extra) := by
  rw [scan, if_neg (by simp [visible]), read]
  exact if_neg (by simpa using kept)

namespace Lexer

def tokens (l : Lexer) : Except LexError (List Token) := l.items.mapM id

variable {keep : Bool} {place next : Place} {cs rest : List Char} {token : Token} {error : LexError}

theorem items_of_end {l : Lexer} (h : l.next? = none) : l.items = [] := by
  rw [items]
  split
  · rfl
  · rename_i some_next
    simp [h] at some_next

theorem tokens_of_ended (h : scan keep place cs = .ended) :
    tokens ⟨keep, place, cs⟩ = .ok [] := by
  have none_next : next? ⟨keep, place, cs⟩ = none := by rw [next?, h]
  rw [tokens, items_of_end none_next]
  rfl

theorem items_of_next {l l' : Lexer} {item : Except LexError Token}
    (h : l.next? = some (item, l')) : l.items = item :: l'.items := by
  rw [items]
  split
  · rename_i none_next
    simp [none_next] at h
  · rename_i some_next
    rw [h] at some_next
    obtain ⟨rfl, rfl⟩ := Prod.mk.inj (Option.some.inj some_next)
    rfl

theorem tokens_of_failed (h : scan keep place cs = .failed error) :
    tokens ⟨keep, place, cs⟩ = .error error := by
  have first : next? ⟨keep, place, cs⟩ = some (.error error, ⟨keep, place, []⟩) := by
    rw [next?, h]
  rw [tokens, items_of_next first, List.mapM_cons]
  rfl

theorem tokens_of_found (h : scan keep place cs = .found token next rest) :
    tokens ⟨keep, place, cs⟩ = (tokens ⟨keep, next, rest⟩).map (token :: ·) := by
  have first : next? ⟨keep, place, cs⟩ = some (.ok token, ⟨keep, next, rest⟩) := by
    rw [next?, h]
  rw [tokens, items_of_next first, List.mapM_cons, tokens]
  cases (items ⟨keep, next, rest⟩).mapM id <;> rfl

theorem tokens_of_found_eq_ok {ts : List Token} (h : scan keep place cs = .found token next rest) :
    tokens ⟨keep, place, cs⟩ = .ok ts ↔
      ∃ us, tokens ⟨keep, next, rest⟩ = .ok us ∧ token :: us = ts := by
  rw [tokens_of_found h]
  cases tokens ⟨keep, next, rest⟩ <;> simp [Except.map]

/-- A text is at its end, or has an error, or has a token before a text of which the same is shown.
-/
@[elab_as_elim]
theorem scan_induction (keep : Bool) {motive : Place → List Char → Prop}
    (ended : ∀ {place cs}, scan keep place cs = .ended → motive place cs)
    (failed : ∀ {place cs error}, scan keep place cs = .failed error → motive place cs)
    (found : ∀ {place cs token next rest}, scan keep place cs = .found token next rest →
      motive next rest → motive place cs)
    (place : Place) (cs : List Char) : motive place cs := by
  induction length : cs.length using Nat.strongRecOn generalizing place cs with
  | ind n ih =>
    subst length
    cases scanned : scan keep place cs with
    | ended => exact ended scanned
    | failed error => exact failed scanned
    | found token next rest =>
      exact found scanned (ih rest.length (length_lt_of_scan_eq_found scanned) next rest rfl)

theorem tokens_of_scan_eq {keep : Bool} {place place' : Place} {cs cs' : List Char}
    (h : scan keep place cs = scan keep place' cs') :
    tokens ⟨keep, place, cs⟩ = tokens ⟨keep, place', cs'⟩ := by
  cases found : scan keep place' cs' with
  | ended => rw [tokens_of_ended found, tokens_of_ended (h.trans found)]
  | failed error => rw [tokens_of_failed found, tokens_of_failed (h.trans found)]
  | found token next rest => rw [tokens_of_found found, tokens_of_found (h.trans found)]

theorem tokens_blank {keep : Bool} {place : Place} {c : Char} (blank : isBlank c = true)
    (cs : List Char) :
    tokens ⟨keep, place, c :: cs⟩ = tokens ⟨keep, place.after c, cs⟩ := by
  apply tokens_of_scan_eq
  rw [scan, if_pos blank]

theorem tokens_nil (keep : Bool) (place : Place) : tokens ⟨keep, place, []⟩ = .ok [] :=
  tokens_of_ended (scan.eq_def ..)

theorem tokens_of_read {c : Char} (item : Item) {ts : List Token} (visible : isBlank c = false)
    (read : Item.read c cs = .ok item) (kept : (item.kind == .comment && !keep) = false)
    (later : tokens ⟨keep, (place.after c).afterAll (cs.take item.extra), cs.drop item.extra⟩ =
      .ok ts) :
    tokens ⟨keep, place, c :: cs⟩ = .ok (⟨item.kind, String.ofList item.value, place⟩ :: ts) := by
  rw [tokens_of_found (scan_of_read item visible read kept), later]
  rfl

end Lexer

theorem tokenize_eq (text : String) :
    tokenize text = Lexer.tokens ⟨false, .start, text.toList⟩ := rfl

namespace Lexer

/-- What holds of every token that a scan can find holds of all tokens of a text. A scan may count
on what holds of the text if the same holds of what it leaves. -/
theorem forall_mem_tokens {keep : Bool} {invariant : List Char → Prop} {motive : Token → Prop}
    (scanned : ∀ {place next cs rest token}, invariant cs →
      scan keep place cs = .found token next rest → motive token ∧ invariant rest)
    (place : Place) {cs : List Char} (holds : invariant cs) {ts : List Token}
    (h : tokens ⟨keep, place, cs⟩ = .ok ts) : ∀ t ∈ ts, motive t := by
  induction place, cs using scan_induction keep generalizing ts with
  | ended ends =>
    rw [tokens_of_ended ends] at h
    obtain rfl := Except.ok.inj h
    simp
  | failed fails => simp [tokens_of_failed fails] at h
  | found finds ih =>
    obtain ⟨first, left⟩ := scanned holds finds
    obtain ⟨us, more, rfl⟩ := (tokens_of_found_eq_ok finds).1 h
    exact List.forall_mem_cons.2 ⟨first, ih left more⟩

theorem offset_of_scan {keep : Bool} {place next : Place} {cs rest : List Char} {token : Token}
    (h : scan keep place cs = .found token next rest) :
    place.offset ≤ token.place.offset ∧ token.place.offset < next.offset := by
  have farther (p : Place) (c : Char) (ds : List Char) :
      ((p.after c).afterAll ds).offset = p.offset + (ds.length + 1) :=
    p.offset_afterAll (c :: ds)
  fun_induction scan keep place cs with
  | case1 => simp at h
  | case2 place c cs _ ih =>
    have later := ih h
    have step := farther place c []
    rw [Place.afterAll_nil] at step
    omega
  | case3 => simp at h
  | case4 place c cs _ item _ next' _ ih =>
    have later := ih h
    have step : next'.offset = _ := farther place c (cs.take item.extra)
    omega
  | case5 place c cs _ item _ next' _ =>
    obtain ⟨rfl, rfl, -⟩ := Scan.found.inj h
    have step : next'.offset = _ := farther place c (cs.take item.extra)
    constructor
    · exact Nat.le_refl _
    · show place.offset < next'.offset
      omega

theorem ascending_of_tokens {keep : Bool} (place : Place) {cs : List Char} {ts : List Token}
    (h : tokens ⟨keep, place, cs⟩ = .ok ts) :
    (∀ t ∈ ts, place.offset ≤ t.place.offset) ∧
      ts.Pairwise fun t u => t.place.offset < u.place.offset := by
  induction place, cs using scan_induction keep generalizing ts with
  | ended ends =>
    rw [tokens_of_ended ends] at h
    obtain rfl := Except.ok.inj h
    simp
  | failed fails => simp [tokens_of_failed fails] at h
  | found finds ih =>
    obtain ⟨first, farther⟩ := offset_of_scan finds
    obtain ⟨us, more, rfl⟩ := (tokens_of_found_eq_ok finds).1 h
    obtain ⟨behind, ascending⟩ := ih more
    refine ⟨List.forall_mem_cons.2 ⟨first, fun t mem => ?_⟩,
      List.pairwise_cons.2 ⟨fun t mem => ?_, ascending⟩⟩
    · have := behind t mem
      omega
    · have := behind t mem
      omega

end Lexer
end ActorScript
