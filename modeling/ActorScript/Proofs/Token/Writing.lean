import ActorScript.Command.Source
import ActorScript.Proofs.Token.RoundTrip

/-!
Texts that are put together from parts. A part is read into its tokens wherever it stands, if a
blank or nothing follows, and so are parts with blanks between them.
-/
namespace ActorScript

/-- The text is read into tokens that say the same as these. -/
def Yields (text : String) (ts : List Token) : Prop :=
  ∀ (place : Place) (rest : List Char), (∀ d ∈ rest.head?, d = ' ') →
    ∃ next us, us.map Token.spelling = ts.map Token.spelling ∧
      Lexer.tokens ⟨false, place, text.toList ++ rest⟩ =
        (Lexer.tokens ⟨false, next, rest⟩).map (us ++ ·)

/-- Each text in turn yields its part of the tokens. -/
inductive YieldAll : List String → List Token → Prop where
  | nil : YieldAll [] []
  | cons {text : String} {texts : List String} {ts us : List Token} (first : Yields text ts)
    (others : YieldAll texts us) : YieldAll (text :: texts) (ts ++ us)

section Yields

variable {text : String} {texts more : List String} {ts us : List Token}

theorem tokenize_of_yields (yields : Yields text ts) :
    ∃ us, tokenize text = .ok us ∧ us.map Token.spelling = ts.map Token.spelling := by
  obtain ⟨next, us, same, read⟩ := yields .start [] (by simp)
  refine ⟨us, ?_, same⟩
  rw [List.append_nil, Lexer.tokens_nil] at read
  rw [tokenize_eq, read]
  simp [Except.map]

theorem yields_nothing : Yields "" [] := by
  intro place rest _
  refine ⟨place, [], rfl, ?_⟩
  cases read : Lexer.tokens ⟨false, place, rest⟩ <;> simp [Except.map, read]

theorem yields_written {t : Token} (lexical : t.IsLexical) : Yields t.written [t] := by
  intro place rest blank
  obtain ⟨next, found⟩ := scan_written lexical place rest blank
  exact ⟨next, [⟨t.kind, t.value, place⟩], rfl, Lexer.tokens_of_found found⟩

theorem Yields.blank {first second : String} (yields : Yields first ts)
    (yields' : Yields second us) :
    Yields (first ++ " " ++ second) (ts ++ us) := by
  intro place rest blank
  obtain ⟨next, vs, same, read⟩ := yields place (' ' :: (second.toList ++ rest)) (by simp)
  obtain ⟨next', vs', same', read'⟩ := yields' (next.after ' ') rest blank
  refine ⟨next', vs ++ vs', by rw [List.map_append, List.map_append, same, same'], ?_⟩
  have parts : (first ++ " " ++ second).toList ++ rest =
      first.toList ++ ' ' :: (second.toList ++ rest) := by simp
  rw [parts, read, Lexer.tokens_blank (by decide), read']
  cases Lexer.tokens ⟨false, next', rest⟩ <;> simp [Except.map]

theorem Yields.after_comma (yields : Yields text ts) (line : String) :
    Yields (Token.quote line ++ ", " ++ text)
      (⟨.quoted, line, .start⟩ :: ⟨.punctuation, ",", .start⟩ :: ts) := by
  intro place rest blank
  obtain ⟨behind, found⟩ := scan_quoted line place (',' :: ' ' :: (text.toList ++ rest))
  have comma : Yields "," [⟨.punctuation, ",", .start⟩] := yields_written rfl
  obtain ⟨next, us, same, read⟩ := comma.blank yields behind rest blank
  refine ⟨next, ⟨.quoted, line, place⟩ :: us, ?_, ?_⟩
  · rw [List.map_cons, same]
    rfl
  · have parts : (Token.quote line ++ ", " ++ text).toList ++ rest =
        (Token.quote line).toList ++ ',' :: ' ' :: (text.toList ++ rest) := by simp
    have parts' : ("," ++ " " ++ text).toList ++ rest = ',' :: ' ' :: (text.toList ++ rest) := by
      simp
    rw [parts, Lexer.tokens_of_found found, ← parts', read]
    cases Lexer.tokens ⟨false, next, rest⟩ <;> simp [Except.map]

theorem yields_words (yield : YieldAll texts ts) : Yields (sourceWords texts) ts := by
  induction yield with
  | nil => exact yields_nothing
  | @cons text texts ts us first others ih =>
    cases others with
    | nil =>
      rw [List.append_nil]
      exact first
    | @cons next texts ts' us' second others =>
      have joined : sourceWords (text :: next :: texts) =
          text ++ " " ++ sourceWords (next :: texts) := by
        rw [← String.toList_inj]
        simp [sourceWords]
      rw [joined]
      exact first.blank ih

theorem YieldAll.append (yield : YieldAll texts ts) (yield' : YieldAll more us) :
    YieldAll (texts ++ more) (ts ++ us) := by
  induction yield with
  | nil => exact yield'
  | cons first others ih =>
    rw [List.cons_append, List.append_assoc]
    exact .cons first ih

end Yields

end ActorScript
