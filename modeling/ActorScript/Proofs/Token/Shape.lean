import ActorScript.Proofs.Token.Stream

/-!
The values that tokens of each kind have. Whatever a reader yields has such a value, so that later
statements about tokens may speak of their kinds and values alone.
-/
namespace ActorScript

namespace Token

/-- The value is one that the kind of the token allows. Tokens without comments are meant. -/
def IsLexical (t : Token) : Prop :=
  match t.kind with
  | .word => ∃ c cs, t.value.toList = c :: cs ∧ isLetter c = true ∧ ∀ d ∈ cs, isWordChar d = true
  | .number => ∃ c cs, t.value.toList = c :: cs ∧ (∀ d ∈ c :: cs, d.isDigit = true) ∧
      decimalValue (c :: cs) < Nat.pow 2 63
  | .quoted => True
  | .operator => t.value ∈ ["<", ">", "<=", ">=", "=", ":"]
  | .punctuation => t.value = ","
  | .newline => t.value = "\n"
  | .comment => False

end Token

theorem isLetter_iff {c : Char} :
    isLetter c = true ↔ 65 ≤ c.val.toNat ∧ c.val.toNat ≤ 90 ∨
      97 ≤ c.val.toNat ∧ c.val.toNat ≤ 122 ∨ c = '_' := by
  show (decide (c.val ≥ 'A'.val ∧ c.val ≤ 'Z'.val) ||
    (decide (c.val ≥ 'a'.val) && decide (c.val ≤ 'z'.val)) || c == '_') = true ↔ _
  simp only [Bool.or_eq_true, Bool.and_eq_true, decide_eq_true_eq, beq_iff_eq, ge_iff_le,
    UInt32.le_iff_toNat_le, or_assoc]
  rfl

theorem isDigit_iff {c : Char} :
    c.isDigit = true ↔ 48 ≤ c.val.toNat ∧ c.val.toNat ≤ 57 := by
  show (decide (c.val ≥ '0'.val) && decide (c.val ≤ '9'.val)) = true ↔ _
  simp only [Bool.and_eq_true, decide_eq_true_eq, ge_iff_le, UInt32.le_iff_toNat_le]
  rfl

theorem isDigit_of_isLetter {c : Char} (h : isLetter c = true) : c.isDigit = false := by
  rw [Bool.eq_false_iff]
  intro digit
  have low := isDigit_iff.1 digit
  rcases isLetter_iff.1 h with upper | lower | rfl
  · omega
  · omega
  · simp at low

theorem of_mem_takeWhile {α : Type} {p : α → Bool} {l : List α} {a : α}
    (h : a ∈ l.takeWhile p) : p a = true := by
  have := List.all_takeWhile (p := p) (l := l)
  exact List.all_eq_true.1 this a h

theorem isLexical_of_read {c : Char} {cs : List Char} {item : Item}
    (h : Item.read c cs = .ok item) (place : Place) (no_comment : item.kind ≠ .comment) :
    Token.IsLexical ⟨item.kind, String.ofList item.value, place⟩ := by
  unfold Item.read at h
  split at h
  · rename_i feed
    obtain rfl := Except.ok.inj h
    rw [feed]
    rfl
  split at h
  · obtain rfl := Except.ok.inj h
    exact absurd rfl no_comment
  split at h
  · split at h
    · obtain rfl := Except.ok.inj h
      trivial
    · simp at h
  split at h
  · rename_i angle
    split at h <;> obtain rfl := Except.ok.inj h <;> rcases angle with rfl | rfl <;>
      simp [Token.IsLexical]
  split at h
  · rename_i sign
    obtain rfl := Except.ok.inj h
    rcases sign with rfl | rfl <;> simp [Token.IsLexical]
  split at h
  · rename_i comma
    obtain rfl := Except.ok.inj h
    rw [comma]
    rfl
  split at h
  · rename_i digit
    dsimp only at h
    split at h
    · rename_i small
      obtain rfl := Except.ok.inj h
      refine ⟨c, cs.takeWhile Char.isDigit, String.toList_ofList .., fun d mem => ?_, small⟩
      rcases List.mem_cons.1 mem with rfl | mem
      · exact digit
      · exact of_mem_takeWhile mem
    · simp at h
  split at h
  · rename_i letter
    obtain rfl := Except.ok.inj h
    exact ⟨c, cs.takeWhile isWordChar, String.toList_ofList .., letter, fun d => of_mem_takeWhile⟩
  · simp at h

theorem isLexical_of_scan {place next : Place} {cs rest : List Char} {token : Token}
    (h : scan false place cs = .found token next rest) : token.IsLexical := by
  fun_induction scan false place cs with
  | case1 => simp at h
  | case2 _ _ _ _ ih => exact ih h
  | case3 => simp at h
  | case4 _ _ _ _ _ _ _ _ ih => exact ih h
  | case5 place c cs _ item read _ kept =>
    obtain ⟨rfl, -, -⟩ := Scan.found.inj h
    exact isLexical_of_read read place (by simpa using kept)

theorem Lexer.isLexical_of_tokens {place : Place} {cs : List Char} {ts : List Token}
    (h : tokens ⟨false, place, cs⟩ = .ok ts) : ∀ t ∈ ts, t.IsLexical :=
  forall_mem_tokens (fun _ found => ⟨isLexical_of_scan found, trivial⟩) place trivial h

theorem isLexical_of_tokenize {text : String} {ts : List Token} (h : tokenize text = .ok ts) :
    ∀ t ∈ ts, t.IsLexical :=
  Lexer.isLexical_of_tokens h

end ActorScript
