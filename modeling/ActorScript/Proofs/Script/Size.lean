import ActorScript.Proofs.Grammar.Acceptance
import ActorScript.Proofs.Script.Lines
import Mathlib.Algebra.GroupWithZero.Nat
import Mathlib.Data.String.Basic

/-!
A script is no larger than its text. Each token takes a character, a command takes a token and a
label two, so that commands can be counted, and positions of labels too, by what counts the bytes of
the text.
-/
namespace ActorScript

open Sentence

theorem length_le_utf8ByteSize (s : String) : s.length ≤ s.utf8ByteSize := by
  rw [← String.ofList_toList (s := s), String.utf8ByteSize_ofList, String.length_ofList]
  induction s.toList with
  | nil => exact Nat.le_refl 0
  | cons c cs ih =>
    have := c.utf8Size_pos
    rw [String.utf8Len, List.length_cons]
    omega

theorem Lexer.length_tokens_le {keep : Bool} {place : Place} {cs : List Char} {ts : List Token}
    (lexed : tokens ⟨keep, place, cs⟩ = .ok ts) : ts.length ≤ cs.length := by
  induction place, cs using scan_induction keep generalizing ts with
  | ended ends =>
    rw [tokens_of_ended ends] at lexed
    obtain rfl := Except.ok.inj lexed
    exact Nat.zero_le _
  | failed fails => simp [tokens_of_failed fails] at lexed
  | found finds ih =>
    have shorter := length_lt_of_scan_eq_found finds
    obtain ⟨us, more, rfl⟩ := (tokens_of_found_eq_ok finds).1 lexed
    have := ih more
    rw [List.length_cons]
    omega

namespace Line

/-- A line of this kind has at least so many tokens. -/
def leastTokens : Line → Nat
  | .command _ => 1
  | .label _ => 2
  | .blank => 0

theorem leastTokens_le {line : Line} {ts : List Token} (spelled : ts ∈ line.spellings) :
    line.leastTokens ≤ ts.length := by
  cases line with
  | command command =>
    obtain ⟨_, _, _, _, rfl⟩ := mem_singleWord_mul.1 spelled
    simp [leastTokens]
  | label name =>
    obtain ⟨_, _, _, ⟨_, _, rfl⟩, rfl⟩ := mem_singleWord_mul.1 spelled
    exact Nat.le_refl 2
  | blank => exact Nat.zero_le _

theorem leastTokens_le_of_ofText {text : String} {line : Line} (read : ofText text = .ok line) :
    line.leastTokens ≤ text.length := by
  obtain ⟨ts, lexed, parsed⟩ := ofText_iff.1 read
  have spelled := mem_spellings_of_parse (isLexical_of_tokenize lexed) parsed
  calc line.leastTokens ≤ ts.length := leastTokens_le spelled
    _ ≤ text.toList.length := Lexer.length_tokens_le lexed
    _ = text.length := String.length_toList

variable {lines : List Line}

theorem countP_isCommand_le : lines.countP isCommand ≤ (lines.map leastTokens).sum := by
  induction lines with
  | nil => exact Nat.le_refl 0
  | cons line lines ih =>
    rw [List.countP_cons, List.map_cons, List.sum_cons]
    cases line <;> simp [isCommand, leastTokens] <;> omega

theorem length_positionsOf (label : String) (lines : List Line) :
    (positionsOf label lines).length = lines.count (.label label) := by
  induction lines with
  | nil => rfl
  | cons line lines ih =>
    rw [positionsOf_cons, List.length_append, List.length_map, ih, List.count_cons]
    by_cases declares : line = .label label
    · simp [declares, Nat.add_comm]
    · simp [declares]

theorem count_label_le (label : String) :
    2 * lines.count (.label label) ≤ (lines.map leastTokens).sum := by
  induction lines with
  | nil => exact Nat.le_refl 0
  | cons line lines ih =>
    rw [List.count_cons, List.map_cons, List.sum_cons]
    by_cases declares : line = .label label
    · simp [declares, leastTokens]
      omega
    · simp [declares]
      omega

end Line

theorem sum_length_lineTexts_le (text : String) :
    ((lineTexts text).map String.length).sum ≤ text.length := by
  have joined (parts : List (List Char)) :
      (parts.map List.length).sum ≤ (['\n'].intercalate parts).length := by
    induction parts with
    | nil => exact Nat.le_refl 0
    | cons part parts ih =>
      cases parts with
      | nil => simp
      | cons next parts =>
        rw [List.map_cons, List.sum_cons, List.intercalate_cons_cons, List.length_append,
          List.length_append]
        omega
  have parts := joined (text.toList.splitOn '\n')
  rw [List.intercalate_splitOn, String.length_toList] at parts
  rw [lineTexts, List.map_map]
  simpa [Function.comp_def] using parts

theorem sum_leastTokens_le {texts : List String} {lines : List Line}
    (each : List.Forall₂ (fun part line => Line.ofText part = .ok line) texts lines) :
    (lines.map Line.leastTokens).sum ≤ (texts.map String.length).sum := by
  induction each with
  | nil => exact Nat.le_refl 0
  | cons read _ ih => exact Nat.add_le_add (Line.leastTokens_le_of_ofText read) ih

/-- What a script is made of can be counted by what counts the bytes of its text. -/
structure Script.NoLarger (s : Script) (size : Nat) : Prop where
  commands_le : s.commands.length ≤ size
  positions_lt : ∀ label positions, s.positions? label = some positions → positions.length < size

theorem Script.noLarger_ofText (name text : String) :
    (ofText name text).NoLarger text.utf8ByteSize := by
  rw [ofText]
  cases read : Program.ofText text with
  | error error =>
    refine ⟨Nat.zero_le _, fun label positions found => ?_⟩
    simp [positions?, Program.empty] at found
  | ok program =>
    obtain ⟨lines, each, rfl⟩ := Program.ofText_eq_ok.1 read
    have size : (lines.map Line.leastTokens).sum ≤ text.utf8ByteSize :=
      ((sum_leastTokens_le each).trans (sum_length_lineTexts_le text)).trans
        (length_le_utf8ByteSize text)
    refine ⟨?_, fun label positions found => ?_⟩
    · rw [commands, Program.length_commands_ofLines]
      exact Line.countP_isCommand_le.trans size
    · rw [positions?, Program.get?_labels_ofLines] at found
      split at found
      · rename_i declared
        obtain rfl := Option.some.inj found
        have twice : 2 * lines.count (.label label) ≤ (lines.map Line.leastTokens).sum :=
          Line.count_label_le label
        have once := List.count_pos_iff.2 declared
        rw [Line.length_positionsOf]
        omega
      · simp at found

end ActorScript
