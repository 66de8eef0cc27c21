import ActorScript.Listing
import ActorScript.Proofs.Listing.Command
import ActorScript.Proofs.Script.Lines
import ActorScript.Proofs.Grammar.Acceptance
import ActorScript.Proofs.Table.Total

/-!
A listing loses nothing. Line by line it is told apart where the commands end and where the labels
are; each command is read back from its form, and the positions of a label from their numbers. So
scripts of one name that are listed alike have the same commands and the same labels.
-/
namespace ActorScript

open Term

variable {r r' : List Char}

/-- The characters of lines, each with its line feed. -/
def writtenLines (lines : List String) : List Char :=
  lines.flatMap fun line => line.toList ++ ['\n']

theorem writtenLines_append (lines others : List String) :
    writtenLines (lines ++ others) = writtenLines lines ++ writtenLines others :=
  List.flatMap_append

theorem writtenLines_cons (line : String) (lines : List String) :
    writtenLines (line :: lines) = line.toList ++ '\n' :: writtenLines lines := by
  simp [writtenLines]

theorem Script.toList_listing (s : Script) : s.listing.toList = writtenLines s.listingLines := by
  rw [listing, String.toList_join, List.flatMap_map]
  simp [writtenLines]

theorem closes_feed : Closes ('\n' :: r) := ⟨by simp [ends_cons], by simp⟩

section Commands

theorem indexColumn_begins (n : Nat) :
    ∃ c cs, (indexColumn n).toList = c :: cs ∧ (c = ' ' ∨ c.isDigit = true) := by
  have digits : (toString n).toList = Nat.toDigits 10 n := by
    rw [Nat.toString_eq_repr, Nat.toList_repr]
  have each : ∀ c ∈ (indexColumn n).toList, c = ' ' ∨ c.isDigit = true := by
    intro c mem
    rw [indexColumn, String.toList_append, String.toList_ofList, digits] at mem
    rcases List.mem_append.1 mem with blank | digit
    · exact .inl (List.eq_of_mem_replicate blank)
    · exact .inr (Nat.isDigit_of_mem_toDigits (by decide) (by decide) digit)
  cases column : (indexColumn n).toList with
  | nil =>
    rw [indexColumn, String.toList_append, digits, List.append_eq_nil_iff] at column
    exact absurd column.2 Nat.toDigits_ne_nil
  | cons c cs => exact ⟨c, cs, rfl, each c (by simp [column])⟩

/-- The text does not begin with a line that has an index. -/
def Unindexed (r : List Char) : Prop := ∀ c ∈ r[2]?, c ≠ ' ' ∧ c.isDigit = false

theorem not_unindexed (first : Nat) (c : Command) (cs : List Command) (r : List Char) :
    ¬Unindexed (writtenLines (Script.commandLines first (c :: cs)) ++ r) := by
  obtain ⟨d, ds, column, indexed⟩ := indexColumn_begins first
  intro unindexed
  obtain ⟨no_blank, no_digit⟩ := unindexed d (by
    simp [Script.commandLines, writtenLines_cons, column])
  rcases indexed with rfl | digit
  · exact no_blank rfl
  · rw [digit] at no_digit
    cases no_digit

theorem writtenLines_no_commands (first : Nat) (r : List Char) :
    writtenLines (Script.commandLines first []) ++ r = r := rfl

theorem writtenLines_commandLines (first : Nat) (c : Command) (cs : List Command)
    (r : List Char) :
    writtenLines (Script.commandLines first (c :: cs)) ++ r =
      "  ".toList ++ ((indexColumn first).toList ++ ("  ".toList ++ (c.form.toList ++
        '\n' :: (writtenLines (Script.commandLines (first + 1) cs) ++ r)))) := by
  rw [Script.commandLines, writtenLines_cons]
  simp only [String.toList_append, List.append_assoc, List.cons_append]

theorem commandLines_settled {first : Nat} {cs ds : List Command} (stops : Unindexed r)
    (stops' : Unindexed r')
    (same : writtenLines (Script.commandLines first cs) ++ r =
      writtenLines (Script.commandLines first ds) ++ r') : cs = ds ∧ r = r' := by
  induction cs generalizing first ds with
  | nil =>
    cases ds with
    | nil => exact ⟨rfl, same⟩
    | cons d ds =>
      rw [writtenLines_no_commands] at same
      rw [same] at stops
      exact absurd stops (not_unindexed first d ds r')
  | cons c cs ih =>
    cases ds with
    | nil =>
      rw [writtenLines_no_commands] at same
      rw [← same] at stops'
      exact absurd stops' (not_unindexed first c cs r)
    | cons d ds =>
      rw [writtenLines_commandLines, writtenLines_commandLines] at same
      have forms := List.append_cancel_left (List.append_cancel_left (List.append_cancel_left same))
      obtain ⟨rfl, rest⟩ := Command.form_settled closes_feed.ends closes_feed.ends forms
      obtain ⟨rfl, rfl⟩ := ih (List.cons.inj rest).2
      exact ⟨rfl, rfl⟩

end Commands

section Labels

theorem toList_positions (positions : List Int) :
    (String.intercalate ", " (positions.map toString)).toList =
      row (positions.map fun p => .word (toString p)) := by
  rw [← toList_intercalate_forms, forms_eq_map, List.map_map]
  rfl

section Positions

theorem toList_repr_negSucc (n : Nat) :
    (Int.negSucc n).repr.toList = '-' :: Nat.toDigits 10 (n + 1) := by
  rw [Int.repr, String.toList_append, Nat.toList_repr]
  rfl

theorem toDigits_injective : Function.Injective (Nat.toDigits 10) :=
  Function.LeftInverse.injective Token.decimalValue_toDigits

/-- A sign is no digit, so that a number is told from its text, whether it is negative or not. -/
theorem repr_injective : Function.Injective Int.repr := by
  have apart (n m : Nat) : (Int.ofNat n).repr ≠ (Int.negSucc m).repr := by
    intro same
    have sign : '-' ∈ Nat.toDigits 10 n := by
      rw [← Nat.toList_repr, show n.repr = (Int.negSucc m).repr from same, toList_repr_negSucc]
      exact List.mem_cons_self
    exact absurd (Nat.isDigit_of_mem_toDigits (by decide) (by decide) sign) (by decide)
  intro p q same
  cases p with
  | ofNat n =>
    cases q with
    | ofNat m =>
      have digits : Nat.toDigits 10 n = Nat.toDigits 10 m := by
        rw [← Nat.toList_repr, ← Nat.toList_repr, show n.repr = m.repr from same]
      rw [toDigits_injective digits]
    | negSucc m => exact absurd same (apart n m)
  | negSucc n =>
    cases q with
    | ofNat m => exact absurd same.symm (apart m n)
    | negSucc m =>
      have digits := congrArg String.toList same
      rw [toList_repr_negSucc, toList_repr_negSucc] at digits
      rw [Nat.succ.inj (toDigits_injective (List.cons.inj digits).2)]

theorem isProper_position (p : Int) : (Term.word (toString p)).IsProper := by
  rw [isProper_word, Int.toString_eq_repr]
  cases p with
  | ofNat n => exact isName_repr n
  | negSucc n =>
    have spelled := toList_repr_negSucc n
    constructor
    · intro c mem
      rw [spelled] at mem
      rcases List.mem_cons.1 mem with rfl | digit
      · decide
      · exact (isName_repr (n + 1)).1 c (by rwa [Nat.toList_repr])
    · intro empty
      rw [empty] at spelled
      cases spelled

theorem positions_settled {ps qs : List Int} (closes : Closes r) (closes' : Closes r')
    (same : row (ps.map fun p => .word (toString p)) ++ r =
      row (qs.map fun q => .word (toString q)) ++ r') : ps = qs ∧ r = r' := by
  have proper (ps : List Int) : ∀ t ∈ ps.map fun p => Term.word (toString p), t.IsProper := by
    intro t mem
    obtain ⟨p, -, rfl⟩ := List.mem_map.1 mem
    exact isProper_position p
  obtain ⟨terms, rest⟩ :=
    row_settled (proper ps) (fun t mem => (proper ps t mem).settles) (proper qs) closes closes' same
  have injective : Function.Injective fun p : Int => Term.word (toString p) :=
    fun p q same => repr_injective (Term.word.inj same)
  exact ⟨List.map_injective_iff.2 injective terms, rest⟩

end Positions

/-- The line of one label. -/
def labelLine (label : String × List Int) : String :=
  "    :" ++ label.1 ++ " -> " ++ String.intercalate ", " (label.2.map toString)

theorem writtenLines_labelLine (label : String × List Int) (labels : List (String × List Int)) :
    writtenLines ((label :: labels).map labelLine) =
      "    :".toList ++ (label.1.toList ++ (' ' :: ("-> ".toList ++
        (row (label.2.map fun p => .word (toString p)) ++
          '\n' :: writtenLines (labels.map labelLine))))) := by
  rw [List.map_cons, writtenLines_cons, labelLine, String.toList_append, toList_positions]
  simp

theorem name_settled {name name' : String} (plain : ' ' ∉ name.toList) (plain' : ' ' ∉ name'.toList)
    (same : name.toList ++ ' ' :: r = name'.toList ++ ' ' :: r') : name = name' ∧ r = r' := by
  have upto {name : String} {r : List Char} (plain : ' ' ∉ name.toList) :
      (name.toList ++ ' ' :: r).takeWhile (· ≠ ' ') = name.toList :=
    takeWhile_append_stop (fun c mem => decide_eq_true fun blank => plain (blank ▸ mem)) (by simp)
  have names := congrArg (List.takeWhile (· ≠ ' ')) same
  rw [upto plain, upto plain'] at names
  rw [names] at same
  exact ⟨String.toList_inj.1 names, (List.cons.inj (List.append_cancel_left same)).2⟩

theorem labelLines_settled {labels labels' : List (String × List Int)}
    (plain : ∀ l ∈ labels, ' ' ∉ l.1.toList) (plain' : ∀ l ∈ labels', ' ' ∉ l.1.toList)
    (same : writtenLines (labels.map labelLine) = writtenLines (labels'.map labelLine)) :
    labels = labels' := by
  induction labels generalizing labels' with
  | nil =>
    cases labels' with
    | nil => rfl
    | cons label' labels' =>
      rw [writtenLines_labelLine] at same
      cases same
  | cons label labels ih =>
    cases labels' with
    | nil =>
      rw [writtenLines_labelLine] at same
      cases same
    | cons label' labels' =>
      obtain ⟨first, others⟩ := List.forall_mem_cons.1 plain
      obtain ⟨first', others'⟩ := List.forall_mem_cons.1 plain'
      rw [writtenLines_labelLine, writtenLines_labelLine] at same
      obtain ⟨names, arrow⟩ := name_settled first first' (List.append_cancel_left same)
      obtain ⟨positions, rest⟩ :=
        positions_settled closes_feed closes_feed (List.append_cancel_left arrow)
      rw [ih others others' (List.cons.inj rest).2, Prod.ext names positions]

theorem Script.labelLines_eq (labels : Table (List Int)) :
    labelLines labels =
      if labels.isEmpty then [] else "  labels:" :: labels.entries.map labelLine := rfl

theorem unindexed_labelLines (labels : Table (List Int)) :
    Unindexed (writtenLines (Script.labelLines labels ++ [""])) := by
  rw [Script.labelLines_eq]
  split
  · exact nofun
  · rw [List.cons_append, writtenLines_cons]
    intro c third
    obtain rfl : 'l' = c := Option.some.inj third
    decide

/-- Tables whose names have no blanks are listed alike only if they are the same. -/
theorem labels_settled {labels labels' : Table (List Int)}
    (plain : ∀ l ∈ labels.entries, ' ' ∉ l.1.toList)
    (plain' : ∀ l ∈ labels'.entries, ' ' ∉ l.1.toList)
    (same : writtenLines (Script.labelLines labels) = writtenLines (Script.labelLines labels')) :
    labels = labels' := by
  have none_listed {labels : Table (List Int)} (empty : labels.isEmpty = true) :
      labels.entries = [] := List.isEmpty_iff.1 empty
  rw [Script.labelLines_eq, Script.labelLines_eq] at same
  apply Table.ext
  split at same <;> split at same
  · rename_i empty empty'
    rw [none_listed empty, none_listed empty']
  · cases same
  · cases same
  · rw [writtenLines_cons, writtenLines_cons] at same
    exact labelLines_settled plain plain' (List.cons.inj (List.append_cancel_left same)).2

theorem Line.label_plain {text name : String} (read : Line.ofText text = .ok (.label name)) :
    ' ' ∉ name.toList := by
  obtain ⟨ts, lexed, parsed⟩ := Line.ofText_iff.1 read
  have lexical := isLexical_of_tokenize lexed
  have spelled : ts ∈ Sentence.sign ":" * Sentence.name name :=
    Line.mem_spellings_of_parse lexical parsed
  have named := (Sentence.Writable.of_mul ⟨ts, spelled, lexical⟩).2
  obtain ⟨c, cs, letters, letter, inside⟩ :=
    (Sentence.written_name named).lexical (Token.ofWord name) List.mem_cons_self
  have letters : name.toList = c :: cs := letters
  rw [letters]
  intro mem
  rcases List.mem_cons.1 mem with rfl | mem
  · cases letter
  · cases inside ' ' mem

theorem Program.labels_plain {text : String} {program : Program}
    (read : Program.ofText text = .ok program) :
    ∀ l ∈ program.labels.entries, ' ' ∉ l.1.toList := by
  obtain ⟨lines, each, rfl⟩ := Program.ofText_eq_ok.1 read
  rintro ⟨name, positions⟩ mem
  have found : (ofLines lines).labels.get? name = some positions :=
    lookup_of_mem (ofLines lines).labels.ascending mem
  rw [get?_labels_ofLines] at found
  split at found
  · rename_i declared
    obtain ⟨i, below, at_i⟩ := List.getElem_of_mem declared
    have part := each.get (by rw [each.length_eq]; exact below) below
    rw [List.get_eq_getElem, List.get_eq_getElem, at_i] at part
    exact Line.label_plain part
  · cases found

end Labels

namespace Script

variable {name text text' : String}

theorem exists_program (runs : (ofText name text).isExecutable = true) :
    ∃ program, Program.ofText text = .ok program ∧ ofText name text = ⟨name, program, none⟩ := by
  rw [ofText] at runs ⊢
  cases read : Program.ofText text with
  | error error =>
    rw [read] at runs
    cases runs
  | ok program => exact ⟨program, rfl, rfl⟩

theorem toList_listing_of_program (name : String) (program : Program) :
    (Script.mk name program none).listing.toList =
      ("== " ++ name ++ " ==").toList ++ '\n' :: (writtenLines (commandLines 0 program.commands) ++
        writtenLines (labelLines program.labels ++ [""])) := by
  rw [toList_listing, listingLines, List.cons_append, writtenLines_cons, ← writtenLines_append,
    ← List.append_assoc]
  rfl

/-- Two scripts of one name that can be run and are listed alike have the same commands and the
same labels, whatever strings, numbers, conditions and directions are in them. -/
theorem listing_loses_nothing (runs : (ofText name text).isExecutable = true)
    (runs' : (ofText name text').isExecutable = true)
    (same : (ofText name text).listing = (ofText name text').listing) :
    (ofText name text).commands = (ofText name text').commands ∧
      (ofText name text).program.labels = (ofText name text').program.labels := by
  obtain ⟨program, read, script⟩ := exists_program runs
  obtain ⟨program', read', script'⟩ := exists_program runs'
  rw [script, script'] at same ⊢
  have written := congrArg String.toList same
  rw [toList_listing_of_program, toList_listing_of_program] at written
  obtain ⟨commands, rest⟩ := commandLines_settled (unindexed_labelLines program.labels)
    (unindexed_labelLines program'.labels) (List.cons.inj (List.append_cancel_left written)).2
  rw [writtenLines_append, writtenLines_append] at rest
  exact ⟨commands, labels_settled (Program.labels_plain read) (Program.labels_plain read')
    (List.append_cancel_right rest)⟩

/-- Case, comments and empty lines are all that these two texts differ in. -/
theorem listed_alike_whatever_case :
    let text := "SAY \"a\"\n:Top"
    let text' := "say \"a\" // once\n\n:top"
    (ofText "door" text).commands = (ofText "door" text').commands ∧
      (ofText "door" text).program.labels = (ofText "door" text').program.labels :=
  listing_loses_nothing (by decide +kernel) (by decide +kernel) (by decide +kernel)

end Script
end ActorScript
