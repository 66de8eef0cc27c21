import ActorScript.Script

/-!
Where the labels of a program stand. The table of labels is built line by line; what it holds in the
end is said here of the lines as a whole, so that no later proof follows the table while it grows.
-/
namespace ActorScript

namespace Line

def isCommand : Line → Bool
  | .command _ => true
  | _ => false

/-- For each line that declares the label, in order, how many lines above it hold commands, less
one. -/
def positionsOf (label : String) (lines : List Line) : List Int :=
  (List.range lines.length).filterMap fun i =>
    if lines[i]? = some (.label label) then some ((lines.take i).countP isCommand - 1) else none

theorem positionsOf_cons (label : String) (line : Line) (lines : List Line) :
    positionsOf label (line :: lines) =
      (if line = .label label then [-1] else []) ++
        (positionsOf label lines).map (· + if line.isCommand then 1 else 0) := by
  have tail : (List.range lines.length).filterMap
      ((fun i => if (line :: lines)[i]? = some (.label label) then
        some ((((line :: lines).take i).countP isCommand : Int) - 1) else none) ∘ Nat.succ) =
      (positionsOf label lines).map (· + if line.isCommand then 1 else 0) := by
    rw [positionsOf, List.map_filterMap]
    congr 1
    funext i
    simp only [Function.comp_apply, List.getElem?_cons_succ, List.take_succ_cons,
      List.countP_cons]
    by_cases declares : lines[i]? = some (.label label)
    · simp only [declares, if_true, Option.map_some, Option.some.injEq]
      split <;> push_cast <;> omega
    · simp [declares]
  rw [positionsOf, List.length_cons, List.range_succ_eq_map, List.filterMap_cons,
    List.filterMap_map, tail]
  by_cases declares : line = .label label <;> simp [declares]

theorem positionsOf_eq_nil {label : String} {lines : List Line} :
    positionsOf label lines = [] ↔ .label label ∉ lines := by
  induction lines with
  | nil => simp [positionsOf]
  | cons line lines ih =>
    rw [positionsOf_cons, List.append_eq_nil_iff, List.map_eq_nil_iff, ih, List.mem_cons, not_or]
    refine and_congr_left fun _ => ?_
    by_cases declares : line = .label label
    · simp [declares]
    · simpa [declares] using Ne.symm declares

theorem mem_positionsOf_bounds {label : String} {lines : List Line} {position : Int}
    (h : position ∈ positionsOf label lines) :
    -1 ≤ position ∧ position + 1 ≤ lines.countP isCommand := by
  obtain ⟨i, _, declares⟩ := List.mem_filterMap.1 h
  split at declares
  · have above : (lines.take i).countP isCommand ≤ lines.countP isCommand :=
      List.Sublist.countP_le (List.take_sublist i lines)
    have := Option.some.inj declares
    omega
  · simp at declares

end Line

namespace Program

open Line

theorem get?_addLabels (above : Nat) (labels : Table (List Int)) (lines : List Line)
    (label : String) :
    (addLabels above labels lines).get? label =
      if positionsOf label lines = [] then labels.get? label
      else some
        ((labels.get? label).getD [] ++ (positionsOf label lines).map (· + (above : Int))) := by
  induction lines generalizing above labels with
  | nil => rfl
  | cons line lines ih =>
    rw [positionsOf_cons]
    cases line with
    | command c =>
      rw [addLabels, ih]
      have shift : ((fun p : Int => p + (above : Int)) ∘ fun p => p + 1) =
          fun p => p + ((above + 1 : Nat) : Int) := by
        funext p
        simp only [Function.comp_apply]
        omega
      simp [isCommand, List.map_map, shift]
    | label name =>
      rw [addLabels, ih, Table.get?_insert]
      by_cases same : label = name
      · subst same
        simp only [isCommand, if_true, Option.getD_some]
        by_cases last : positionsOf label lines = []
        · simp [last, Int.sub_eq_add_neg, Int.add_comm]
        · simp [last, Int.sub_eq_add_neg, Int.add_comm]
      · have different : ¬ Line.label name = Line.label label := by
          intro eq
          exact same (Line.label.inj eq).symm
        simp [same, different, isCommand]
    | blank =>
      rw [addLabels, ih]
      simp [isCommand]

theorem get?_labels_ofLines (lines : List Line) (label : String) :
    (ofLines lines).labels.get? label =
      if .label label ∈ lines then some (positionsOf label lines) else none := by
  rw [ofLines, get?_addLabels]
  by_cases declared : .label label ∈ lines
  · have some_position : ¬ positionsOf label lines = [] :=
      fun none => positionsOf_eq_nil.1 none declared
    simp [declared, some_position]
  · simp [declared, positionsOf_eq_nil.2 declared]

theorem length_commands_ofLines (lines : List Line) :
    (ofLines lines).commands.length = lines.countP isCommand := by
  rw [ofLines, List.length_filterMap_eq_countP]
  apply List.countP_congr
  intro line _
  cases line <;> simp [isCommand]

end Program

namespace Script

/-- Every label stands within the script: a jump to it leads to a command or just past the last. -/
def LabelsWithin (s : Script) : Prop :=
  ∀ label positions, s.positions? label = some positions →
    ∀ position ∈ positions, -1 ≤ position ∧ position + 1 ≤ s.commands.length

theorem labelsWithin_ofText (name text : String) : (ofText name text).LabelsWithin := by
  intro label positions found position mem
  rw [ofText] at found ⊢
  split at found
  · rename_i program read
    obtain ⟨lines, rfl⟩ : ∃ lines, program = .ofLines lines := by
      rw [Program.ofText] at read
      split at read
      · simp at read
      · split at read
        · simp at read
        · exact ⟨_, (Except.ok.inj read).symm⟩
    rw [positions?, Program.get?_labels_ofLines] at found
    split at found
    · obtain rfl := Option.some.inj found
      rw [commands, Program.length_commands_ofLines]
      exact Line.mem_positionsOf_bounds mem
    · simp at found
  · simp [positions?, Program.empty] at found

end Script
end ActorScript
