import ActorScript.Proofs.Context.Touch
import ActorScript.Proofs.Stage.Course
import Mathlib.Algebra.Group.Int.Defs

/-!
Counters that begin at zero or above never fall below zero. Scripts write no negative numbers; a
command takes from a counter only what it holds; and a sum that would pass the end of the range is
held there, so that it does not wrap to the other side.
-/
namespace ActorScript

theorem toInt_saturatingAdd (a b : Int64) :
    (saturatingAdd a b).toInt = max (-2 ^ 63) (min (a.toInt + b.toInt) (2 ^ 63 - 1)) := by
  unfold saturatingAdd
  rw [Int64.toInt_minValue, Int64.toInt_maxValue]
  dsimp only
  split
  · rw [Int64.toInt_minValue]
    omega
  · split
    · rw [Int64.toInt_maxValue]
      omega
    · rw [Int64.toInt_ofInt_of_le] <;> omega

def Table.InCredit (t : Table Int64) : Prop :=
  ∀ name value, t.get? name = some value → 0 ≤ value.toInt

theorem Table.inCredit_empty : (Table.empty : Table Int64).InCredit := by
  intro name value found
  simp at found

theorem Table.InCredit.insert {t : Table Int64} (h : t.InCredit) (name : String) {value : Int64}
    (covered : 0 ≤ value.toInt) : (t.insert name value).InCredit := by
  intro other found here
  rw [Table.get?_insert] at here
  split at here
  · rw [← Option.some.inj here]
    exact covered
  · exact h other found here

namespace Recorder

def Solvent (b : Recorder) : Prop := b.counters.InCredit

/-- The table that a command leaves of the counters: as it was, or with one entry set, raised, or
lowered by no more than it held. -/
inductive Books (command : Command) (b : Recorder) : Table Int64 → Prop where
  | same : Books command b b.counters
  | set (name : String) (value : Numeral) (writes : command = .set name value) :
      Books command b (b.counters.insert name value.toInt64)
  | give (name : String) (amount : Numeral) (writes : command = .give name amount) :
      Books command b
        (b.counters.insert name (saturatingAdd (Body.counter b name) amount.toInt64))
  | take (name : String) (amount : Numeral) (otherwise : Option String)
      (writes : command = .take name amount otherwise)
      (covered : amount.toInt64 ≤ Body.counter b name) :
      Books command b
        (b.counters.insert name (saturatingAdd (Body.counter b name) (-amount.toInt64)))

variable {b : Recorder} {command : Command} {counters : Table Int64}

theorem Solvent.counter (h : b.Solvent) (name : String) : 0 ≤ (Body.counter b name).toInt := by
  show 0 ≤ ((b.counters.get? name).getD 0).toInt
  cases found : b.counters.get? name with
  | none => exact Int.le_refl 0
  | some value => exact h name value found

theorem Books.inCredit (books : Books command b counters) (h : b.Solvent) :
    counters.InCredit := by
  cases books with
  | same => exact h
  | set name value =>
    refine Table.InCredit.insert h name ?_
    rw [value.toInt_toInt64]
    omega
  | give name amount =>
    refine Table.InCredit.insert h name ?_
    have held := h.counter name
    rw [toInt_saturatingAdd, amount.toInt_toInt64]
    omega
  | take name amount otherwise writes covered =>
    refine Table.InCredit.insert h name ?_
    rw [Int64.le_iff_toInt_le, amount.toInt_toInt64] at covered
    rw [toInt_saturatingAdd, amount.toInt_neg_toInt64]
    omega

/-- Of all commands, only those about counters write to the counters. -/
theorem books_of_touches {b' : Recorder} (touched : Run.Touches command b b') :
    Books command b b'.counters := by
  cases touched with
  | step d =>
    rw [step_eq]
    exact .same
  | put d tile =>
    rw [put_eq]
    split <;> exact .same
  | set counter value named => exact .set counter value named
  | give counter amount named => exact .give counter amount named
  | take counter amount otherwise named covered =>
    exact .take counter amount otherwise named covered
  | _ => exact .same

end Recorder

namespace Run

open Recorder

variable {r s : Run Recorder} {event : Event}

theorem solvent_next (h : r.body.Solvent) (ran : r.next? = some (event, s)) : s.body.Solvent := by
  obtain ⟨command, touched⟩ := touches_next ran
  exact (books_of_touches touched).inCredit h

theorem solvent_tick (h : r.body.Solvent) : r.tick.body.Solvent :=
  commands_induction (motive := fun s : Run Recorder => s.body.Solvent) solvent_next _ h

theorem Underway.solvent (h : r.body.Solvent) (underway : Underway r s) : s.body.Solvent := by
  induction underway with
  | begin => exact h
  | next _ ran _ ih => exact solvent_next ih ran

theorem solvent_pass (h : r.body.Solvent) (cycle number : Nat) (texts : List String) :
    (r.pass cycle number texts).body.Solvent := by
  show (if cycle ∣ number then r.tick else r).body.Solvent
  split
  · exact solvent_tick h
  · exact h

end Run

namespace Stage

def Solvent (s : Stage Recorder) : Prop := ∀ a ∈ s.actors, a.run.body.Solvent

variable {s : Stage Recorder}

theorem Solvent.perform (h : s.Solvent) (deed : Deed Recorder)
    (joins : ∀ body, deed.newcomer? = some body → body.Solvent) : (s.perform deed).Solvent := by
  have joined {newcomer : Actor Recorder} (solvent : newcomer.run.body.Solvent) :
      ∀ a ∈ s.actors ++ [newcomer], a.run.body.Solvent := by
    intro a mem
    rcases List.mem_append.1 mem with before | new
    · exact h a before
    · rw [List.mem_singleton.1 new]
      exact solvent
  cases deed with
  | spawn name scriptName text body cycle => exact joined (joins body rfl)
  | join name scriptName text generator body cycle => exact joined (joins body rfl)
  | send recipient text =>
    intro a mem
    obtain ⟨place, bound, rfl⟩ := List.mem_mapIdx.1 mem
    have before := h _ (List.getElem_mem bound)
    split <;> exact before
  | tick =>
    show ∀ a ∈ s.tick.actors, a.run.body.Solvent
    rw [actors_tick_eq_pass]
    intro a mem
    obtain ⟨place, bound, rfl⟩ := List.mem_mapIdx.1 mem
    exact Run.solvent_pass (h _ (List.getElem_mem bound)) _ _ _

theorem Solvent.course (deeds : List (Deed Recorder)) (h : s.Solvent)
    (joins : ∀ deed ∈ deeds, ∀ body, deed.newcomer? = some body → body.Solvent) :
    (s.course deeds).Solvent := by
  induction deeds generalizing s with
  | nil => exact h
  | cons deed deeds ih =>
    obtain ⟨first, others⟩ := List.forall_mem_cons.1 joins
    exact ih (h.perform deed first) others

/-- Whatever is done with a stage, no counter of any actor falls below zero, between ticks or within
one, if none was below zero when its actor joined. -/
theorem counters_never_negative (seed : UInt64) (deeds : List (Deed Recorder))
    (joins : ∀ deed ∈ deeds, ∀ body, deed.newcomer? = some body → body.Solvent) :
    ∀ a ∈ ((Stage.empty seed).course deeds).actors, a.run.body.Solvent ∧
      ∀ s, Run.Underway a.run s → s.body.Solvent := by
  have begun : Stage.Solvent (.empty seed) := fun a mem => absurd mem List.not_mem_nil
  intro a mem
  have solvent := Solvent.course deeds begun joins a mem
  exact ⟨solvent, fun s underway => underway.solvent solvent⟩

/-- A miser who is asked for more than the counter holds, and one whose counter is full. -/
theorem miser_stays_solvent :
    let miser : Recorder := { Recorder.named "miser" with counters := .insert .empty "gold" 5 }
    let text := "take gold 7\ntake gold 5\nset gems 9223372036854775807\ngive gems 9\ntake gold 1"
    let deeds : List (Deed Recorder) := [.spawn "miser" "miser" text miser 1, .tick, .tick]
    (∀ deed ∈ deeds, ∀ body, deed.newcomer? = some body → body.Solvent) ∧
      ∀ a ∈ ((Stage.empty 42).course deeds).actors, a.run.body.Solvent := by
  intro miser text deeds
  have rich : miser.Solvent := Table.inCredit_empty.insert "gold" (by decide)
  have joins : ∀ deed ∈ deeds, ∀ body, deed.newcomer? = some body → body.Solvent := by
    simpa [deeds, Deed.newcomer?] using rich
  exact ⟨joins, fun a mem => (counters_never_negative 42 deeds joins a mem).1⟩

end Stage
end ActorScript
