import ActorScript.Proofs.Context.Passage
import ActorScript.Proofs.Table.Total
import ActorScript.Recorder

/-!
The tiles that a recorder knows of are conserved, as long as all of them can be counted in one word.
Changing one thing into another moves a count from one name to the other, and nothing else that a
script does touches the counts: so the number of all tiles is the same in every state of a run, and
bounds every sum that a change computes. Where it does not fit, a sum may wrap around, and tiles are
lost.
-/
namespace ActorScript

open Relation

namespace Recorder

variable {source target : String} {things : Table UInt64} {b b' : Recorder} {command : Command}

def tiles (b : Recorder) : Nat :=
  (b.things.names.map fun thing => (Body.countTiles b ⟨none, thing⟩).toNat).sum

theorem tiles_eq_total (b : Recorder) : b.tiles = b.things.total := b.things.sum_get?_names

/-- The numbers that are added where the tiles of one thing come to count for another: those of the
other, once the first is taken out of the table, and those of the first if it was there. -/
def addends? (source target : String) (things : Table UInt64) : Option (UInt64 × UInt64) :=
  (things.get? source).map fun n => (((things.erase source).get? target).getD 0, n)

theorem changeThings_eq (source target : String) (things : Table UInt64) :
    changeThings source target things =
      match addends? source target things with
      | none => things
      | some (held, n) => (things.erase source).insert target (held + n) := by
  unfold changeThings addends?
  cases things.get? source with
  | none => rfl
  | some n => rfl

theorem total_of_addends {held n : UInt64}
    (added : addends? source target things = some (held, n)) :
    things.total = held.toNat + n.toNat + ((things.erase source).erase target).total := by
  obtain ⟨m, found, same⟩ := Option.map_eq_some_iff.1 added
  obtain ⟨rfl, rfl⟩ := Prod.mk.inj same
  have first := things.total_eq_add_erase source
  have second := (things.erase source).total_eq_add_erase target
  rw [found, Option.getD_some] at first
  omega

theorem total_changeThings (source target : String) (fits : things.total < 2 ^ 64) :
    (changeThings source target things).total = things.total := by
  rw [changeThings_eq]
  cases added : addends? source target things with
  | none => rfl
  | some addends =>
    obtain ⟨held, n⟩ := addends
    have whole := total_of_addends added
    have exact_sum : (held + n).toNat = held.toNat + n.toNat := by
      rw [UInt64.toNat_add, Nat.mod_eq_of_lt (by omega)]
    dsimp only
    rw [Table.total_insert, exact_sum, whole]

theorem counts_le_total (different : source ≠ target) (things : Table UInt64) :
    ((things.get? source).getD 0).toNat + ((things.get? target).getD 0).toNat ≤ things.total := by
  have first := things.total_eq_add_erase source
  have second := (things.erase source).total_eq_add_erase target
  rw [Table.get?_erase, if_neg (Ne.symm different)] at second
  omega

theorem count_changeThings (source target other : String) (things : Table UInt64) :
    ((changeThings source target things).get? other).getD 0 =
      if source = target then (things.get? other).getD 0
      else if other = target then (things.get? source).getD 0 + (things.get? target).getD 0
      else if other = source then 0
      else (things.get? other).getD 0 := by
  rw [changeThings_eq]
  unfold addends?
  by_cases same : source = target
  · subst same
    rw [if_pos rfl]
    cases found : things.get? source with
    | none => rfl
    | some n =>
      rw [Option.map_some]
      dsimp only
      rw [Table.get?_insert, Table.get?_erase, Table.get?_erase, if_pos rfl]
      by_cases own : other = source
      · rw [if_pos own, own, found]
        simp
      · rw [if_neg own, if_neg own]
  · rw [if_neg same]
    cases found : things.get? source with
    | none =>
      rw [Option.map_none]
      dsimp only
      by_cases at_target : other = target
      · rw [if_pos at_target, at_target]
        simp
      · rw [if_neg at_target]
        by_cases at_source : other = source
        · rw [if_pos at_source, at_source, found]
          rfl
        · rw [if_neg at_source]
    | some n =>
      rw [Option.map_some]
      dsimp only
      rw [Table.get?_insert, Table.get?_erase, Table.get?_erase, if_neg (Ne.symm same)]
      by_cases at_target : other = target
      · rw [if_pos at_target, if_pos at_target, Option.getD_some, Option.getD_some,
          UInt64.add_comm]
      · rw [if_neg at_target, if_neg at_target]
        by_cases at_source : other = source
        · rw [if_pos at_source, if_pos at_source, Option.getD_none]
        · rw [if_neg at_source, if_neg at_source]

/-- Of all commands, only a change touches the counts. -/
theorem total_of_touches (touched : Run.Touches command b b') (fits : b.things.total < 2 ^ 64) :
    b'.things.total = b.things.total := by
  cases touched with
  | step d =>
    rw [step_eq]
    rfl
  | put d tile =>
    rw [put_eq]
    split <;> rfl
  | change source target named => exact total_changeThings source.thing target.thing fits
  | _ => rfl

end Recorder

namespace Run

open Recorder

/-- What the host may tell a recorder between two commands: anything but the counts of tiles. -/
def TellsNoTiles (b b' : Recorder) : Prop := b'.things = b.things

variable {begun r : Run Recorder}

theorem tiles_of_passes (passed : ReflTransGen (Passage TellsNoTiles) begun r)
    (fits : begun.body.tiles < 2 ^ 64) : r.body.tiles = begun.body.tiles := by
  rw [tiles_eq_total] at fits
  rw [tiles_eq_total, tiles_eq_total]
  apply body_of_passes (motive := fun b => b.things.total = begun.body.things.total) ?_ ?_ passed
    rfl
  · intro command b b' kept touched
    rw [total_of_touches touched (kept ▸ fits), kept]
  · intro b b' kept tells
    have same : b'.things = b.things := tells
    rw [same, kept]

end Run
end ActorScript
