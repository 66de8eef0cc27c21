import ActorScript.Recorder
import ActorScript.Sense
import Mathlib.Algebra.Group.Nat.Even
import Mathlib.Algebra.GroupWithZero.Nat
import Mathlib.Dynamics.PeriodicPts.Defs

/-!
What the turns of a heading come to. Turns without chance add up to quarter turns clockwise, four of
which come round again, so that their order does not matter and only how many there are of each.
A turn by chance takes one of two opposite ways, so that the axis is known whatever is drawn.
-/
namespace ActorScript

theorem Axis.eq_iff_eq_iff (a b c : Axis) : a = c ↔ (a = b ↔ b = c) := by
  cases a <;> cases b <;> cases c <;> decide

namespace Direction

theorem isPeriodicPt_clockwise (d : Direction) : Function.IsPeriodicPt clockwise 4 d := by
  cases d <;> rfl

theorem counterClockwise_eq_iterate (d : Direction) : d.counterClockwise = clockwise^[3] d := by
  cases d <;> rfl

theorem axis_counterClockwise_ne (d : Direction) : d.counterClockwise.axis ≠ d.axis := by
  intro same
  apply axis_clockwise_ne d.counterClockwise
  rw [clockwise_counterClockwise, same]

end Direction

namespace Turn

variable {turn : Turn} {turns : List Turn}

/-- How many quarter turns clockwise a turn is. A random one is as many as is drawn, and counts for
none here. -/
def quarters : Turn → Nat
  | .clockwise => 1
  | .counterClockwise => 3
  | .opposite => 2
  | .randomPerpendicular => 0

/-- The quarter turns clockwise that are left of turns without chance, since four come round. -/
def balance (turns : List Turn) : Nat :=
  (((turns.count .clockwise : Int) - turns.count .counterClockwise
    + 2 * turns.count .opposite) % 4).toNat

def crossings (turns : List Turn) : Nat :=
  turns.count .clockwise + turns.count .counterClockwise + turns.count .randomPerpendicular

theorem sum_quarters (turns : List Turn) : (turns.map quarters).sum =
    turns.count .clockwise + 3 * turns.count .counterClockwise + 2 * turns.count .opposite := by
  induction turns with
  | nil => rfl
  | cons turn turns ih =>
    rw [List.map_cons, List.sum_cons, ih]
    cases turn <;> simp [quarters] <;> omega

theorem sum_quarters_mod (turns : List Turn) : (turns.map quarters).sum % 4 = balance turns := by
  have sum := sum_quarters turns
  unfold balance
  omega

theorem crossings_cons (turn : Turn) (turns : List Turn) :
    crossings (turn :: turns) = crossings turns + if turn = .opposite then 0 else 1 := by
  unfold crossings
  cases turn <;> simp <;> omega

theorem apply_of_certain (certain : turn ≠ .randomPerpendicular) (d : Direction) :
    turn.apply d = pure (Direction.clockwise^[turn.quarters] d) := by
  cases turn with
  | clockwise => rfl
  | counterClockwise =>
    unfold apply quarters
    rw [Direction.counterClockwise_eq_iterate]
  | opposite => rfl
  | randomPerpendicular => exact absurd rfl certain

theorem applyAll_of_certain (certain : .randomPerpendicular ∉ turns) (d : Direction) :
    applyAll d turns = pure (Direction.clockwise^[(turns.map quarters).sum] d) := by
  induction turns with
  | nil => rfl
  | cons turn turns ih =>
    rw [List.mem_cons, not_or] at certain
    obtain ⟨here, behind⟩ := certain
    rw [applyAll, ih behind, pure_bind, apply_of_certain (Ne.symm here), List.map_cons,
      List.sum_cons, Function.iterate_add_apply]

/-- Turns without chance leave the direction that their balance gives. -/
theorem applyAll_eq_balance (certain : .randomPerpendicular ∉ turns) (d : Direction) :
    applyAll d turns = pure (Direction.clockwise^[balance turns] d) := by
  rw [applyAll_of_certain certain, ← sum_quarters_mod,
    (Direction.isPeriodicPt_clockwise d).iterate_mod_apply]

theorem axis_apply (turn : Turn) (d : Direction) (g : Generator) :
    ((turn.apply d).run g).1.axis = d.axis ↔ turn = .opposite := by
  cases turn with
  | clockwise => exact iff_of_false (Direction.axis_clockwise_ne d) (by decide)
  | counterClockwise => exact iff_of_false (Direction.axis_counterClockwise_ne d) (by decide)
  | opposite => exact iff_of_true (Direction.axis_opposite d) rfl
  | randomPerpendicular =>
    apply iff_of_false ?_ (by decide)
    show (if (Chance.coin.run g).1 then d.clockwise else d.counterClockwise).axis ≠ d.axis
    split
    · exact Direction.axis_clockwise_ne d
    · exact Direction.axis_counterClockwise_ne d

/-- Whatever is drawn, the turns end on the axis that they began on if an even number of them leads
to the other. -/
theorem axis_applyAll (turns : List Turn) (d : Direction) (g : Generator) :
    ((applyAll d turns).run g).1.axis = d.axis ↔ Even (crossings turns) := by
  induction turns with
  | nil => exact iff_of_true rfl Even.zero
  | cons turn turns ih =>
    let turned := (applyAll d turns).run g
    have last : ((applyAll d (turn :: turns)).run g).1.axis = turned.1.axis ↔ turn = .opposite :=
      axis_apply turn turned.1 turned.2
    rw [Axis.eq_iff_eq_iff _ turned.1.axis, last, ih, crossings_cons]
    by_cases straight : turn = .opposite
    · simp [straight]
    · simp [straight, Nat.even_add_one]

theorem applyAll_eq_foldlM (turns : List Turn) (d : Direction) :
    applyAll d turns = turns.reverse.foldlM (fun d turn => turn.apply d) d := by
  induction turns with
  | nil => rfl
  | cons turn turns ih => rw [applyAll, ih, List.reverse_cons, List.foldlM_append]; simp

theorem applyAll_append (later earlier : List Turn) (d : Direction) :
    applyAll d (later ++ earlier) = applyAll d earlier >>= fun e => applyAll e later := by
  induction later with
  | nil => exact (bind_pure _).symm
  | cons turn later ih => simp only [List.cons_append, applyAll, ih, bind_assoc]

end Turn

namespace Heading

variable {β : Type} [Body β] {b : β} {aim : Aim} {turns : List Turn} {g g' : Generator}
  {d : Direction}

theorem resolve_of_lost (lost : (aim.resolve b).run g = (none, g')) :
    (resolve b ⟨aim, turns⟩).run g = (none, g') := by
  unfold resolve
  rw [StateT.run_bind, lost]
  rfl

theorem resolve_of_aimed (aimed : (aim.resolve b).run g = (some d, g')) :
    (resolve b ⟨aim, turns⟩).run g =
      (some ((Turn.applyAll d turns).run g').1, ((Turn.applyAll d turns).run g').2) := by
  unfold resolve
  rw [StateT.run_bind, aimed]
  rfl

/-- A heading leads nowhere only if its aim does. Otherwise turns without chance draw nothing and
come to what there are of each, in any order; with turns by chance among them, the axis is still
known. The turns that stand behind others are made before them, from the last on, and those others
go on with what they leave, the direction and the generator. -/
theorem turns_add_up (b : β) (aim : Aim) (turns : List Turn) (g : Generator) :
    let aimed := (aim.resolve b).run g
    let resolved := (resolve b ⟨aim, turns⟩).run g
    (resolved.1 = none ↔ aimed.1 = none) ∧
    (∀ d, aimed.1 = some d → .randomPerpendicular ∉ turns →
      resolved = (some (Direction.clockwise^[Turn.balance turns] d), aimed.2)) ∧
    (∀ d, aimed.1 = some d → ∃ e, resolved.1 = some e ∧
      (e.axis = d.axis ↔ Even (Turn.crossings turns))) ∧
    ∀ later earlier, turns = later ++ earlier →
      resolved = match (resolve b ⟨aim, earlier⟩).run g with
        | (none, g') => (none, g')
        | (some e, g') =>
          let turned := (later.reverse.foldlM (fun d (turn : Turn) => turn.apply d) e).run g'
          (some turned.1, turned.2) := by
  intro aimed resolved
  cases found : aimed with
  | mk direction g' =>
    cases direction with
    | none =>
      have lost : resolved = (none, g') := resolve_of_lost found
      refine ⟨by simp [lost], by simp, by simp, fun later earlier split => ?_⟩
      rw [lost, resolve_of_lost found]
    | some d =>
      have made : resolved = _ := resolve_of_aimed found
      refine ⟨by simp [made], ?_, ?_, ?_⟩
      · rintro _ ⟨⟩ certain
        rw [made, Turn.applyAll_eq_balance certain]
        rfl
      · rintro _ ⟨⟩
        exact ⟨_, congrArg Prod.fst made, Turn.axis_applyAll turns d g'⟩
      · intro later earlier split
        rw [made, resolve_of_aimed found, split, Turn.applyAll_append]
        simp only [← Turn.applyAll_eq_foldlM, StateT.run_bind]
        rfl

/-- A vane that faces west. An about-turn between two quarter turns leaves it there, and one before
a random turn takes it off its axis. -/
theorem vane_is_turned :
    let vane : Recorder := { Recorder.named "vane" with facing := some .west }
    let g := Generator.cycling [3, 1]
    ((Aim.resolve vane .flow).run g).1 = some .west ∧
    .randomPerpendicular ∉ [Turn.clockwise, .opposite, .clockwise] ∧
    (resolve vane ⟨.flow, [.clockwise, .opposite, .clockwise]⟩).run g = (some .west, g) ∧
    ∃ e, ((resolve vane ⟨.flow, [.opposite, .randomPerpendicular]⟩).run g).1 = some e ∧
      e.axis = .vertical := by
  intro vane g
  have facing : ((Aim.resolve vane .flow).run g).1 = some .west := rfl
  have certain : .randomPerpendicular ∉ [Turn.clockwise, .opposite, .clockwise] := by decide
  obtain ⟨-, turned, -, -⟩ := turns_add_up vane .flow [.clockwise, .opposite, .clockwise] g
  obtain ⟨-, -, crossed, -⟩ := turns_add_up vane .flow [.opposite, .randomPerpendicular] g
  obtain ⟨e, found, axis⟩ := crossed .west facing
  refine ⟨facing, certain, turned .west facing certain, e, found, ?_⟩
  cases here : e.axis with
  | vertical => rfl
  | horizontal => exact absurd (axis.1 here) (by decide)

end Heading
end ActorScript
