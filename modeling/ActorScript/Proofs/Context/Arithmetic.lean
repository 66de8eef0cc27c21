import ActorScript.Proofs.Context.Coherence
import ActorScript.Proofs.Script.Size

/-!
The numbers of a context are as good as numbers without end. Indices, cursors and what is left of a
command are kept in machine words, and nothing is checked where one is added to them or taken from
them; each such step is exact because of what every context that a script can come to has in common.
The limit for indices is the size of the script's text in bytes, which a word holds by itself.
-/
namespace ActorScript

namespace Context

/-- How many steps or ticks are left of a command, as the word that is counted down. -/
def remaining (key : Nat) (declared : Numeral) (c : Context) : Int64 :=
  (c.heap.count? key).getD declared.toInt64

/-- Indices, and cursors with one added to them, are within a limit; and a jump leads to the place
behind its position, which is never before the first command. -/
structure Bounded (limit : Nat) (c : Context) : Prop where
  commands_le : c.script.commands.length ≤ limit
  index_le : ∀ i, c.index = some i → i ≤ limit
  cursor_lt : ∀ label cursor, c.cursors.get? label = some cursor → cursor + 1 ≤ limit
  jump_exact : ∀ label d, c.jump? label = some d → ∃ position i,
    c.target? label = some position ∧ d.index = some i ∧ (i : Int) = position + 1 ∧ i ≤ limit

namespace Coherent

variable {c d : Context} {key limit : Nat}

theorem cursor_lt (h : c.Coherent) (small : c.script.NoLarger limit) {label : String}
    {cursor : Nat} (found : c.cursors.get? label = some cursor) : cursor + 1 ≤ limit := by
  have known : (c.script.positions? label).isSome := by
    rw [← h.cursor_names, found]
    rfl
  obtain ⟨positions, declared⟩ := Option.isSome_iff_exists.1 known
  have within := h.cursor_le label cursor positions found declared
  have few := small.positions_lt label positions declared
  omega

theorem jump_exact (h : c.Coherent) (small : c.script.NoLarger limit) {label : String}
    (made : c.jump? label = some d) : ∃ position i,
      c.target? label = some position ∧ d.index = some i ∧ (i : Int) = position + 1 ∧
        i ≤ limit := by
  unfold jump? at made
  split at made
  · simp at made
  · split at made
    · simp at made
    · rename_i position found
      obtain rfl := Option.some.inj made
      obtain ⟨positions, declared, here⟩ := Option.bind_eq_some_iff.1 found
      obtain ⟨low, high⟩ :=
        h.labels_within _ positions declared position (List.mem_of_getElem? here)
      have few := small.commands_le
      have exact_index : ((position + 1).toNat : Int) = position + 1 :=
        Int.toNat_of_nonneg (by omega)
      exact ⟨position, (position + 1).toNat, found, rfl, exact_index, by omega⟩

theorem bounded (h : c.Coherent) (small : c.script.NoLarger limit) : c.Bounded limit where
  commands_le := small.commands_le
  index_le i here := (h.index_le i here).trans small.commands_le
  cursor_lt _ _ found := h.cursor_lt small found
  jump_exact _ _ made := h.jump_exact small made

theorem remaining_nonneg (h : c.Coherent) (running : c.index ≠ none) (declared : Numeral) :
    0 ≤ (c.remaining key declared).toInt := by
  unfold remaining
  cases found : c.heap.count? key with
  | none =>
    rw [Option.getD_none, declared.toInt_toInt64]
    exact Int.natCast_nonneg _
  | some n => exact Int.le_of_lt (h.count_pos running found)

end Coherent
end Context

namespace Run

variable {β : Type} {r : Run β} {key limit : Nat}

/-- So many steps or ticks are left of a command after a tick of it, over the integers: the count
that the heap holds then, unless none is left and the command is done. -/
def Leaves (key : Nat) (left : Int) (done : Outcome × Run β) : Prop :=
  if 0 < left then
    done.1 = .again ∧ ∃ n, done.2.context.heap.count? key = some n ∧ n.toInt = left
  else done.1 = .endTick

theorem leaves_of_count {left : Int} {n : Int64} {outcome : Outcome} {s : Run β}
    (again : outcome = .again) (stored : s.context.heap.count? key = some n) (same : n.toInt = left)
    (more : 0 < left) : Leaves key left (outcome, s) := by
  rw [Leaves, if_pos more]
  exact ⟨again, n, stored, same⟩

theorem leaves_of_none {left : Int} (none_left : left ≤ 0) (s : Run β) :
    Leaves key left (.endTick, s) := by
  rw [Leaves, if_neg (by omega)]

theorem leaves_wait {ticks : Numeral} (nonneg : 0 ≤ (r.context.remaining key ticks).toInt) :
    Leaves key ((r.context.remaining key ticks).toInt - 1) (r.wait key ticks) := by
  have one_less := toInt_sub_one nonneg
  have zero : (0 : Int64).toInt = 0 := rfl
  unfold Context.remaining at *
  unfold wait
  dsimp only
  split
  · rename_i more
    rw [Int64.lt_iff_toInt_lt, zero] at more
    refine leaves_of_count rfl ?_ one_less (by omega)
    rw [context_onContext, Heap.count?_setCount, if_pos rfl]
  · rename_i none_left
    rw [Int64.lt_iff_toInt_lt, zero] at none_left
    exact leaves_of_none (by omega) r

theorem exists_upNext? (h : r.context.Coherent) {i : Nat}
    (running : r.context.state = .running i) : ∃ command, r.upNext? = some (i, command) := by
  have inside : r.context.index = some i ∧ i < r.context.script.commands.length := by
    unfold Context.state at running
    split at running
    · simp at running
    · rename_i index here
      split at running
      · rename_i low
        obtain rfl := Context.State.running.inj running
        exact ⟨here, low⟩
      · simp at running
  have at_key : r.context.stored.getD i = i := by
    cases stored : r.context.stored with
    | none => rfl
    | some key =>
      have same := (h.stored_at key stored).1.symm.trans inside.1
      exact Option.some.inj same
  refine ⟨r.context.script.commands[i], ?_⟩
  unfold upNext?
  rw [running]
  simp only [at_key, List.getElem?_eq_getElem inside.2, Option.map_some]

variable [Body β]

theorem leaves_stride (key : Nat) (forceful : Bool) (direction : Option Direction) {n : Int64}
    (some_left : 0 < n.toInt) :
    Leaves key (if !(r.step direction).1 && forceful then n.toInt else n.toInt - 1)
      (r.stride key forceful n direction) := by
  have one_less := toInt_sub_one (Int.le_of_lt some_left)
  have zero : (0 : Int64).toInt = 0 := rfl
  unfold stride
  dsimp only
  split
  · refine leaves_of_count rfl ?_ rfl some_left
    rw [context_onContext, Heap.count?_setCount, if_pos rfl]
  · split
    · rename_i more
      rw [Int64.lt_iff_toInt_lt, zero] at more
      refine leaves_of_count rfl ?_ one_less (by omega)
      rw [context_onContext, Heap.count?_setCount, if_pos rfl]
    · rename_i none_left
      rw [Int64.lt_iff_toInt_lt, zero] at none_left
      exact leaves_of_none (by omega) _

theorem move_of_none_left {heading : Heading} {count : Numeral} {forceful : Bool}
    (none_left : (r.context.remaining key count).toInt ≤ 0) :
    r.move key heading count forceful = (.endTick, r) := by
  rw [move_eq, if_pos]
  rwa [Int64.le_iff_toInt_le]

theorem move_of_some_left {heading : Heading} {count : Numeral} {forceful : Bool}
    (some_left : 0 < (r.context.remaining key count).toInt) :
    r.move key heading count forceful = (r.aim key heading).2.stride key forceful
      (r.context.remaining key count) (r.aim key heading).1 := by
  rw [move_eq, if_neg]
  · rfl
  · rw [Int64.le_iff_toInt_le]
    exact Int.not_le.2 some_left

theorem leaves_move {heading : Heading} {count : Numeral} {forceful : Bool} :
    Leaves key (r.context.remaining key count).toInt (r.move key heading count forceful) ∨
      Leaves key ((r.context.remaining key count).toInt - 1)
        (r.move key heading count forceful) := by
  rcases Int.lt_or_le 0 (r.context.remaining key count).toInt with some_left | none_left
  · rw [move_of_some_left some_left]
    have strode := leaves_stride (r := (r.aim key heading).2) key forceful
      (r.aim key heading).1 some_left
    split at strode
    · exact .inl strode
    · exact .inr strode
  · rw [move_of_none_left none_left]
    exact .inl (leaves_of_none none_left r)

/-- The command that is up is there, whatever it computes is what the integers give, and it leaves
a context within the limit. -/
structure Exact (limit : Nat) (r : Run β) : Prop where
  found : ∀ i, r.context.state = .running i → ∃ command, r.upNext? = some (i, command)
  one_less : ∀ key command declared, r.upNext? = some (key, command) →
    command.duration? = some declared →
      (r.context.remaining key declared - 1).toInt = (r.context.remaining key declared).toInt - 1
  wait : ∀ key ticks, r.upNext? = some (key, .wait ticks) →
    Leaves key ((r.context.remaining key ticks).toInt - 1) (r.execute key (.wait ticks))
  move : ∀ key heading count forceful, r.upNext? = some (key, .move heading count forceful) →
    Leaves key (r.context.remaining key count).toInt
        (r.execute key (.move heading count forceful)) ∨
      Leaves key ((r.context.remaining key count).toInt - 1)
        (r.execute key (.move heading count forceful))
  take : ∀ key counter amount otherwise, r.upNext? = some (key, .take counter amount otherwise) →
    ∃ change : Int64, change.toInt = -(amount.val : Int) ∧
      (amount.toInt64 ≤ Body.counter r.body counter →
        (r.execute key (.take counter amount otherwise)).2.body =
          Body.adjustCounter counter change r.body)
  advance : ∀ event s, r.next? = some (event, s) → s.context.Bounded limit

theorem exact_of_coherent (h : r.context.Coherent) (small : r.context.script.NoLarger limit) :
    r.Exact limit := by
  have going {key : Nat} {command : Command} (up : r.upNext? = some (key, command)) :
      r.context.index ≠ none := by
    simp [(upNext?_eq_some h up).1]
  constructor
  case found =>
    intro i running
    exact exists_upNext? h running
  case one_less =>
    intro key command declared up _
    exact toInt_sub_one (h.remaining_nonneg (going up) declared)
  case wait =>
    intro key ticks up
    exact leaves_wait (h.remaining_nonneg (going up) ticks)
  case move =>
    intro key heading count forceful _
    exact leaves_move
  case take =>
    intro key counter amount otherwise _
    refine ⟨-amount.toInt64, amount.toInt_neg_toInt64, fun covered => ?_⟩
    unfold execute
    dsimp only
    rw [if_pos covered]
    rfl
  case advance =>
    intro event s ran
    obtain ⟨coherent, same⟩ := coherent_next h ran
    exact coherent.bounded (same ▸ small)

theorem Underway.script_eq {s : Run β} (h : r.context.Coherent) (underway : Underway r s) :
    s.context.script = r.context.script := by
  induction underway with
  | begin => exact (coherent_takeMessage h).2
  | next before ran _ ih =>
    have kept := (coherent_next (before.coherent h) ran).2
    exact kept.trans ih

end Run

namespace Context

/-- In all that a parsed script can come to, between its ticks and inside them, every number stays
in range and is the one that the integers give, and the command to run is always found. -/
theorem arithmetic_stays_exact (name text : String) {c : Context}
    (h : Reachable (.ofText name text) c) :
    c.Bounded text.utf8ByteSize ∧
      ∀ {β : Type} [Body β] (body : β) (s : Run β), Run.Underway ⟨c, body⟩ s →
        s.context.Bounded text.utf8ByteSize ∧ s.Exact text.utf8ByteSize := by
  obtain ⟨coherent, same⟩ := reachable_coherent (Script.labelsWithin_ofText name text) h
  have small : c.script.NoLarger text.utf8ByteSize := by
    rw [same]
    exact Script.noLarger_ofText name text
  refine ⟨coherent.bounded small, fun body s underway => ?_⟩
  have inside : s.context.Coherent := underway.coherent coherent
  have small_inside : s.context.script.NoLarger text.utf8ByteSize := by
    rw [underway.script_eq coherent]
    exact small
  exact ⟨inside.bounded small_inside, Run.exact_of_coherent inside small_inside⟩

/-- A wait of no ticks, below a label ahead of every command that was zapped and restored. -/
theorem idle_watch_exact :
    let text := ":dawn\nwait 0\ntake gold 3 dawn"
    let watch := (start (.ofText "watch" text) (.seeded 7)).zap "dawn"
    let begun : Run Recorder := ⟨watch.restore "dawn", .named "watch"⟩
    Reachable (.ofText "watch" text) begun.context ∧
      Run.Underway begun (begun.onContext Run.takeMessage) ∧
      begun.context.Bounded text.utf8ByteSize ∧
      (begun.onContext Run.takeMessage).Exact text.utf8ByteSize := by
  intro text watch begun
  have reachable : Reachable (.ofText "watch" text) begun.context :=
    .step (.step (.start 7) (.zap "dawn" _)) (.restore "dawn" watch)
  have underway : Run.Underway begun (begun.onContext Run.takeMessage) := .begin
  obtain ⟨bounded, inside⟩ := arithmetic_stays_exact _ _ reachable
  exact ⟨reachable, underway, bounded, (inside begun.body _ underway).2⟩

end Context
end ActorScript
