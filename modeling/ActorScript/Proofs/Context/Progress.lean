import ActorScript.Proofs.Context.Stopping
import ActorScript.Proofs.Script.Lines
import Mathlib.Algebra.GroupWithZero.Nat

/-!
A script without labels runs straight through. No message can lead it elsewhere, every command is
completed in its turn, and each tick either ends the run or takes one from the ticks that are left
to its commands. A forceful move is left out, since what blocks it may never go away.
-/
namespace ActorScript

namespace Command

def ticks : Command → Nat
  | .move _ count _ => max 1 count.val
  | .wait ticks => max 1 ticks.val
  | .say _ | .scroll _ | .attempt .. | .shoot _ | .throwStar _ => 1
  | _ => 0

def isLast : Command → Bool
  | .finish | .die | .become _ => true
  | _ => false

theorem ticks_of_duration {command : Command} {declared : Numeral}
    (duration : command.duration? = some declared) : command.ticks = max 1 declared.val := by
  cases command with
  | move | wait =>
    obtain rfl := Option.some.inj duration
    rfl
  | _ => simp [duration?] at duration

end Command

namespace Script

def ticks (s : Script) : Nat := (s.commands.map Command.ticks).sum

/-- How many commands there are up to the first with which the script ends, and with it. -/
def extent (s : Script) : Nat := min s.commands.length (s.commands.findIdx Command.isLast + 1)

/-- Nothing in the script leads back, and nothing in it can wait for ever. -/
structure IsStraight (s : Script) : Prop where
  unlabelled : ∀ label, s.positions? label = none
  unforced : ∀ command ∈ s.commands, command.isForceful = false

end Script

namespace Run

/-- What one command does in a script that is straight: it completes and ends the tick, it completes
and the next follows, it ends the script, or it goes on with one less to do. -/
inductive Advance (key : Nat) (command : Command) (c : Context) : Outcome → Context → Prop where
  | ends {d : Context} (timed : 0 < command.ticks) (goes_on : command.isLast = false)
      (here : d.index = c.index) : Advance key command c .endTick d
  | chains {d : Context} (goes_on : command.isLast = false) (here : d.index = c.index) :
      Advance key command c .proceed d
  | stops {d : Context} (last : command.isLast = true) (stopped : d.index = none) :
      Advance key command c .proceed d
  | stays {d : Context} (declared : Numeral) (n : Int64)
      (duration : command.duration? = some declared) (here : d.index = c.index)
      (left : d.heap.count? key = some n) (pos : 0 < n.toInt)
      (one_less : n.toInt + 1 = ((c.heap.count? key).getD declared.toInt64).toInt) :
      Advance key command c .again d

end Run

variable {β : Type}

namespace Context

theorem jump?_unlabelled {c : Context} (unlabelled : ∀ label, c.script.positions? label = none)
    (label : String) : c.jump? label = none := by
  have nowhere : c.target? label = none := by
    rw [target?, unlabelled]
    rfl
  unfold jump?
  rw [nowhere]
  split <;> rfl

end Context

namespace Run

variable {r s : Run β} {key : Nat} {command : Command} {event : Event}

theorem jumpOr_unlabelled (unlabelled : ∀ label, r.context.script.positions? label = none)
    (label : Option String) (otherwise : Outcome) : r.jumpOr label otherwise = (otherwise, r) := by
  have nowhere : (label.bind fun label => r.context.jump? label) = none := by
    cases label with
    | none => rfl
    | some label => exact Context.jump?_unlabelled unlabelled label
  unfold jumpOr
  rw [nowhere]

theorem advance_wait {ticks : Numeral}
    (positive : ∀ n, r.context.heap.count? key = some n → 0 < n.toInt) :
    Advance key (.wait ticks) r.context (r.wait key ticks).1 (r.wait key ticks).2.context := by
  have nonneg : 0 ≤ ((r.context.heap.count? key).getD ticks.toInt64).toInt := by
    cases stored : r.context.heap.count? key with
    | some n => exact Int.le_of_lt (positive n stored)
    | none =>
      rw [Option.getD_none, Numeral.toInt_toInt64]
      exact Int.natCast_nonneg _
  have one_less := toInt_sub_one nonneg
  unfold wait
  dsimp only
  split
  · rename_i left
    rw [Int64.lt_iff_toInt_lt] at left
    refine .stays ticks _ rfl rfl ?_ left ?_
    · exact (Heap.count?_setCount ..).trans (if_pos rfl)
    · rw [one_less, Int.sub_add_cancel]
  · exact .ends (Nat.le_max_left 1 ticks.val) rfl rfl

variable [Body β]

theorem advance_move {heading : Heading} {count : Numeral} :
    Advance key (.move heading count false) r.context (r.move key heading count false).1
      (r.move key heading count false).2.context := by
  have timed : 0 < (Command.move heading count false).ticks := Nat.le_max_left 1 count.val
  rw [move_eq]
  split
  · exact .ends timed rfl rfl
  · rename_i some_left
    obtain ⟨generator, drawn⟩ := context_aim key heading r
    have pos : 0 < ((r.context.heap.count? key).getD count.toInt64).toInt := by
      rw [Int64.le_iff_toInt_le] at some_left
      exact Int.not_le.1 some_left
    have one_less := toInt_sub_one (Int.le_of_lt pos)
    unfold stride
    dsimp only
    rw [Bool.and_false, if_neg Bool.false_ne_true]
    split
    · rename_i more
      rw [Int64.lt_iff_toInt_lt] at more
      refine .stays count _ rfl ?_ ?_ more ?_
      · simp only [context_onContext, context_step, drawn]
      · exact (Heap.count?_setCount ..).trans (if_pos rfl)
      · rw [one_less, Int.sub_add_cancel]
    · refine .ends timed rfl ?_
      simp only [context_onContext, context_step, drawn]

theorem advance_execute (unlabelled : ∀ label, r.context.script.positions? label = none)
    (unforced : command.isForceful = false)
    (positive : ∀ n, r.context.heap.count? key = some n → 0 < n.toInt) :
    Advance key command r.context (r.execute key command).1 (r.execute key command).2.context := by
  have index_act (heading : Heading) (f : Direction → β → β) :
      (r.act heading f).context.index = r.context.index := by
    obtain ⟨generator, drawn⟩ := context_act heading f r
    rw [drawn]
  have refused (label : Option String) (otherwise : Outcome) :
      r.jumpOr label otherwise = (otherwise, r) := jumpOr_unlabelled unlabelled label otherwise
  cases command with
  | move heading count forceful =>
    obtain rfl : forceful = false := unforced
    exact advance_move
  | attempt heading otherwise =>
    obtain ⟨generator, drawn⟩ := context_resolve heading r
    have stepped : ((r.resolve heading).2.step (r.resolve heading).1).2.context =
        { r.context with generator } := by rw [context_step, drawn]
    simp only [execute]
    split
    · exact .ends Nat.one_pos rfl (by rw [stepped])
    · rw [jumpOr_unlabelled (by rw [stepped]; exact unlabelled)]
      exact .ends Nat.one_pos rfl (by rw [stepped])
  | wait ticks => exact advance_wait positive
  | say text => exact .ends Nat.one_pos rfl rfl
  | scroll lines => exact .ends Nat.one_pos rfl rfl
  | finish => exact .stops rfl rfl
  | die => exact .stops rfl rfl
  | become tile => exact .stops rfl rfl
  | jumpIf condition label =>
    simp only [execute]
    split
    · rw [jumpOr_unlabelled (by exact unlabelled)]
      exact .chains rfl rfl
    · exact .chains rfl rfl
  | put heading tile => exact .chains rfl (index_act ..)
  | send recipient message =>
    cases recipient with
    | none =>
      simp only [execute, refused]
      exact .chains rfl rfl
    | some name =>
      simp only [execute, refused]
      split <;> exact .chains rfl rfl
  | take counter amount otherwise =>
    simp only [execute, refused]
    split <;> exact .chains rfl rfl
  | shoot heading => exact .ends Nat.one_pos rfl (index_act ..)
  | throwStar heading => exact .ends Nat.one_pos rfl (index_act ..)
  | restore label => exact .chains rfl (Context.index_restore label r.context)
  | zap label => exact .chains rfl (Context.index_zap label r.context)
  | _ => exact .chains rfl rfl

end Run

namespace Context

/-- No command can run: the script has ended, or the cursor is past its last command. -/
def AtRest (c : Context) : Prop := ∀ index, c.state ≠ .running index

/-- The ticks that are left to a command, which may be in progress. -/
def due (c : Context) (key : Nat) (command : Command) : Nat :=
  match c.heap.count? key with
  | some n => n.toInt.toNat
  | none => command.ticks

/-- The ticks that are left to the commands from the cursor on. -/
def left (c : Context) : Nat :=
  match c.index with
  | none => 0
  | some i =>
    match c.script.commands.drop i with
    | [] => 0
    | command :: later => c.due i command + (later.map Command.ticks).sum

variable {c : Context} {key : Nat} {command : Command}

theorem atRest_iff :
    c.AtRest ↔ ∀ i, c.index = some i → c.script.commands.length ≤ i := by
  unfold AtRest state
  cases c.index with
  | none => simp
  | some i =>
    by_cases inside : i < c.script.commands.length
    · simp [inside]
    · simp [inside, Nat.le_of_not_lt inside]

theorem left_of_running (here : c.index = some key)
    (running : c.script.commands[key]? = some command) :
    c.left = c.due key command + ((c.script.commands.drop (key + 1)).map Command.ticks).sum := by
  obtain ⟨bound, rfl⟩ := List.getElem?_eq_some_iff.1 running
  unfold left
  rw [here]
  dsimp only
  rw [List.drop_eq_getElem_cons bound]

theorem left_of_fresh {i : Nat} (here : c.index = some i) (fresh : c.heap = .empty) :
    c.left = ((c.script.commands.drop i).map Command.ticks).sum := by
  have not_begun (key : Nat) (command : Command) : c.due key command = command.ticks := by
    unfold due
    rw [fresh]
    rfl
  unfold left
  rw [here]
  dsimp only
  cases c.script.commands.drop i with
  | nil => rfl
  | cons command later =>
    dsimp only
    rw [not_begun, List.map_cons, List.sum_cons]

theorem left_of_stopped (stopped : c.index = none) : c.left = 0 := by
  unfold left
  rw [stopped]

theorem due_pos (h : c.Coherent) (running : c.index ≠ none) (timed : 0 < command.ticks) :
    0 < c.due key command := by
  unfold due
  cases found : c.heap.count? key with
  | none => exact timed
  | some n =>
    have := h.count_pos running found
    dsimp only
    omega

end Context

namespace Run

/-- Where a straight script is after one more command. -/
inductive Onward (key : Nat) (command : Command) (c : Context) : Outcome → Context → Prop where
  | ends {d : Context} (timed : 0 < command.ticks) (goes_on : command.isLast = false)
      (here : d.index = some (key + 1)) (fresh : d.heap = .empty) :
      Onward key command c .endTick d
  | chains {d : Context} (goes_on : command.isLast = false) (here : d.index = some (key + 1))
      (fresh : d.heap = .empty) : Onward key command c .proceed d
  | stops {d : Context} (last : command.isLast = true) (stopped : d.index = none) :
      Onward key command c .proceed d
  | stays {d : Context} (here : d.index = some key)
      (one_less : d.due key command + 1 = c.due key command) : Onward key command c .again d

variable {r s : Run β} {c d : Context} {key : Nat} {command : Command} {event : Event}
  {outcome : Outcome}

theorem Advance.settle (advance : Advance key command c outcome d) (here : c.index = some key)
    (after : (d.settle key outcome).Coherent) :
    Onward key command c outcome (d.settle key outcome) := by
  have next (same : d.index = c.index) : (d.finish key).index = some (key + 1) := by
    simp [Context.finish, same, here]
  cases advance with
  | ends timed goes_on same =>
    refine .ends timed goes_on (next same) (after.heap_eq_empty ?_ rfl)
    exact Option.ne_none_iff_exists'.2 ⟨_, next same⟩
  | chains goes_on same =>
    refine .chains goes_on (next same) (after.heap_eq_empty ?_ rfl)
    exact Option.ne_none_iff_exists'.2 ⟨_, next same⟩
  | stops last stopped => exact .stops last (Context.index_settle stopped key .proceed)
  | stays declared n duration same left pos one_less =>
    refine .stays (same.trans here) ?_
    have now : Context.due { d with stored := some key } key command = n.toInt.toNat := by
      unfold Context.due
      rw [left]
    refine (congrArg (· + 1) now).trans ?_
    unfold Context.due
    cases before : c.heap.count? key with
    | some m =>
      rw [before, Option.getD_some] at one_less
      dsimp only
      omega
    | none =>
      rw [before, Option.getD_none, Numeral.toInt_toInt64] at one_less
      dsimp only
      rw [Command.ticks_of_duration duration]
      omega

variable [Body β]

theorem onward_next (h : r.context.Coherent) (straight : r.context.script.IsStraight)
    (ran : r.next? = some (event, s)) :
    ∃ command, r.context.index = some event.key ∧
      r.context.script.commands[event.key]? = some command ∧
      Onward event.key command r.context event.outcome s.context := by
  have after := (coherent_next h ran).1
  obtain ⟨key, command, up, rfl, rfl⟩ := next?_eq_some.1 ran
  obtain ⟨here, running⟩ := upNext?_eq_some h up
  have going : r.context.index ≠ none := by simp [here]
  rw [context_settle] at after ⊢
  have advance : Advance key command r.context (r.execute key command).1
      (r.execute key command).2.context :=
    advance_execute straight.unlabelled (straight.unforced command (List.mem_of_getElem? running))
      fun n found => h.count_pos going found
  exact ⟨command, here, running, advance.settle here after⟩

theorem left_next (h : r.context.Coherent) (straight : r.context.script.IsStraight)
    (ran : r.next? = some (event, s)) :
    s.context.left ≤ r.context.left ∧
      (event.outcome = .endTick ∨ event.outcome = .again → s.context.left < r.context.left) := by
  obtain ⟨after, same⟩ := coherent_next h ran
  obtain ⟨command, here, running, onward⟩ := onward_next h straight ran
  have before := Context.left_of_running here running
  have going : r.context.index ≠ none := by simp [here]
  obtain ⟨key, outcome⟩ := event
  dsimp only at *
  cases onward with
  | ends timed goes_on next fresh =>
    have pos : 0 < r.context.due key command := Context.due_pos h going timed
    rw [Context.left_of_fresh next fresh, same, before]
    omega
  | chains goes_on next fresh =>
    rw [Context.left_of_fresh next fresh, same, before]
    simp
  | stops last stopped =>
    rw [Context.left_of_stopped stopped]
    simp
  | stays still one_less =>
    rw [Context.left_of_running still (same ▸ running), same, before]
    omega

theorem atRest_of_next?_eq_none (h : r.context.Coherent) (none_ran : r.next? = none) :
    r.context.AtRest := by
  intro index running
  have up : r.upNext? = none := by
    simpa [next?] using none_ran
  rw [upNext?, running] at up
  have here : r.context.index = some index ∧ index < r.context.script.commands.length := by
    unfold Context.state at running
    split at running
    · simp at running
    · rename_i i here
      split at running
      · rename_i inside
        obtain rfl := Context.State.running.inj running
        exact ⟨here, inside⟩
      · simp at running
  have key : r.context.stored.getD index = index := by
    cases stored : r.context.stored with
    | none => rfl
    | some other =>
      have := (h.stored_at other stored).1
      exact Option.some.inj (this.symm.trans here.1)
  simp [key, here.2] at up

end Run
end ActorScript
