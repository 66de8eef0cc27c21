import ActorScript.Proofs.Context.Arithmetic
import Mathlib.Logic.Relation

/-!
A command that takes several ticks has a spell at the cursor: the tick in which it begins, and the
ticks that follow until it is done. A jump or a stop cuts the spell short. What else is done to the
context between its ticks does not touch the command.
-/
namespace ActorScript

open Relation

namespace Context

/-- What the host may do between two ticks that neither jumps nor stops. -/
inductive Aside : Context → Context → Prop where
  | send (message : String) (c : Context) : Aside c (c.send message)
  | setLocked (locked : Bool) (c : Context) : Aside c (c.setLocked locked)
  | zap (label : String) (c : Context) : Aside c (c.zap label)
  | restore (label : String) (c : Context) : Aside c (c.restore label)
  | post (recipient text : String) (c : Context) : Aside c (c.post recipient text)
  | emptyOutbox (c : Context) : Aside c c.emptyOutbox

/-- Nothing but messages, the lock and the cursors of labels differs. -/
def Undisturbed (c d : Context) : Prop :=
  ∃ cursors inbox outbox locked, d = { c with cursors, inbox, outbox, locked }

/-- The command at the cursor goes on in the next tick. -/
structure InProgress (key : Nat) (c : Context) : Prop where
  index : c.index = some key
  stored : c.stored = some key

/-- The command is behind the cursor, and has left nothing. -/
structure IsPast (key : Nat) (c : Context) : Prop where
  index : c.index = some (key + 1)
  stored : c.stored = none
  heap : c.heap = .empty

variable {c d e : Context} {key : Nat}

namespace Undisturbed

theorem refl (c : Context) : Undisturbed c c :=
  ⟨c.cursors, c.inbox, c.outbox, c.locked, rfl⟩

theorem trans (first : Undisturbed c d) (second : Undisturbed d e) : Undisturbed c e := by
  obtain ⟨_, _, _, _, rfl⟩ := first
  obtain ⟨cursors, inbox, outbox, locked, rfl⟩ := second
  exact ⟨cursors, inbox, outbox, locked, rfl⟩

theorem script (h : Undisturbed c d) : d.script = c.script := by
  obtain ⟨_, _, _, _, rfl⟩ := h
  rfl

theorem index (h : Undisturbed c d) : d.index = c.index := by
  obtain ⟨_, _, _, _, rfl⟩ := h
  rfl

theorem stored (h : Undisturbed c d) : d.stored = c.stored := by
  obtain ⟨_, _, _, _, rfl⟩ := h
  rfl

theorem heap (h : Undisturbed c d) : d.heap = c.heap := by
  obtain ⟨_, _, _, _, rfl⟩ := h
  rfl

end Undisturbed

theorem Aside.undisturbed (aside : Aside c d) : Undisturbed c d := by
  cases aside with
  | send message =>
    unfold Context.send
    split
    · exact .refl c
    · exact ⟨c.cursors, _, c.outbox, c.locked, rfl⟩
  | setLocked locked => exact ⟨c.cursors, _, c.outbox, locked, rfl⟩
  | zap label =>
    unfold Context.zap
    dsimp only
    split
    · exact ⟨_, c.inbox, c.outbox, c.locked, rfl⟩
    · exact .refl c
  | restore label =>
    unfold Context.restore
    dsimp only
    split
    · exact ⟨_, c.inbox, c.outbox, c.locked, rfl⟩
    · exact .refl c
  | post recipient text => exact ⟨c.cursors, c.inbox, _, c.locked, rfl⟩
  | emptyOutbox => exact ⟨c.cursors, c.inbox, [], c.locked, rfl⟩

theorem Aside.step (aside : Aside c d) : Step c d := by
  cases aside with
  | send message => exact .send message c
  | setLocked locked => exact .setLocked locked c
  | zap label => exact .zap label c
  | restore label => exact .restore label c
  | post recipient text => exact .post recipient text c
  | emptyOutbox => exact .emptyOutbox c

theorem undisturbed_between (h : c.Coherent) (between : ReflTransGen Aside c d) :
    d.Coherent ∧ Undisturbed c d := by
  induction between with
  | refl => exact ⟨h, .refl c⟩
  | tail _ aside ih => exact ⟨(step_coherent ih.1 aside.step).1, ih.2.trans aside.undisturbed⟩

end Context

namespace Run

open Context

/-- A tick of a command, from where the command is up: the run there, what is executed from there
on, and the run that the tick leaves. -/
structure Turn (β : Type) where
  before : Run β
  events : List Event
  after : Run β

variable {β : Type} {begun r s t : Run β} {key : Nat} {command : Command} {declared : Numeral}
  {earlier : List (Turn β)} {turn last : Turn β} {c : Context}

theorem upNext?_of_index (h : r.context.Coherent) (here : r.context.index = some key)
    (running : r.context.script.commands[key]? = some command) :
    r.upNext? = some (key, command) := by
  have inside := (List.getElem?_eq_some_iff.1 running).1
  have state : r.context.state = .running key := by
    unfold Context.state
    rw [here]
    exact if_pos inside
  obtain ⟨found, up⟩ := exists_upNext? h state
  have same := (upNext?_eq_some h up).2.symm.trans running
  rw [up, Option.some.inj same]

theorem ends_of_leaves {left : Int} {done : Outcome × Run β} (leaves : Leaves key left done) :
    done.1 = .endTick ∨ done.1 = .again := by
  unfold Leaves at leaves
  split at leaves
  · exact .inr leaves.1
  · exact .inl leaves

variable [Body β]

/-- A turn of the command that begins at `r`, in the tick of `begun`, after its turns so far. While
the command is in progress it has another turn in every tick before which there was no jump and no
stop, if no message of that tick jumps either. Between the ticks the body may become any other. -/
inductive Spell (begun r : Run β) (key : Nat) : List (Turn β) → Turn β → Prop where
  | begin {budget : Nat} (rest : begun.tick = commands (budget + 1) r) :
      Spell begun r key [] ⟨r, (logged (budget + 1) r).1, begun.tick⟩
  | goOn {earlier : List (Turn β)} {last : Turn β} {t : Run β}
      (so_far : Spell begun r key earlier last) (going : last.after.context.stored = some key)
      (between : ReflTransGen Aside last.after.context t.context)
      (unheard : ∀ message ∈ t.context.inbox.head?, t.context.jump? message = none) :
      Spell begun r key (earlier ++ [last]) ⟨t.onContext takeMessage, t.log, t.tick⟩

/-- In the turn the command is executed, and no other. -/
structure Alone (key : Nat) (command : Command) (turn : Turn β) : Prop where
  coherent : turn.before.context.Coherent
  up : turn.before.upNext? = some (key, command)
  events : turn.events = [⟨key, (turn.before.execute key command).1⟩]
  after : turn.after = (turn.before.execute key command).2.settle key
    (turn.before.execute key command).1

theorem takeMessage_unheard (unheard : ∀ message ∈ c.inbox.head?, c.jump? message = none) :
    Undisturbed c (takeMessage c) := by
  unfold takeMessage
  split
  · exact .refl c
  · rename_i message inbox waiting
    have refused : ({ c with inbox } : Context).jump? message = none := by
      have nowhere := jump?_eq_none.1 (unheard message (by rw [waiting]; rfl))
      exact jump?_eq_none.2 nowhere
    dsimp only
    rw [refused]
    exact ⟨c.cursors, inbox, c.outbox, c.locked, rfl⟩

theorem logged_of_last {event : Event} (ran : r.next? = some (event, s))
    (ends : event.outcome = .endTick ∨ event.outcome = .again) (budget : Nat) :
    logged (budget + 1) r = ([event], s) := by
  rw [logged, ran]
  rcases ends with ends | ends
  · simp only [ends]
  · simp only [ends]

theorem ends_of_duration (h : r.context.Coherent) (up : r.upNext? = some (key, command))
    (timed : command.duration? = some declared) :
    (r.execute key command).1 = .endTick ∨ (r.execute key command).1 = .again := by
  cases command with
  | wait ticks =>
    have running : r.context.index ≠ none := by simp [(upNext?_eq_some h up).1]
    exact ends_of_leaves (leaves_wait (h.remaining_nonneg running ticks))
  | move heading count forceful =>
    have moved : Leaves key _ (r.move key heading count forceful) ∨
        Leaves key _ (r.move key heading count forceful) := leaves_move
    rcases moved with held_back | made
    · exact ends_of_leaves held_back
    · exact ends_of_leaves made
  | _ => simp [Command.duration?] at timed

theorem alone_of_up (h : r.context.Coherent) (up : r.upNext? = some (key, command))
    (timed : command.duration? = some declared) {budget : Nat}
    (rest : t.tick = commands (budget + 1) r) :
    Alone key command ⟨r, (logged (budget + 1) r).1, t.tick⟩ := by
  have ran : r.next? = some (⟨key, (r.execute key command).1⟩,
      (r.execute key command).2.settle key (r.execute key command).1) :=
    next?_eq_some.2 ⟨key, command, up, rfl, rfl⟩
  have whole := logged_of_last ran (ends_of_duration h up timed) budget
  rw [rest, ← logged_snd, whole]
  exact ⟨h, up, rfl, rfl⟩

theorem exists_spare (t : Run β) : ∃ spare,
    t.tick = commands (spare + 1) (t.onContext takeMessage) ∧
      t.log = (logged (spare + 1) (t.onContext takeMessage)).1 := by
  obtain ⟨spare, some_budget⟩ : ∃ spare, budget (takeMessage t.context) = spare + 1 :=
    Nat.exists_eq_succ_of_ne_zero (by unfold budget; omega)
  refine ⟨spare, ?_, ?_⟩
  · rw [← some_budget]
    rfl
  · rw [← some_budget]
    rfl

theorem Spell.exists_first (key : Nat) (t : Run β) : ∃ turn,
    Spell t (t.onContext takeMessage) key [] turn ∧ turn.before = t.onContext takeMessage ∧
      turn.after = t.tick := by
  obtain ⟨spare, whole, -⟩ := exists_spare t
  exact ⟨_, .begin whole, rfl, rfl⟩

theorem Spell.exists_next (so_far : Spell begun r key earlier last)
    (going : last.after.context.stored = some key)
    (between : ReflTransGen Aside last.after.context t.context)
    (unheard : ∀ message ∈ t.context.inbox.head?, t.context.jump? message = none) :
    ∃ turn, Spell begun r key (earlier ++ [last]) turn ∧ turn.after = t.tick :=
  ⟨_, so_far.goOn going between unheard, rfl⟩

theorem Alone.next (alone : Alone key command turn) :
    turn.after.context.Coherent ∧
      turn.after.context.script = turn.before.context.script := by
  refine coherent_next alone.coherent (next?_eq_some.2 ⟨key, command, alone.up, rfl, alone.after⟩)

theorem resumes (alone : Alone key command last) (going : last.after.context.stored = some key)
    (between : ReflTransGen Aside last.after.context t.context)
    (unheard : ∀ message ∈ t.context.inbox.head?, t.context.jump? message = none) :
    (t.onContext takeMessage).context.Coherent ∧
      (t.onContext takeMessage).upNext? = some (key, command) ∧
      Undisturbed last.after.context (t.onContext takeMessage).context := by
  obtain ⟨coherent, same⟩ := alone.next
  obtain ⟨still_coherent, undisturbed⟩ := undisturbed_between coherent between
  have whole := undisturbed.trans (takeMessage_unheard unheard)
  have taken := (coherent_takeMessage still_coherent).1
  have here : (takeMessage t.context).index = some key := by
    rw [whole.index]
    exact (coherent.stored_at key going).1
  have running : (takeMessage t.context).script.commands[key]? = some command := by
    rw [whole.script, same]
    exact (upNext?_eq_some alone.coherent alone.up).2
  exact ⟨taken, upNext?_of_index taken here running, whole⟩

/-- In every turn of its spell the command is executed, and no other. -/
theorem Spell.alone (h : r.context.Coherent) (up : r.upNext? = some (key, command))
    (timed : command.duration? = some declared) (spell : Spell begun r key earlier turn) :
    Alone key command turn := by
  induction spell with
  | begin rest => exact alone_of_up h up timed rest
  | @goOn _ _ t so_far going between unheard ih =>
    obtain ⟨coherent, up_again, -⟩ := resumes ih going between unheard
    obtain ⟨spare, whole, log⟩ := exists_spare t
    rw [log]
    exact alone_of_up coherent up_again timed whole

theorem Effect.index_of_endTick {d : Context} (effect : Effect key command c .endTick d) :
    d.index = c.index := by
  cases effect with
  | pass => rfl
  | spent => rfl

/-- So much of the command is left by the turn, after which it goes on if that is something and is
done if it is nothing. -/
def Turn.Leaves (key : Nat) (declared : Numeral) (left : Int) (turn : Turn β) : Prop :=
  (0 < left ∧ turn.events = [⟨key, .again⟩] ∧ InProgress key turn.after.context ∧
      (turn.after.context.remaining key declared).toInt = left) ∨
    (left ≤ 0 ∧ turn.events = [⟨key, .endTick⟩] ∧ IsPast key turn.after.context)

theorem Alone.leaves (alone : Alone key command turn) (declared : Numeral) {left : Int}
    (leaves : Leaves key left (turn.before.execute key command)) :
    turn.Leaves key declared left := by
  have coherent := alone.next.1
  have after := alone.after
  have events := alone.events
  have here := (upNext?_eq_some alone.coherent alone.up).1
  unfold Run.Leaves at leaves
  split at leaves
  · rename_i more
    obtain ⟨again, n, stored, same⟩ := leaves
    rw [again] at after events
    have in_progress : turn.after.context.stored = some key := by rw [after]; rfl
    have remaining : turn.after.context.remaining key declared = n := by
      rw [after, remaining]
      exact congrArg (·.getD declared.toInt64) stored
    refine .inl ⟨more, events, ⟨(coherent.stored_at key in_progress).1, in_progress⟩, ?_⟩
    rw [remaining, same]
  · rename_i none_left
    have effect := effect_of_up alone.coherent alone.up
    rw [leaves] at after events effect
    have index : turn.after.context.index = some (key + 1) := by
      rw [after]
      show (turn.before.execute key command).2.context.index.map (· + 1) = some (key + 1)
      rw [effect.index_of_endTick, here]
      rfl
    have stored : turn.after.context.stored = none := by rw [after]; rfl
    have heap := coherent.heap_eq_empty (by simp [index]) stored
    exact .inr ⟨Int.not_lt.1 none_left, events, index, stored, heap⟩

theorem remaining_of_fresh (h : c.Coherent) (running : c.index ≠ none) (fresh : c.stored = none) :
    (c.remaining key declared).toInt = declared.val := by
  rw [Context.remaining, h.heap_eq_empty running fresh]
  exact Numeral.toInt_toInt64 declared

theorem leaves_plain (h : r.context.Coherent) (up : r.upNext? = some (key, command))
    (timed : command.duration? = some declared) (plain : command.isForceful = false) :
    Leaves key ((r.context.remaining key declared).toInt - 1) (r.execute key command) := by
  have running : r.context.index ≠ none := by simp [(upNext?_eq_some h up).1]
  have nonneg : 0 ≤ (r.context.remaining key declared).toInt := h.remaining_nonneg running declared
  cases command with
  | wait ticks =>
    obtain rfl := Option.some.inj timed
    exact leaves_wait nonneg
  | move heading count forceful =>
    obtain rfl := Option.some.inj timed
    obtain rfl : forceful = false := plain
    show Leaves key _ (r.move key heading count false)
    rcases Int.lt_or_le 0 (r.context.remaining key count).toInt with some_left | none_left
    · rw [move_of_some_left some_left]
      have strode := leaves_stride (r := (r.aim key heading).2) key false
        (r.aim key heading).1 some_left
      rwa [Bool.and_false, if_neg Bool.false_ne_true] at strode
    · rw [move_of_none_left none_left]
      exact leaves_of_none (by omega) r
  | _ => simp [Command.duration?] at timed

omit [Body β] in
theorem Turn.Leaves.of_going {left : Int} (leaves : last.Leaves key declared left)
    (going : last.after.context.stored = some key) :
    0 < left ∧ (last.after.context.remaining key declared).toInt = left := by
  rcases leaves with ⟨more, -, -, remaining⟩ | ⟨-, -, past⟩
  · exact ⟨more, remaining⟩
  · rw [past.stored] at going
    cases going

/-- Every turn of the spell takes one from what the command declared. -/
theorem Spell.counts_down (h : r.context.Coherent) (up : r.upNext? = some (key, command))
    (timed : command.duration? = some declared) (plain : command.isForceful = false)
    (begins : r.context.stored = none) (spell : Spell begun r key earlier turn) :
    earlier.length < max 1 declared.val ∧
      (turn.before.context.remaining key declared).toInt =
        declared.val - (earlier.length : Nat) ∧
      turn.Leaves key declared (declared.val - (earlier.length + 1 : Nat)) := by
  have one_less {earlier : List (Turn β)} {turn : Turn β} (spell : Spell begun r key earlier turn)
      (before : (turn.before.context.remaining key declared).toInt =
        declared.val - (earlier.length : Nat)) :
      turn.Leaves key declared (declared.val - (earlier.length + 1 : Nat)) := by
    have alone := spell.alone h up timed
    have leaves := leaves_plain alone.coherent alone.up timed plain
    rw [before, Int.sub_sub] at leaves
    exact alone.leaves declared leaves
  have running : r.context.index ≠ none := by simp [(upNext?_eq_some h up).1]
  induction spell with
  | begin rest =>
    have before : (r.context.remaining key declared).toInt = declared.val - (0 : Nat) := by
      rw [remaining_of_fresh h running begins]
      simp
    exact ⟨by simp, before, one_less (.begin rest) before⟩
  | @goOn earlier last t so_far going between unheard ih =>
    obtain ⟨more, left⟩ := ih.2.2.of_going going
    obtain ⟨-, -, undisturbed⟩ := resumes (so_far.alone h up timed) going between unheard
    have length : (earlier ++ [last]).length = earlier.length + 1 := List.length_append
    have before : ((t.onContext takeMessage).context.remaining key declared).toInt =
        declared.val - ((earlier ++ [last]).length : Nat) := by
      rw [length, ← left, Context.remaining, undisturbed.heap]
      rfl
    exact ⟨by omega, before, one_less (.goOn so_far going between unheard) before⟩

theorem move_tries {heading : Heading} {count : Numeral} {forceful : Bool}
    (some_left : 0 < (r.context.remaining key count).toInt) :
    let tried := ((r.aim key heading).2.step (r.aim key heading).1).2
    (r.move key heading count forceful).2.body = tried.body ∧
      (r.move key heading count forceful).2.context.generator = tried.context.generator := by
  rw [move_of_some_left some_left]
  unfold stride
  dsimp only
  split
  · exact ⟨rfl, rfl⟩
  · split <;> exact ⟨rfl, rfl⟩

theorem aim_of_free (heading : Heading) (free : r.context.heap.stuck? key = none) :
    r.aim key heading = r.resolve heading := by
  unfold aim
  rw [free]

theorem stuck?_of_plain (h : c.Coherent) (running : c.index ≠ none)
    (here : c.script.commands[key]? = some command) (plain : command.isForceful = false) :
    c.heap.stuck? key = none := by
  cases found : c.heap.stuck? key with
  | none => rfl
  | some d =>
    obtain ⟨-, other, there, forceful⟩ := h.stuck running (key, d) (mem_of_lookup found)
    obtain rfl := Option.some.inj (here.symm.trans there)
    rw [plain] at forceful
    cases forceful

theorem Alone.body_generator (alone : Alone key command turn) :
    turn.after.body = (turn.before.execute key command).2.body ∧
      turn.after.context.generator = (turn.before.execute key command).2.context.generator := by
  rw [alone.after, body_settle, context_settle, generator_settle]
  exact ⟨rfl, rfl⟩

theorem Alone.tries {heading : Heading} {count : Numeral} {forceful : Bool}
    (alone : Alone key (.move heading count forceful) turn)
    (some_left : 0 < (turn.before.context.remaining key count).toInt) :
    let aimed := turn.before.aim key heading
    let tried := (aimed.2.step aimed.1).2
    turn.after.body = tried.body ∧
      turn.after.context.generator = tried.context.generator := by
  obtain ⟨body_after, generator_after⟩ := alone.body_generator
  rw [body_after, generator_after]
  exact move_tries some_left

end Run
end ActorScript
