import ActorScript.Proofs.Context.Coherence
import ActorScript.Proofs.Token.Literal

/-!
What a tick has to do with messages. It takes the oldest that waits and looks at no other; while it
runs none comes in, though a stop or a lock may drop those that are left. What it posts is put
behind what was posted before, in small letters.
-/
namespace ActorScript

/-- The message is held in small letters, as posting leaves it. -/
structure Message.InSmallLetters (m : Message) : Prop where
  recipient : lowerCase m.recipient = m.recipient
  text : lowerCase m.text = m.text

namespace Context

variable {c d : Context}

theorem messages_jump {label : String} (made : c.jump? label = some d) :
    d.inbox = c.inbox ∧ d.outbox = c.outbox := by
  have dropped : c.dropStored.inbox = c.inbox ∧ c.dropStored.outbox = c.outbox := by
    unfold dropStored
    split <;> exact ⟨rfl, rfl⟩
  unfold jump? at made
  split at made
  · simp at made
  · split at made
    · simp at made
    · obtain rfl := Option.some.inj made
      exact dropped

theorem messages_zap (label : String) (c : Context) :
    (c.zap label).inbox = c.inbox ∧ (c.zap label).outbox = c.outbox := by
  unfold zap
  dsimp only
  split <;> exact ⟨rfl, rfl⟩

theorem messages_restore (label : String) (c : Context) :
    (c.restore label).inbox = c.inbox ∧ (c.restore label).outbox = c.outbox := by
  unfold restore
  dsimp only
  split <;> exact ⟨rfl, rfl⟩

theorem messages_settle (key : Nat) (outcome : Outcome) (c : Context) :
    (c.settle key outcome).inbox = c.inbox ∧ (c.settle key outcome).outbox = c.outbox := by
  cases outcome <;> exact ⟨rfl, rfl⟩

/-- From one context to another no message came in, and only some in small letters went out. -/
structure Speaks (c d : Context) : Prop where
  inbox : d.inbox = c.inbox ∨ d.inbox = []
  outbox : ∃ posted, d.outbox = c.outbox ++ posted ∧ ∀ m ∈ posted, m.InSmallLetters

theorem Speaks.nothing (inbox : d.inbox = c.inbox ∨ d.inbox = []) (outbox : d.outbox = c.outbox) :
    Speaks c d := ⟨inbox, [], by rw [outbox, List.append_nil], by simp⟩

theorem Speaks.trans {e : Context} (first : Speaks c d) (second : Speaks d e) : Speaks c e := by
  obtain ⟨posted, out, small⟩ := first.outbox
  obtain ⟨posted', out', small'⟩ := second.outbox
  refine ⟨?_, posted ++ posted', by rw [out', out, List.append_assoc], fun m mem => ?_⟩
  · rcases second.inbox with same | empty
    · rw [same]
      exact first.inbox
    · exact .inr empty
  · rcases List.mem_append.1 mem with mem | mem
    · exact small m mem
    · exact small' m mem

end Context

namespace Run

open Context

variable {β : Type} {c d : Context} {key : Nat} {command : Command} {outcome : Outcome}

theorem Effect.speaks (effect : Effect key command c outcome d) : Speaks c d := by
  cases effect with
  | pass generator done => exact .nothing (.inl rfl) rfl
  | stop => exact .nothing (.inr rfl) rfl
  | post recipient text =>
    refine ⟨.inl rfl, [⟨lowerCase recipient, lowerCase text⟩], rfl, fun m mem => ?_⟩
    obtain rfl := List.mem_singleton.1 mem
    exact ⟨lowerCase_lowerCase recipient, lowerCase_lowerCase text⟩
  | setLocked locked =>
    refine .nothing ?_ rfl
    cases locked
    · exact .inl rfl
    · exact .inr rfl
  | restore label => exact .nothing (.inl (messages_restore label c).1) (messages_restore label c).2
  | zap label => exact .nothing (.inl (messages_zap label c).1) (messages_zap label c).2
  | jump generator label made =>
    obtain ⟨inbox, outbox⟩ := messages_jump made
    exact .nothing (.inl inbox) outbox
  | spent generator => exact .nothing (.inl rfl) rfl
  | hold generator heap n declared duration stuck pos le => exact .nothing (.inl rfl) rfl

theorem messages_takeMessage (c : Context) :
    (takeMessage c).inbox = c.inbox.tail ∧ (takeMessage c).outbox = c.outbox := by
  unfold takeMessage
  split
  · rename_i empty
    exact ⟨by rw [empty]; rfl, rfl⟩
  · rename_i message inbox waiting
    dsimp only
    rw [waiting]
    cases made : ({ c with inbox } : Context).jump? message with
    | none => exact ⟨rfl, rfl⟩
    | some d => exact messages_jump made

variable [Body β] {r s : Run β} {event : Event}

theorem speaks_next (h : r.context.Coherent) (ran : r.next? = some (event, s)) :
    Speaks r.context s.context := by
  obtain ⟨key, command, up, -, rfl⟩ := next?_eq_some.1 ran
  rw [context_settle]
  obtain ⟨inbox, outbox⟩ := messages_settle key (r.execute key command).1
    (r.execute key command).2.context
  exact (effect_of_up h up).speaks.trans (.nothing (.inl inbox) outbox)

theorem speaks_commands (budget : Nat) (h : r.context.Coherent) :
    Speaks r.context (commands budget r).context := by
  have begun : r.context.Coherent ∧ Speaks r.context r.context := ⟨h, .nothing (.inl rfl) rfl⟩
  refine (commands_induction (motive := fun s => s.context.Coherent ∧ Speaks r.context s.context)
    (fun kept ran => ?_) budget begun).2
  exact ⟨(coherent_next kept.1 ran).1, kept.2.trans (speaks_next kept.1 ran)⟩

theorem speaks_tick (h : r.context.Coherent) :
    (r.tick.context.inbox = r.context.inbox.tail ∨ r.tick.context.inbox = []) ∧
      ∃ posted, r.tick.context.outbox = r.context.outbox ++ posted ∧
        ∀ m ∈ posted, m.InSmallLetters := by
  obtain ⟨inbox, outbox⟩ := messages_takeMessage r.context
  have spoken := speaks_commands (r := r.onContext takeMessage) (budget (takeMessage r.context))
    (coherent_takeMessage h).1
  rw [← inbox, ← outbox]
  exact ⟨spoken.inbox, spoken.outbox⟩

end Run

namespace Context

def deaf (c : Context) : Context := { c with inbox := [] }

theorem dropStored_deaf (c : Context) : c.deaf.dropStored = c.dropStored.deaf := by
  obtain ⟨script, index, cursors, stored, inbox, outbox, heap, locked, generator⟩ := c
  cases stored <;> rfl

theorem jump?_deaf (label : String) (c : Context) :
    c.deaf.jump? label = (c.jump? label).map deaf := by
  have target : c.deaf.target? label = c.target? label := rfl
  have index : c.deaf.index = c.index := rfl
  rw [jump?, jump?, index, target, dropStored_deaf]
  cases c.index with
  | none => rfl
  | some i => cases c.target? label <;> rfl

theorem zap_deaf (label : String) (c : Context) : c.deaf.zap label = (c.zap label).deaf := by
  have cursors : c.deaf.cursors = c.cursors := rfl
  have script : c.deaf.script = c.script := rfl
  rw [zap, zap, cursors, script]
  split <;> rfl

theorem restore_deaf (label : String) (c : Context) :
    c.deaf.restore label = (c.restore label).deaf := by
  have cursors : c.deaf.cursors = c.cursors := rfl
  rw [restore, restore, cursors]
  split <;> rfl

end Context

namespace Run

variable {β : Type} (r : Run β)

abbrev deaf (r : Run β) : Run β := r.onContext .deaf

theorem body_deaf : r.deaf.body = r.body := rfl

theorem settle_deaf (key : Nat) (outcome : Outcome) :
    r.deaf.settle key outcome = (r.settle key outcome).deaf := by
  cases outcome <;> rfl

theorem jumpOr_deaf (label : Option String) (otherwise : Outcome) :
    r.deaf.jumpOr label otherwise =
      ((r.jumpOr label otherwise).1, (r.jumpOr label otherwise).2.deaf) := by
  cases label with
  | none => rfl
  | some label =>
    have jumped : r.deaf.context.jump? label = (r.context.jump? label).map .deaf :=
      Context.jump?_deaf label r.context
    rw [jumpOr, jumpOr, Option.bind_some, Option.bind_some, jumped]
    cases r.context.jump? label <;> rfl

variable [Body β]

theorem resolve_deaf (heading : Heading) :
    r.deaf.resolve heading = ((r.resolve heading).1, (r.resolve heading).2.deaf) := rfl

theorem step_deaf (direction : Option Direction) :
    r.deaf.step direction = ((r.step direction).1, (r.step direction).2.deaf) := by
  cases direction <;> rfl

theorem act_deaf (heading : Heading) (f : Direction → β → β) :
    r.deaf.act heading f = (r.act heading f).deaf := by
  rw [act, act, resolve_deaf]
  obtain ⟨direction, s⟩ := r.resolve heading
  cases direction <;> rfl

theorem aim_deaf (key : Nat) (heading : Heading) :
    r.deaf.aim key heading = ((r.aim key heading).1, (r.aim key heading).2.deaf) := by
  have stuck : r.deaf.context.heap.stuck? key = r.context.heap.stuck? key := rfl
  rw [aim, aim, stuck]
  cases r.context.heap.stuck? key <;> rfl

theorem stride_deaf (key : Nat) (forceful : Bool) (remaining : Int64)
    (direction : Option Direction) :
    r.deaf.stride key forceful remaining direction =
      ((r.stride key forceful remaining direction).1,
        (r.stride key forceful remaining direction).2.deaf) := by
  unfold stride
  rw [step_deaf]
  dsimp only
  split
  · rfl
  · split <;> rfl

theorem move_deaf (key : Nat) (heading : Heading) (count : Numeral) (forceful : Bool) :
    r.deaf.move key heading count forceful =
      ((r.move key heading count forceful).1, (r.move key heading count forceful).2.deaf) := by
  have count? : r.deaf.context.heap.count? key = r.context.heap.count? key := rfl
  rw [move_eq, move_eq, count?, aim_deaf]
  split
  · rfl
  · exact stride_deaf ..

theorem execute_deaf (key : Nat) (command : Command) :
    r.deaf.execute key command =
      ((r.execute key command).1, (r.execute key command).2.deaf) := by
  cases command with
  | move heading count forceful => exact move_deaf ..
  | attempt heading otherwise =>
    simp only [execute, resolve_deaf, step_deaf]
    split
    · rfl
    · exact jumpOr_deaf ..
  | wait ticks =>
    show (if 0 < (r.context.heap.count? key).getD ticks.toInt64 - 1 then _ else _ :
      Outcome × Run β) = _
    simp only [execute, wait]
    split <;> rfl
  | say text => rfl
  | scroll lines => rfl
  | finish => rfl
  | die => rfl
  | jumpIf condition label =>
    have drawn : r.deaf.context.draw (condition.holds r.body) =
        ((r.context.draw (condition.holds r.body)).1,
          (r.context.draw (condition.holds r.body)).2.deaf) := rfl
    simp only [execute, body_deaf, drawn]
    split
    · exact jumpOr_deaf { r with context := _ } ..
    · rfl
  | put heading tile => simp only [execute, act_deaf]
  | send recipient message =>
    cases recipient with
    | none => exact jumpOr_deaf ..
    | some name =>
      simp only [execute]
      split
      · exact jumpOr_deaf ..
      · rfl
  | set counter value => rfl
  | give counter amount => rfl
  | take counter amount otherwise =>
    show (if amount.toInt64 ≤ Body.counter r.body counter then _ else _ : Outcome × Run β) = _
    simp only [execute]
    split
    · rfl
    · exact jumpOr_deaf ..
  | become tile => rfl
  | change source target => rfl
  | char code => rfl
  | torch radius => rfl
  | shoot heading => simp only [execute, act_deaf]
  | throwStar heading => simp only [execute, act_deaf]
  | walk heading => rfl
  | stand => rfl
  | lock => rfl
  | unlock => rfl
  | restore label =>
    have restored := Context.restore_deaf label r.context
    simp only [execute, onContext, restored]
  | zap label =>
    have zapped := Context.zap_deaf label r.context
    simp only [execute, onContext, zapped]
  | play tune exclusive => rfl

theorem next?_deaf :
    r.deaf.next? = r.next?.map fun (event, s) => (event, s.deaf) := by
  have up : r.deaf.upNext? = r.upNext? := rfl
  rw [next?, next?, up]
  cases r.upNext? with
  | none => rfl
  | some next =>
    simp only [Option.map_some, execute_deaf, settle_deaf]

theorem commands_deaf (budget : Nat) : commands budget r.deaf = (commands budget r).deaf := by
  induction budget generalizing r with
  | zero => rfl
  | succ budget ih =>
    rw [commands, commands, next?_deaf]
    cases r.next? with
    | none => rfl
    | some next =>
      obtain ⟨event, s⟩ := next
      simp only [Option.map_some]
      cases event.outcome with
      | endTick => rfl
      | again => rfl
      | proceed => exact ih s
      | jumped => exact ih s

theorem deaf_takeMessage (c : Context) :
    (takeMessage c).deaf =
      match c.inbox.head? with
      | none => c.deaf
      | some message => (c.deaf.jump? message).getD c.deaf := by
  unfold takeMessage
  cases waiting : c.inbox with
  | nil => rfl
  | cons message inbox =>
    have jumped := Context.jump?_deaf message { c with inbox }
    have same : ({ c with inbox } : Context).deaf = c.deaf := rfl
    rw [same] at jumped
    simp only [List.head?_cons, jumped]
    cases ({ c with inbox } : Context).jump? message <;> rfl

/-- Where nothing but the messages differs that wait behind the oldest, a tick comes to the same.
-/
theorem tick_hears_oldest {r s : Run β} (same : r.deaf = s.deaf)
    (oldest : r.context.inbox.head? = s.context.inbox.head?) : r.tick.deaf = s.tick.deaf := by
  have contexts : r.context.deaf = s.context.deaf := congrArg Run.context same
  have bodies : r.deaf.body = s.deaf.body := congrArg Run.body same
  have taken : (takeMessage r.context).deaf = (takeMessage s.context).deaf := by
    rw [deaf_takeMessage, deaf_takeMessage, contexts, oldest]
  have begun : (r.onContext takeMessage).deaf = (s.onContext takeMessage).deaf := by
    show Run.mk (takeMessage r.context).deaf r.deaf.body =
      Run.mk (takeMessage s.context).deaf s.deaf.body
    rw [taken, bodies]
  have budgets : budget (takeMessage r.context) = budget (takeMessage s.context) :=
    congrArg (fun c => max 1 c.script.commands.length) taken
  show (commands (budget (takeMessage r.context)) _).deaf = (commands _ _).deaf
  rw [← commands_deaf, ← commands_deaf, begun, budgets]
  rfl

end Run
end ActorScript
