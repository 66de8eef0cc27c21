import ActorScript.Proofs.Context.Spell

/-!
The budget of a tick. It is enough for every chain of commands without a jump, wherever the chain
begins, since such a chain ends behind the last command at the latest. A tick that is cut off has
gone in a circle, and the next one takes up the circle where it was cut.
-/
namespace ActorScript

open Relation

namespace Run

open Context

variable {β : Type} {r s t : Run β} {event : Event} {done : List Event} {key start : Nat}

section Commands

variable [Body β]

/-- The commands end because the budget is spent: each of them left the tick to go on, and the
script is still running. -/
def isCut : Nat → Run β → Bool
  | 0, r =>
    match r.context.state with
    | .running _ => true
    | _ => false
  | budget + 1, r =>
    match r.next? with
    | none => false
    | some (event, r) =>
      match event.outcome with
      | .endTick | .again => false
      | .proceed | .jumped => isCut budget r

def isCutOff (r : Run β) : Bool :=
  let r := r.onContext takeMessage
  isCut (budget r.context) r

theorem length_logged_le (budget : Nat) (r : Run β) : (logged budget r).1.length ≤ budget := by
  induction budget generalizing r with
  | zero => exact Nat.le_refl 0
  | succ budget ih =>
    unfold logged
    split
    · exact Nat.zero_le _
    · rename_i event s ran
      split
      · exact Nat.le_add_left 1 budget
      · exact Nat.le_add_left 1 budget
      · exact Nat.succ_le_succ (ih s)
      · exact Nat.succ_le_succ (ih s)

theorem isCut_succ {budget : Nat} (cut : isCut (budget + 1) r = true) : ∃ event s,
    r.next? = some (event, s) ∧ (event.outcome = .proceed ∨ event.outcome = .jumped) ∧
      isCut budget s = true ∧
      ∀ more, logged (more + 1) r = (event :: (logged more s).1, (logged more s).2) := by
  unfold isCut at cut
  cases ran : r.next? with
  | none => simp [ran] at cut
  | some next =>
    obtain ⟨⟨key, outcome⟩, s⟩ := next
    rw [ran] at cut
    have unfolds (on : outcome = .proceed ∨ outcome = .jumped) (more : Nat) :
        logged (more + 1) r = (⟨key, outcome⟩ :: (logged more s).1, (logged more s).2) := by
      rw [logged, ran]
      rcases on with rfl | rfl <;> rfl
    cases outcome with
    | endTick => simp at cut
    | again => simp at cut
    | proceed => exact ⟨_, s, rfl, .inl rfl, cut, unfolds (.inl rfl)⟩
    | jumped => exact ⟨_, s, rfl, .inr rfl, cut, unfolds (.inr rfl)⟩

/-- What a command keeps that leaves the tick to go on, a tick that is cut keeps to its end. -/
theorem cut_induction {motive : List Event → Run β → Prop}
    (next : ∀ {done : List Event} {r s : Run β} {event : Event}, motive done r →
      r.next? = some (event, s) → event.outcome = .proceed ∨ event.outcome = .jumped →
      motive (done ++ [event]) s)
    (budget : Nat) (holds : motive done r) (cut : isCut budget r = true) :
    motive (done ++ (logged budget r).1) (logged budget r).2 := by
  induction budget generalizing done r with
  | zero =>
    rw [logged, List.append_nil]
    exact holds
  | succ budget ih =>
    obtain ⟨event, s, ran, on, still_cut, unfolds⟩ := isCut_succ cut
    have later := ih (next holds ran on) still_cut
    rw [List.append_assoc] at later
    rw [unfolds]
    exact later

theorem running_of_cut (budget : Nat) (cut : isCut budget r = true) :
    (logged budget r).1.length = budget ∧
      ∃ index, (logged budget r).2.context.state = .running index := by
  induction budget generalizing r with
  | zero =>
    refine ⟨rfl, ?_⟩
    unfold isCut at cut
    split at cut
    · rename_i index running
      exact ⟨index, running⟩
    · cases cut
  | succ budget ih =>
    obtain ⟨event, s, -, -, still_cut, unfolds⟩ := isCut_succ cut
    obtain ⟨spent, running⟩ := ih still_cut
    rw [unfolds]
    exact ⟨congrArg (· + 1) spent, running⟩

theorem logged_past_cut (budget more : Nat) (cut : isCut budget r = true) :
    (logged (budget + more) r).1 =
      (logged budget r).1 ++ (logged more (logged budget r).2).1 := by
  induction budget generalizing r with
  | zero => rw [Nat.zero_add, logged, List.nil_append]
  | succ budget ih =>
    obtain ⟨event, s, -, -, still_cut, unfolds⟩ := isCut_succ cut
    rw [Nat.add_right_comm, unfolds, unfolds, ih still_cut, List.cons_append]

theorem logged_of_not_cut (budget more : Nat) (uncut : isCut budget r = false) :
    logged (budget + more) r = logged budget r := by
  induction budget generalizing r with
  | zero =>
    have up : r.upNext? = none := by
      rw [isCut] at uncut
      rw [upNext?]
      cases state : r.context.state with
      | running index =>
        rw [state] at uncut
        cases uncut
      | stopped | halted => rfl
    cases more with
    | zero => rfl
    | succ more =>
      have idle : r.next? = none := congrArg (Option.map _) up
      rw [Nat.zero_add, logged, logged, idle]
  | succ budget ih =>
    rw [Nat.add_right_comm, logged, logged]
    unfold isCut at uncut
    cases ran : r.next? with
    | none => rfl
    | some next =>
      obtain ⟨⟨key, outcome⟩, s⟩ := next
      rw [ran] at uncut
      cases outcome with
      | endTick | again => rfl
      | proceed | jumped =>
        have same := ih (r := s) uncut
        dsimp only
        rw [same]

end Commands

section Chain

theorem stored_of_effect {command : Command} {c d : Context} {outcome : Outcome}
    (effect : Effect key command c outcome d)
    (on : outcome = .proceed ∨ outcome = .jumped) : (d.settle key outcome).stored = none := by
  rcases on with rfl | rfl
  · rfl
  · cases effect with
    | pass generator done => simp at done
    | jump generator label made =>
      obtain ⟨-, position, -, rfl⟩ := jump?_eq_some.1 made
      show (Context.dropStored { c with generator }).stored = none
      unfold dropStored
      cases stored : c.stored with
      | none => simp
      | some key => rfl

theorem index_of_effect {command : Command} {c d : Context}
    (effect : Effect key command c .proceed d) {i j : Nat} (here : c.index = some i)
    (next : (d.settle key .proceed).index = some j) : j = i + 1 := by
  have finished : (d.finish key).index = some j := next
  have same : d.index = none ∨ d.index = some i := by
    cases effect with
    | stop => exact .inl rfl
    | restore label => exact .inr ((index_restore label c).trans here)
    | zap label => exact .inr ((index_zap label c).trans here)
    | _ => exact .inr here
  unfold finish at finished
  rcases same with stopped | here
  · simp [stopped] at finished
  · simpa [here, eq_comm] using finished

/-- Where commands led that began at an index and each left the tick to go on: if none jumped, past
as many commands as there were. -/
structure Chain (start : Nat) (done : List Event) (c : Context) : Prop where
  coherent : c.Coherent
  fresh : done ≠ [] → c.stored = none
  straight : (∀ event ∈ done, event.outcome ≠ .jumped) →
    ∀ i, c.index = some i → i = start + done.length

variable [Body β]

theorem Chain.next (chain : Chain start done r.context) (ran : r.next? = some (event, s))
    (on : event.outcome = .proceed ∨ event.outcome = .jumped) :
    Chain start (done ++ [event]) s.context := by
  have coherent := (coherent_next chain.coherent ran).1
  obtain ⟨key, command, up, rfl, rfl⟩ := next?_eq_some.1 ran
  obtain ⟨here, -⟩ := upNext?_eq_some chain.coherent up
  have effect := effect_of_up chain.coherent up
  rw [context_settle] at coherent ⊢
  refine ⟨coherent, fun _ => stored_of_effect effect on, fun no_jump j next => ?_⟩
  obtain ⟨before, last⟩ := List.forall_mem_append.1 no_jump
  have proceeds : (r.execute key command).1 = .proceed :=
    on.resolve_right (last _ (List.mem_singleton_self _))
  have so_far := chain.straight before key here
  rw [proceeds] at effect next
  have one_on := index_of_effect effect here next
  rw [List.length_append, List.length_singleton]
  omega

end Chain

section Tick

variable [Body β]

theorem index_of_running {c : Context} (running : c.state = .running key) :
    c.index = some key ∧ key < c.script.commands.length := by
  unfold state at running
  split at running
  · cases running
  · rename_i i here
    split at running
    · rename_i inside
      obtain rfl := State.running.inj running
      exact ⟨here, inside⟩
    · cases running

theorem state_of_index {c : Context} (here : c.index = some key)
    (inside : key < c.script.commands.length) : c.state = .running key := by
  unfold state
  rw [here]
  exact if_pos inside

theorem logged_begins (h : r.context.Coherent) (running : r.context.state = .running key)
    (spare : Nat) : ∃ event later, (logged (spare + 1) r).1 = event :: later ∧ event.key = key := by
  obtain ⟨here, inside⟩ := index_of_running running
  have up := upNext?_of_index h here (List.getElem?_eq_getElem inside)
  have ran := next?_eq_some.2 ⟨key, _, up, rfl, rfl⟩
  rw [logged, ran]
  dsimp only
  split
  · exact ⟨_, _, rfl, rfl⟩
  · exact ⟨_, _, rfl, rfl⟩
  · exact ⟨_, _, rfl, rfl⟩
  · exact ⟨_, _, rfl, rfl⟩

theorem log_begins (h : r.context.Coherent) (running : r.context.state = .running key)
    (between : ReflTransGen Aside r.context t.context)
    (unheard : ∀ message ∈ t.context.inbox.head?, t.context.jump? message = none) :
    ∃ event later, t.log = event :: later ∧ event.key = key := by
  obtain ⟨here, inside⟩ := index_of_running running
  obtain ⟨coherent, undisturbed⟩ := undisturbed_between h between
  have whole := undisturbed.trans (takeMessage_unheard unheard)
  have still_running : (takeMessage t.context).state = .running key := by
    apply state_of_index
    · rw [whole.index, here]
    · rw [whole.script]
      exact inside
  obtain ⟨spare, -, log⟩ := exists_spare t
  rw [log]
  exact logged_begins (coherent_takeMessage coherent).1 still_running spare

end Tick

section CutOff

variable [Body β]

omit [Body β] in
theorem budget_taken (h : r.context.Coherent) :
    budget (r.onContext takeMessage).context = budget r.context := by
  show budget (takeMessage r.context) = budget r.context
  rw [budget, (coherent_takeMessage h).2, budget]

theorem log_of_not_cutOff (h : r.context.Coherent) (uncut : r.isCutOff = false) (more : Nat) :
    (logged (budget r.context + more) (r.onContext takeMessage)).1 = r.log ∧
      commands (budget r.context + more) (r.onContext takeMessage) = r.tick := by
  have ended := logged_of_not_cut _ more uncut
  rw [budget_taken h] at ended
  have granted : budget r.context = budget (r.onContext takeMessage).context :=
    (budget_taken h).symm
  constructor
  · rw [ended, granted]
    rfl
  · rw [← logged_snd, ended, logged_snd, granted]
    rfl

theorem spent_of_cutOff (h : r.context.Coherent) (cut : r.isCutOff = true) :
    r.log.length = budget r.context ∧ ∃ key, r.tick.context.state = .running key := by
  obtain ⟨spent, running⟩ := running_of_cut _ cut
  rw [logged_snd] at running
  exact ⟨spent.trans (budget_taken h), running⟩

theorem chain_of_cutOff (h : r.context.Coherent) (cut : r.isCutOff = true) :
    ∃ start, Chain start r.log r.tick.context := by
  have begun : Chain ((takeMessage r.context).index.getD 0) [] (takeMessage r.context) := by
    refine ⟨(coherent_takeMessage h).1, fun ran => absurd rfl ran, fun _ i here => ?_⟩
    rw [here]
    rfl
  have chain := cut_induction (motive := fun done s => Chain _ done s.context)
    (fun chain ran on => chain.next ran on) _ begun cut
  rw [logged_snd] at chain
  exact ⟨_, chain⟩

theorem jumped_of_cutOff (h : r.context.Coherent) (cut : r.isCutOff = true) :
    ∃ event ∈ r.log, event.outcome = .jumped := by
  by_contra none_jumped
  obtain ⟨spent, key, running⟩ := spent_of_cutOff h cut
  obtain ⟨start, chain⟩ := chain_of_cutOff h cut
  obtain ⟨here, inside⟩ := index_of_running running
  have far := chain.straight (fun event ran jumped => none_jumped ⟨event, ran, jumped⟩) key here
  have enough : r.context.script.commands.length ≤ budget r.context := Nat.le_max_right 1 _
  rw [(coherent_tick h).2] at inside
  omega

/-- One more of the budget executes one more command, the one at the cursor. -/
theorem one_more_of_cutOff (h : r.context.Coherent) (cut : r.isCutOff = true)
    (running : r.tick.context.state = .running key) :
    ∃ event, (logged (budget r.context + 1) (r.onContext takeMessage)).1 = r.log ++ [event] ∧
      event.key = key := by
  have past : (logged (budget (r.onContext takeMessage).context + 1) (r.onContext takeMessage)).1 =
      r.log ++ (logged 1 r.tick).1 := by
    have whole := logged_past_cut _ 1 cut
    rw [logged_snd] at whole
    exact whole
  rw [budget_taken h] at past
  obtain ⟨event, later, one_more, next⟩ := logged_begins (coherent_tick h).1 running 0
  have alone : later = [] := by
    have one := length_logged_le (0 + 1) r.tick
    rw [one_more] at one
    exact List.eq_nil_of_length_eq_zero (by simpa using one)
  rw [alone] at one_more
  rw [one_more] at past
  exact ⟨event, past, next⟩

end CutOff

/-- A tick executes at most as many commands as the script has, or one. With a larger budget it
would not go on, unless the budget cuts it off; then one of its commands has jumped, and the script
is left running, with no command in progress, at the very command that one more of the budget would
have executed. There the next tick takes up in which no message is heard. -/
theorem budget_cuts_no_chain [Body β] (name text : String)
    (reachable : Reachable (.ofText name text) r.context) :
    r.log.length ≤ max 1 (Script.ofText name text).commands.length ∧
    (r.isCutOff = false →
      ∀ more, (logged (budget r.context + more) (r.onContext takeMessage)).1 = r.log ∧
        commands (budget r.context + more) (r.onContext takeMessage) = r.tick) ∧
    (r.isCutOff = true →
      r.log.length = max 1 (Script.ofText name text).commands.length ∧
      (∃ event ∈ r.log, event.outcome = .jumped) ∧
      ∃ key, r.tick.context.state = .running key ∧ r.tick.context.stored = none ∧
        (∃ event, (logged (budget r.context + 1) (r.onContext takeMessage)).1 = r.log ++ [event] ∧
          event.key = key) ∧
        ∀ t : Run β, ReflTransGen Aside r.tick.context t.context →
          (∀ message ∈ t.context.inbox.head?, t.context.jump? message = none) →
          ∃ event later, t.log = event :: later ∧ event.key = key) := by
  obtain ⟨h, same⟩ := reachable_coherent (Script.labelsWithin_ofText name text) reachable
  have whole : budget r.context = max 1 (Script.ofText name text).commands.length := by
    rw [budget, same]
  rw [← whole]
  refine ⟨?_, fun uncut more => log_of_not_cutOff h uncut more, fun cut => ?_⟩
  · rw [← budget_taken h]
    exact length_logged_le _ _
  · obtain ⟨spent, key, running⟩ := spent_of_cutOff h cut
    obtain ⟨start, chain⟩ := chain_of_cutOff h cut
    have some_ran : r.log ≠ [] := List.ne_nil_of_length_pos (by
      rw [spent]
      exact Nat.le_max_left 1 _)
    refine ⟨spent, jumped_of_cutOff h cut, key, running, chain.fresh some_ran, ?_, fun t => ?_⟩
    · exact one_more_of_cutOff h cut running
    · exact log_begins chain.coherent running

/-- A carousel goes round with every tick, and its gold comes once a tick. -/
theorem carousel_goes_round :
    let text := ":top\ngive gold 1\nsend top"
    let begun : Run Recorder := ⟨.start (.ofText "carousel" text) (.seeded 42), .named "carousel"⟩
    let called : Run Recorder := ⟨begun.tick.context.send "nowhere", begun.tick.body⟩
    begun.isCutOff = true ∧ begun.log.length = 2 ∧
      ∃ event later, called.log = event :: later ∧ event.key = 0 := by
  intro text begun called
  have cut : begun.isCutOff = true := by decide +kernel
  have waiting : called.context.inbox = ["nowhere"] := by decide +kernel
  have nowhere : called.context.target? "nowhere" = none := by decide +kernel
  have unheard : ∀ message ∈ called.context.inbox.head?, called.context.jump? message = none := by
    intro message mem
    rw [waiting] at mem
    obtain rfl := Option.some.inj mem
    exact jump?_eq_none.2 (.inr nowhere)
  have reachable : Reachable (.ofText "carousel" text) begun.context := .start 42
  obtain ⟨-, -, spent⟩ := budget_cuts_no_chain "carousel" text reachable
  obtain ⟨length, -, key, running, -, -, resumes⟩ := spent cut
  obtain ⟨event, later, log, next⟩ := resumes called (.single (.send "nowhere" _)) unheard
  have top : begun.tick.context.state = .running 0 := by decide +kernel
  have here : key = 0 := by
    rw [top] at running
    exact (State.running.inj running).symm
  refine ⟨cut, ?_, event, later, log, next.trans here⟩
  rw [length]
  decide +kernel

end Run
end ActorScript
