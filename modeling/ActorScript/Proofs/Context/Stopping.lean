import ActorScript.Proofs.Context.Coherence
import ActorScript.Proofs.Context.Touch
import Mathlib.Logic.Relation

/-!
A stop is for good. Nothing that is done to a stopped context makes it run a command again, and a
command that takes the actor off its tile stops the script, so that no act can be on record after
such a departure.
-/
namespace ActorScript

namespace Context

variable {c d : Context}

theorem state_eq_stopped : c.state = .stopped ↔ c.index = none := by
  unfold state
  cases c.index with
  | none => simp
  | some i =>
    dsimp only
    split <;> simp

theorem jump?_stopped (stopped : c.index = none) (label : String) : c.jump? label = none := by
  rw [jump?, stopped]
  rfl

theorem send_stopped (stopped : c.index = none) (message : String) : c.send message = c := by
  rw [send, stopped, Option.isNone_none, Bool.or_true]
  rfl

theorem index_settle (stopped : c.index = none) (key : Nat) (outcome : Outcome) :
    (c.settle key outcome).index = none := by
  cases outcome <;> simp [settle, finish, stopped]

end Context

namespace Run

variable {β : Type} {r s : Run β} {c : Context}

theorem upNext?_stopped (stopped : r.context.index = none) : r.upNext? = none := by
  rw [upNext?, Context.state_eq_stopped.2 stopped]

theorem takeMessage_stopped (stopped : c.index = none) : (takeMessage c).index = none := by
  unfold takeMessage
  split
  · exact stopped
  · rename_i message inbox _
    have stays : ({ c with inbox } : Context).index = none := stopped
    dsimp only
    rw [Context.jump?_stopped stays]
    exact stopped

variable [Body β]

theorem next?_stopped (stopped : r.context.index = none) : r.next? = none := by
  rw [next?, upNext?_stopped stopped, Option.map_none]

theorem commands_stopped (stopped : r.context.index = none) (budget : Nat) :
    commands budget r = r := by
  cases budget with
  | zero => rfl
  | succ budget => rw [commands, next?_stopped stopped]

theorem tick_stopped (stopped : r.context.index = none) : r.tick = r.onContext takeMessage :=
  commands_stopped (takeMessage_stopped stopped) _

end Run

namespace Context

variable {c d : Context}

theorem step_stopped (stopped : c.index = none) (step : Step c d) : d.index = none := by
  cases step with
  | send message => rw [send_stopped stopped, stopped]
  | setLocked locked => exact stopped
  | stop => rfl
  | jump label => rw [jump?_stopped stopped, Option.getD_none, stopped]
  | zap label => rw [index_zap, stopped]
  | restore label => rw [index_restore, stopped]
  | post recipient text => exact stopped
  | emptyOutbox => exact stopped
  | tick r =>
    rw [Run.tick_stopped stopped]
    exact Run.takeMessage_stopped stopped

/-- What may still come to a context that is left to itself. -/
inductive Disturbance : Context → Context → Prop where
  | send (message : String) (c : Context) : Disturbance c (c.send message)
  | tick {β : Type} [Body β] (r : Run β) : Disturbance r.context r.tick.context
  | jump (label : String) (c : Context) : Disturbance c ((c.jump? label).getD c)
  | zap (label : String) (c : Context) : Disturbance c (c.zap label)
  | restore (label : String) (c : Context) : Disturbance c (c.restore label)
  | setLocked (locked : Bool) (c : Context) : Disturbance c (c.setLocked locked)

/-- Stopped, with no message waiting. Then the lock and the cursors of labels are all that can still
change. -/
structure Silent (c : Context) : Prop where
  stopped : c.index = none
  inbox_empty : c.inbox = []

theorem Silent.takeMessage (h : c.Silent) : Run.takeMessage c = c := by
  rw [Run.takeMessage, h.inbox_empty]

theorem Silent.tick (h : c.Silent) {β : Type} [Body β] (body : β) :
    Run.tick ⟨c, body⟩ = ⟨c, body⟩ := by
  rw [Run.tick_stopped h.stopped, Run.onContext, h.takeMessage]

theorem Silent.disturbed (h : c.Silent) (disturbance : Disturbance c d) :
    d.Silent ∧ d.generator = c.generator ∧ d.outbox = c.outbox := by
  cases disturbance with
  | send message =>
    rw [send_stopped h.stopped]
    exact ⟨h, rfl, rfl⟩
  | tick r =>
    rw [h.tick r.body]
    exact ⟨h, rfl, rfl⟩
  | jump label =>
    rw [jump?_stopped h.stopped, Option.getD_none]
    exact ⟨h, rfl, rfl⟩
  | zap label =>
    unfold zap
    dsimp only
    split
    · exact ⟨⟨h.stopped, h.inbox_empty⟩, rfl, rfl⟩
    · exact ⟨h, rfl, rfl⟩
  | restore label =>
    unfold restore
    dsimp only
    split
    · exact ⟨⟨h.stopped, h.inbox_empty⟩, rfl, rfl⟩
    · exact ⟨h, rfl, rfl⟩
  | setLocked locked =>
    have empty : (c.setLocked locked).inbox = [] := by
      cases locked
      · exact h.inbox_empty
      · rfl
    exact ⟨⟨h.stopped, empty⟩, rfl, rfl⟩

theorem Silent.left_alone (h : c.Silent) (later : Relation.ReflTransGen Disturbance c d) :
    d.Silent ∧ d.generator = c.generator ∧ d.outbox = c.outbox := by
  induction later with
  | refl => exact ⟨h, rfl, rfl⟩
  | tail _ disturbance ih =>
    obtain ⟨silent, drawn, posted⟩ := ih
    obtain ⟨silent', drawn', posted'⟩ := silent.disturbed disturbance
    exact ⟨silent', drawn'.trans drawn, posted'.trans posted⟩

end Context

/-- The actor leaves its tile, or the tile becomes another. -/
def Action.isDeparture : Action → Bool
  | .removed | .replaced _ => true
  | _ => false

namespace Run

/-- From one state to another a recorder kept a record to which nothing could be added once the
script had stopped, and in which only the last act may be a departure, with which it did stop. -/
def Records (r s : Run Recorder) : Prop :=
  ∃ recorded : List Action, s.body.actions.toList = r.body.actions.toList ++ recorded ∧
    (r.context.index = none → recorded = [] ∧ s.context.index = none) ∧
    ∀ before action after, recorded = before ++ action :: after → action.isDeparture = true →
      after = [] ∧ s.context.index = none

namespace Records

variable {r s t : Run Recorder}

theorem nothing (same : s.body.actions = r.body.actions)
    (stopped : r.context.index = none → s.context.index = none) : Records r s := by
  refine ⟨[], by rw [same, List.append_nil], fun ended => ⟨rfl, stopped ended⟩, ?_⟩
  intro before action after nothing
  simp at nothing

theorem trans (first : Records r s) (second : Records s t) : Records r t := by
  obtain ⟨recorded, added, ended, last⟩ := first
  obtain ⟨recorded', added', ended', last'⟩ := second
  refine ⟨recorded ++ recorded', by rw [added', added, List.append_assoc], fun stopped => ?_, ?_⟩
  · obtain ⟨rfl, stopped'⟩ := ended stopped
    exact ended' stopped'
  · intro before action after split departs
    rcases List.append_eq_append_iff.1 split with ⟨mid, rfl, later⟩ | ⟨mid, here, later⟩
    · exact last' mid action after later departs
    · rcases mid with _ | ⟨first, mid⟩
      · exact last' [] action after later.symm departs
      · obtain ⟨rfl, rfl⟩ := List.cons.inj later
        obtain ⟨rfl, stopped⟩ := last before action mid here departs
        obtain ⟨rfl, stopped'⟩ := ended' stopped
        exact ⟨rfl, stopped'⟩

end Records

section Recording

/-- At most one act came on record, and it was no departure. -/
def Notes (b b' : Recorder) : Prop :=
  ∃ noted : Option Action, b'.actions.toList = b.actions.toList ++ noted.toList ∧
    ∀ action ∈ noted, action.isDeparture = false

variable {r s : Run Recorder} {b b' : Recorder} {key : Nat} {command : Command}

theorem Notes.nothing (b : Recorder) : Notes b b := ⟨none, by simp, by simp⟩

theorem Notes.one (action : Action) (added : b'.actions = b.actions.push action)
    (stays : action.isDeparture = false) : Notes b b' :=
  ⟨some action, by simp [added], by simpa using stays⟩

theorem Records.one (action : Action) (running : r.context.index ≠ none)
    (added : s.body.actions = r.body.actions.push action) (stopped : s.context.index = none) :
    Records r s := by
  refine ⟨[action], by simp [added], fun ended => absurd ended running, ?_⟩
  intro before other after split _
  rcases before with _ | ⟨first, before⟩
  · exact ⟨(List.cons.inj split).2.symm, stopped⟩
  · simp at split

theorem Records.of_notes (running : r.context.index ≠ none) (notes : Notes r.body s.body) :
    Records r s := by
  obtain ⟨noted, added, stays⟩ := notes
  refine ⟨noted.toList, added, fun ended => absurd ended running, ?_⟩
  intro before action after split departs
  have mem : action ∈ noted.toList := by
    rw [split]
    exact List.mem_append_right before List.mem_cons_self
  rw [stays action (Option.mem_toList.1 mem)] at departs
  exact absurd departs (by decide)

theorem notes_of_touches (touched : Touches command b b') : Notes b b' ∨
    (command = .die ∨ ∃ tile, command = .become tile) ∧
      ∃ action, b'.actions = b.actions.push action := by
  cases touched with
  | nothing => exact .inl (.nothing b)
  | step d =>
    rw [Recorder.step_eq]
    split
    · exact .inl (.one (.bumped d) rfl rfl)
    · exact .inl (.one (.moved d) rfl rfl)
  | put d tile =>
    rw [Recorder.put_eq]
    split
    · exact .inl (.nothing b)
    · exact .inl (.one (.put d tile.render) rfl rfl)
  | say text => exact .inl (.one (.said text) rfl rfl)
  | scroll lines => exact .inl (.one (.scrolled lines) rfl rfl)
  | shoot d => exact .inl (.one (.shot d) rfl rfl)
  | throwStar d => exact .inl (.one (.threwStar d) rfl rfl)
  | setWalk direction => exact .inl (.one (.walk direction) rfl rfl)
  | setChar code => exact .inl (.one (.char code) rfl rfl)
  | setTorch radius => exact .inl (.one (.torch radius) rfl rfl)
  | play tune exclusive => exact .inl (.one (.played tune exclusive) rfl rfl)
  | remove named => exact .inr ⟨.inl named, .removed, rfl⟩
  | replace tile named => exact .inr ⟨.inr ⟨tile, named⟩, .replaced tile.render, rfl⟩
  | change source target => exact .inl (.one (.changed source.render target.render) rfl rfl)
  | set counter value => exact .inl (.one (.counter counter _) rfl rfl)
  | give counter amount => exact .inl (.one (.counter counter _) rfl rfl)
  | take counter amount otherwise => exact .inl (.one (.counter counter _) rfl rfl)

/-- A command that departs stops the script. -/
theorem records_execute (running : r.context.index ≠ none) :
    Records r (r.execute key command).2 := by
  rcases notes_of_touches (touches_execute key command r) with
    notes | ⟨rfl | ⟨tile, rfl⟩, action, added⟩
  · exact .of_notes running notes
  · exact .one action running added rfl
  · exact .one action running added rfl

end Recording

section Session

variable {r s : Run Recorder} {event : Event}

theorem records_next (ran : r.next? = some (event, s)) : Records r s := by
  obtain ⟨key, command, up, -, rfl⟩ := next?_eq_some.1 ran
  have running : r.context.index ≠ none := by
    intro stopped
    simp [upNext?_stopped stopped] at up
  refine (records_execute running).trans (.nothing (congrArg _ (body_settle ..)) fun stopped => ?_)
  rw [context_settle]
  exact Context.index_settle stopped ..

theorem records_commands (budget : Nat) (r : Run Recorder) : Records r (commands budget r) := by
  have begun : Records r r := .nothing rfl id
  exact commands_induction (fun records ran => records.trans (records_next ran)) budget begun

theorem records_tick (r : Run Recorder) : Records r r.tick := by
  have taken : Records r (r.onContext takeMessage) := .nothing rfl takeMessage_stopped
  exact taken.trans (records_commands ..)

/-- A tick, or what may happen between two: something is done to the context from outside, or the
recorder is told something else about its surroundings. -/
inductive Session : Run Recorder → Run Recorder → Prop where
  | tick (r : Run Recorder) : Session r r.tick
  | outside {c d : Context} (b : Recorder) (step : Context.Step c d) : Session ⟨c, b⟩ ⟨d, b⟩
  | told {b b' : Recorder} (c : Context) (same : b'.actions = b.actions) : Session ⟨c, b⟩ ⟨c, b'⟩

theorem Session.records (session : Session r s) : Records r s := by
  cases session with
  | tick => exact records_tick r
  | outside b step => exact .nothing rfl fun stopped => Context.step_stopped stopped step
  | told c same => exact .nothing same id

theorem records_session (sessions : Relation.ReflTransGen Session r s) : Records r s := by
  induction sessions with
  | refl => exact .nothing rfl id
  | tail _ session ih => exact ih.trans session.records

end Session

end Run

namespace Context

/-- A context that has stopped, however it came to that, never runs a command again: no tick does
anything to any body, nothing is drawn or posted, and no message waits. So whatever an actor did is
on record before it departed. -/
theorem stop_is_final (name text : String) {c : Context} (h : Reachable (.ofText name text) c) :
    (c.state = .stopped → ∀ d, Relation.ReflTransGen Disturbance c d →
      d.state = .stopped ∧ d.inbox = [] ∧ d.generator = c.generator ∧ d.outbox = c.outbox ∧
        ∀ {β : Type} [Body β] (body : β),
          Run.next? ⟨d, body⟩ = none ∧ Run.tick ⟨d, body⟩ = ⟨d, body⟩) ∧
    ∀ (b : Recorder) (s : Run Recorder), Relation.ReflTransGen Run.Session ⟨c, b⟩ s →
      ∃ recorded : List Action, s.body.actions.toList = b.actions.toList ++ recorded ∧
        ∀ before action after, recorded = before ++ action :: after →
          action.isDeparture = true → after = [] := by
  constructor
  · intro stopped d later
    have coherent := (reachable_coherent (Script.labelsWithin_ofText name text) h).1
    have ended := state_eq_stopped.1 stopped
    have silent : c.Silent := ⟨ended, coherent.stopped_empty ended⟩
    obtain ⟨still, drawn, posted⟩ := silent.left_alone later
    refine ⟨state_eq_stopped.2 still.stopped, still.inbox_empty, drawn, posted, ?_⟩
    intro β _ body
    exact ⟨Run.next?_stopped still.stopped, still.tick body⟩
  · intro b s sessions
    obtain ⟨recorded, added, -, last⟩ := Run.records_session sessions
    refine ⟨recorded, added, ?_⟩
    intro before action after split departs
    exact (last before action after split departs).1

/-- A guard that was stopped while it waited does not hear what is sent to it afterwards. -/
theorem stopped_guard_hears_nothing :
    let script := Script.ofText "guard" "wait 3\nend\n:touch\nbecome red key"
    let begun : Run Recorder := ⟨.start script (.seeded 42), .named "guard"⟩
    let stopped := begun.tick.context.stop
    Reachable script stopped ∧ stopped.state = .stopped ∧
      ((stopped.send "touch").setLocked false).inbox = [] := by
  intro script begun stopped
  have reachable : Reachable script stopped := .step (.step (.start 42) (.tick begun)) (.stop _)
  have later : Relation.ReflTransGen Disturbance stopped
      ((stopped.send "touch").setLocked false) :=
    .tail (.tail .refl (.send "touch" stopped)) (.setLocked false _)
  exact ⟨reachable, rfl, ((stop_is_final _ _ reachable).1 rfl _ later).2.1⟩

end Context
end ActorScript
