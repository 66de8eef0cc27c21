import ActorScript.Proofs.Stage.Course

/-!
Actors are apart from each other but for the messages they send. What becomes of an actor among
others is what becomes of it alone, if the same texts reach it; and an actor that sends nothing to
those before it leaves them as they would be without it.
-/
namespace ActorScript

def Command.post? : Command → Option Message
  | .send (some name) message =>
    if name = "self" then none else some ⟨lowerCase name, lowerCase message⟩
  | _ => none

def Script.Posts (s : Script) (m : Message) : Prop :=
  ∃ command ∈ s.commands, command.post? = some m

variable {β : Type}

namespace Run

theorem outbox_jumpOr (label : Option String) (otherwise : Outcome) (r : Run β) :
    (r.jumpOr label otherwise).2.context.outbox = r.context.outbox := by
  unfold jumpOr
  split
  · rename_i target made
    obtain ⟨label, -, made⟩ := Option.bind_eq_some_iff.1 made
    exact (Context.messages_jump made).2
  · rfl

theorem outbox_settle (key : Nat) (outcome : Outcome) (r : Run β) :
    (r.settle key outcome).context.outbox = r.context.outbox := by
  rw [context_settle]
  exact (Context.messages_settle key outcome r.context).2

variable [Body β] {r s : Run β} {event : Event}

theorem outbox_act (heading : Heading) (f : Direction → β → β) (r : Run β) :
    (r.act heading f).context.outbox = r.context.outbox := by
  obtain ⟨generator, drawn⟩ := context_act heading f r
  rw [drawn]

theorem outbox_move (key : Nat) (heading : Heading) (count : Numeral) (forceful : Bool)
    (r : Run β) :
    (r.move key heading count forceful).2.context.outbox = r.context.outbox := by
  obtain ⟨generator, drawn⟩ := context_aim key heading r
  rw [move_eq]
  split
  · rfl
  · unfold stride
    dsimp only
    split
    · rw [context_onContext, context_step, drawn]
    · split <;> simp only [context_onContext, context_step, drawn]

theorem outbox_execute (key : Nat) (command : Command) (r : Run β) :
    (r.execute key command).2.context.outbox = r.context.outbox ++ command.post?.toList := by
  have none_posted {s : Run β} (same : s.context.outbox = r.context.outbox)
      (silent : command.post? = none) :
      s.context.outbox = r.context.outbox ++ command.post?.toList := by
    rw [silent, same, Option.toList_none, List.append_nil]
  cases command with
  | move heading count forceful => exact none_posted (outbox_move ..) rfl
  | attempt heading otherwise =>
    refine none_posted ?_ rfl
    obtain ⟨generator, drawn⟩ := context_resolve heading r
    simp only [execute]
    split
    · rw [context_step, drawn]
    · rw [outbox_jumpOr, context_step, drawn]
  | wait ticks =>
    refine none_posted ?_ rfl
    simp only [execute, wait]
    split <;> rfl
  | jumpIf condition label =>
    refine none_posted ?_ rfl
    simp only [execute]
    split
    · exact outbox_jumpOr ..
    · rfl
  | put heading tile => exact none_posted (outbox_act ..) rfl
  | send recipient message =>
    cases recipient with
    | none => exact none_posted (outbox_jumpOr ..) rfl
    | some name =>
      by_cases own : name = "self"
      · refine none_posted ?_ (if_pos own)
        simp only [execute, if_pos own]
        exact outbox_jumpOr ..
      · simp only [execute, Command.post?, if_neg own]
        rfl
  | take counter amount otherwise =>
    refine none_posted ?_ rfl
    simp only [execute]
    split
    · rfl
    · exact outbox_jumpOr ..
  | shoot heading => exact none_posted (outbox_act ..) rfl
  | throwStar heading => exact none_posted (outbox_act ..) rfl
  | walk heading =>
    refine none_posted ?_ rfl
    obtain ⟨generator, drawn⟩ := context_resolve heading r
    simp only [execute, context_onBody, drawn]
  | restore label => exact none_posted (Context.messages_restore label r.context).2 rfl
  | zap label => exact none_posted (Context.messages_zap label r.context).2 rfl
  | _ => exact none_posted rfl rfl

theorem posts_of_mem_outbox_tick (h : r.context.Coherent) {m : Message}
    (mem : m ∈ r.tick.context.outbox) : m ∈ r.context.outbox ∨ r.context.script.Posts m := by
  have begun : (r.onContext takeMessage).context.Coherent ∧
      (r.onContext takeMessage).context.script = r.context.script ∧
      ∀ m ∈ (r.onContext takeMessage).context.outbox,
        m ∈ r.context.outbox ∨ r.context.script.Posts m := by
    obtain ⟨coherent, same⟩ := coherent_takeMessage h
    refine ⟨coherent, same, fun m mem => .inl ?_⟩
    rw [← (messages_takeMessage r.context).2]
    exact mem
  refine (commands_induction (motive := fun s => s.context.Coherent ∧
    s.context.script = r.context.script ∧
    ∀ m ∈ s.context.outbox, m ∈ r.context.outbox ∨ r.context.script.Posts m)
    (fun {s t event} kept ran => ?_) (budget (takeMessage r.context)) begun).2.2 m mem
  obtain ⟨coherent, same, posted⟩ := kept
  obtain ⟨coherent', same'⟩ := coherent_next coherent ran
  refine ⟨coherent', same'.trans same, fun m mem => ?_⟩
  obtain ⟨key, command, up, -, rfl⟩ := next?_eq_some.1 ran
  rw [outbox_settle, outbox_execute] at mem
  rcases List.mem_append.1 mem with before | new
  · exact posted m before
  · have running := (upNext?_eq_some coherent up).2
    rw [same] at running
    exact .inr ⟨command, List.mem_of_getElem? running, Option.mem_toList.1 new⟩

end Run

/-- What reaches one actor: a message from outside, or a tick with the texts that come in after it.
-/
inductive Arrival where
  | message (text : String)
  | tick (texts : List String)

/-- The run of an actor that is alone, from the tick of a number on. -/
def Run.alone [Body β] (cycle : Nat) : Nat → List Arrival → Run β → Run β
  | _, [], r => r
  | number, .message text :: later, r => alone cycle number later (r.onContext (.send text))
  | number, .tick texts :: later, r => alone cycle (number + 1) later (r.pass cycle number texts)

namespace Stage

variable [Body β]

/-- What reaches the actor at a place and of a name by a deed. -/
def arrival (s : Stage β) (place : Nat) (name : String) : Deed β → List Arrival
  | .spawn .. | .join .. => []
  | .send recipient text => if isAddressed recipient none place name then [.message text] else []
  | .tick => [.tick (s.brought place name)]

def arrivals (place : Nat) (name : String) : Stage β → List (Deed β) → List Arrival
  | _, [] => []
  | s, deed :: deeds => s.arrival place name deed ++ arrivals place name (s.perform deed) deeds

/-- Whatever is done with the stage, an actor on it runs as it would alone. -/
theorem getElem?_course (deeds : List (Deed β)) {s : Stage β} {place : Nat} {a : Actor β}
    (here : s.actors[place]? = some a) :
    (s.course deeds).actors[place]? =
      some { a with run := a.run.alone a.cycle s.ticks (arrivals place a.name s deeds) } := by
  induction deeds generalizing s a with
  | nil => exact here
  | cons deed deeds ih =>
    have joined (newcomer : Actor β) : (s.actors ++ [newcomer])[place]? = some a := by
      rw [List.getElem?_append_left (List.getElem?_eq_some_iff.1 here).1, here]
    cases deed with
    | spawn name scriptName text body cycle => exact ih (joined _)
    | join name scriptName text generator body cycle => exact ih (joined _)
    | send recipient text =>
      have heard : (s.send recipient text).actors[place]? =
          some (if isAddressed recipient none place a.name then a.send text else a) := by
        rw [send, deliver, List.getElem?_mapIdx, here]
        rfl
      by_cases meant : isAddressed recipient none place a.name = true
      · rw [if_pos meant] at heard
        rw [arrivals, arrival, if_pos meant]
        exact ih heard
      · rw [if_neg meant] at heard
        rw [arrivals, arrival, if_neg meant]
        exact ih heard
    | tick =>
      have acted : s.tick.actors[place]? =
          some { a with run := a.run.pass a.cycle s.ticks (s.brought place a.name) } := by
        rw [actors_tick_eq_pass, List.getElem?_mapIdx, here]
        rfl
      exact ih acted

end Stage

/-- An actor between two ticks, and the script that it runs. -/
structure Actor.Performs (script : Script) (a : Actor β) : Prop where
  settled : a.Settled
  script_eq : a.run.context.script = script

namespace Actor.Performs

variable {script : Script} {a : Actor β}

theorem send (h : a.Performs script) (text : String) : (a.send text).Performs script where
  settled := h.settled.send text
  script_eq := by
    rw [← h.script_eq]
    show (a.run.context.send text).script = a.run.context.script
    unfold Context.send
    split <;> rfl

theorem foldl_send (texts : List String) (h : a.Performs script) :
    (texts.foldl (fun a text => a.send text) a).Performs script := by
  induction texts generalizing a with
  | nil => exact h
  | cons text texts ih => exact ih (h.send text)

variable [Body β]

theorem pass (h : a.Performs script) (number : Nat) (texts : List String) :
    Actor.Performs script { a with run := a.run.pass a.cycle number texts } := by
  have coherent := h.settled.coherent
  have same_script : (a.tick number).run.context.script = script := by
    by_cases due : a.cycle ∣ number
    · rw [tick_of_dvd due]
      exact (Run.coherent_tick coherent).2.trans h.script_eq
    · rw [tick_of_not_dvd due]
      exact h.script_eq
  have collected : (a.tick number).emptyOutbox.Performs script :=
    ⟨settled_emptyOutbox (coherent_tick coherent number), same_script⟩
  rw [← foldl_send_tick]
  exact collected.foldl_send texts

theorem posts (h : a.Performs script) {number : Nat} {m : Message}
    (mem : m ∈ (a.tick number).outbox) : script.Posts m := by
  by_cases due : a.cycle ∣ number
  · rw [tick_of_dvd due] at mem
    rcases Run.posts_of_mem_outbox_tick h.settled.coherent mem with before | posted
    · rw [show a.run.context.outbox = [] from h.settled.outbox_empty] at before
      exact absurd before List.not_mem_nil
    · rwa [h.script_eq] at posted
  · rw [tick_of_not_dvd due, h.settled.outbox_empty] at mem
    exact absurd mem List.not_mem_nil

end Actor.Performs

namespace Stage

/-- No message that the script posts is meant for one of the actors of these names, if it comes from
one that joins behind them. -/
def Harmless (script : Script) (names : List String) : Prop :=
  ∀ m, script.Posts m → ∀ place name, names[place]? = some name → ¬m.IsFor names.length place name

instance (script : Script) (names : List String) : Decidable (Harmless script names) :=
  decidable_of_iff (∀ m ∈ script.commands.filterMap Command.post?, ∀ place : Fin names.length,
      ¬m.IsFor names.length place names[place]) <| by
    constructor
    · intro checked m ⟨command, mem, posted⟩ place name here
      obtain ⟨bound, rfl⟩ := List.getElem?_eq_some_iff.1 here
      exact checked m (List.mem_filterMap.2 ⟨command, mem, posted⟩) ⟨place, bound⟩
    · intro harmless m mem place
      exact harmless m (List.mem_filterMap.1 mem) place names[place]
        (List.getElem?_eq_getElem place.isLt)

def names (s : Stage β) : List String := s.actors.map (·.name)

/-- The second stage is the first with one more actor behind the others. -/
structure Extends (script : Script) (s t : Stage β) : Prop where
  ticks : t.ticks = s.ticks
  actors : ∃ newcomer : Actor β, t.actors = s.actors ++ [newcomer] ∧ newcomer.Performs script

theorem incoming_append (actors : List (Actor β)) (newcomer : Actor β) (place : Nat)
    (name : String) :
    incoming (actors ++ [newcomer]) place name = incoming actors place name ++
      (newcomer.outbox.filter fun m => m.IsFor actors.length place name).map (·.text) := by
  unfold incoming
  rw [List.mapIdx_append, List.flatten_append]
  simp

variable [Body β] {script : Script} {s t : Stage β} {deed : Deed β}

theorem names_perform (quiet : deed.IsQuiet) : (s.perform deed).names = s.names := by
  refine List.ext_getElem? fun place => ?_
  cases deed with
  | spawn _ _ _ body => exact absurd quiet (Option.some_ne_none body)
  | join _ _ _ _ body => exact absurd quiet (Option.some_ne_none body)
  | send recipient text =>
    show ((deliver none ⟨recipient, text⟩ s.actors).map (·.name))[place]? = _
    rw [deliver, names, List.getElem?_map, List.getElem?_map, List.getElem?_mapIdx, Option.map_map]
    refine congrArg (fun f => s.actors[place]?.map f) (funext fun a => ?_)
    rw [Function.comp_apply]
    split <;> rfl
  | tick =>
    show (s.tick.actors.map (·.name))[place]? = _
    rw [actors_tick_eq_pass, names, List.getElem?_map, List.getElem?_map, List.getElem?_mapIdx,
      Option.map_map]
    rfl

theorem brought_eq (harmless : Harmless script s.names) (same_ticks : t.ticks = s.ticks)
    {newcomer : Actor β} (joined : t.actors = s.actors ++ [newcomer])
    (performs : newcomer.Performs script) {place : Nat} {a : Actor β}
    (here : s.actors[place]? = some a) : t.brought place a.name = s.brought place a.name := by
  have named : s.names[place]? = some a.name := by rw [names, List.getElem?_map, here]; rfl
  have nothing : (newcomer.tick s.ticks).outbox.filter
      (fun m => m.IsFor (s.actors.map (·.tick s.ticks)).length place a.name) = [] := by
    refine List.filter_eq_nil_iff.2 fun m mem => ?_
    have apart := harmless m (performs.posts mem) place a.name named
    rw [names, List.length_map] at apart
    rw [List.length_map]
    simpa using apart
  rw [brought, brought, same_ticks, joined, List.map_append, List.map_singleton, incoming_append,
    nothing, List.map_nil, List.append_nil]

/-- Whatever is done with both stages, the newcomer makes no difference to the others. -/
theorem Extends.perform (h : Extends script s t) (harmless : Harmless script s.names)
    (quiet : deed.IsQuiet) : Extends script (s.perform deed) (t.perform deed) := by
  obtain ⟨same_ticks, newcomer, joined, performs⟩ := h
  cases deed with
  | spawn _ _ _ body => exact absurd quiet (Option.some_ne_none body)
  | join _ _ _ _ body => exact absurd quiet (Option.some_ne_none body)
  | send recipient text =>
    refine ⟨same_ticks, ?_⟩
    show ∃ newcomer : Actor β, deliver none ⟨recipient, text⟩ t.actors =
      deliver none ⟨recipient, text⟩ s.actors ++ [newcomer] ∧ newcomer.Performs script
    rw [joined, deliver, deliver, List.mapIdx_append]
    refine ⟨_, rfl, ?_⟩
    dsimp only
    split
    · exact performs.send text
    · exact performs
  | tick =>
    refine ⟨congrArg (· + 1) same_ticks, ?_⟩
    show ∃ newcomer : Actor β, t.tick.actors = s.tick.actors ++ [newcomer] ∧
      newcomer.Performs script
    rw [actors_tick_eq_pass, actors_tick_eq_pass, joined, List.mapIdx_append]
    refine ⟨_, congrArg (· ++ _) (List.mapIdx_eq_mapIdx_iff.2 fun place bound => ?_),
      performs.pass _ _⟩
    rw [brought_eq harmless same_ticks joined performs (List.getElem?_eq_getElem bound), same_ticks]

theorem Extends.course (deeds : List (Deed β)) (h : Extends script s t)
    (harmless : Harmless script s.names) (quiet : ∀ deed ∈ deeds, deed.IsQuiet) :
    Extends script (s.course deeds) (t.course deeds) := by
  induction deeds generalizing s t with
  | nil => exact h
  | cons deed deeds ih =>
    obtain ⟨first, others⟩ := List.forall_mem_cons.1 quiet
    refine ih (h.perform harmless first) ?_ others
    rw [names_perform first]
    exact harmless

/-- Whatever is done with a stage, an actor on it runs as it would alone: in the ticks that are its
own, with the generator that it began with, and with the texts that are brought to it. If an actor
joins that sends nothing to those before it, whatever else its script says and even if it cannot be
read, then all of them stay as they would be without it. -/
theorem actors_run_apart (s : Stage β) :
    (∀ (deeds : List (Deed β)) (place : Nat) (a : Actor β), s.actors[place]? = some a →
      (s.course deeds).actors[place]? =
        some { a with run := a.run.alone a.cycle s.ticks (arrivals place a.name s deeds) }) ∧
    (∀ (name scriptName text : String) (body : β) (cycle : Nat) (deeds : List (Deed β)),
      let script := Script.ofText scriptName text
      let place := s.actors.length
      let spawned := s.spawn name script body cycle
      let begun : Run β := ⟨.start script (.seeded (s.seed + UInt64.ofNat place)), body⟩
      (spawned.course deeds).actors[place]? =
        some ⟨name, begun.alone (max 1 cycle) s.ticks (arrivals place name spawned deeds),
          max 1 cycle⟩) ∧
    ∀ name scriptName text generator body cycle, Harmless (.ofText scriptName text) s.names →
      ∀ deeds : List (Deed β), (∀ deed ∈ deeds, deed.IsQuiet) →
        ∃ newcomer, ((s.join name (.ofText scriptName text) generator body cycle).course
          deeds).actors = (s.course deeds).actors ++ [newcomer] := by
  refine ⟨fun deeds place a here => getElem?_course deeds here, ?_, ?_⟩
  · intro name scriptName text body cycle deeds script place spawned begun
    have here : spawned.actors[place]? = some ⟨name, begun, max 1 cycle⟩ :=
      List.getElem?_concat_length
    exact getElem?_course deeds here
  · intro name scriptName text generator body cycle harmless deeds quiet
    have joined : Extends (.ofText scriptName text) s
        (s.join name (.ofText scriptName text) generator body cycle) :=
      ⟨rfl, _, rfl, settled_start .., rfl⟩
    obtain ⟨-, newcomer, actors, -⟩ := joined.course deeds harmless quiet
    exact ⟨newcomer, actors⟩

/-- The guard runs as it would alone, and a thief whose only message goes to somebody who is not
there makes no difference to it and to the bell. -/
theorem thief_goes_unnoticed :
    let s : Stage Recorder :=
      ((Stage.empty 7).spawn "guard" (.ofText "guard" "move rand 9\n:alarm\nsay \"halt\"")
        (.named "guard") 1).spawn "bell" (.ofText "bell" "wait 2\nsend all alarm") (.named "bell") 0
    let sly := "put n red gem\nsend nobody alarm\nmove rand 3"
    let deeds : List (Deed Recorder) := [.tick, .send "others" "touch", .tick, .tick, .tick]
    (∃ guard, s.actors[0]? = some guard ∧ (s.course deeds).actors[0]? =
      some { guard with run := guard.run.alone guard.cycle 0 (arrivals 0 guard.name s deeds) }) ∧
    Harmless (.ofText "thief" sly) s.names ∧ (∀ deed ∈ deeds, deed.IsQuiet) ∧
      ∃ newcomer, ((s.join "thief" (.ofText "thief" sly) (.seeded 9) (.named "thief") 1).course
        deeds).actors = (s.course deeds).actors ++ [newcomer] := by
  intro s sly deeds
  have harmless : Harmless (.ofText "thief" sly) s.names := by decide +kernel
  have quiet : ∀ deed ∈ deeds, deed.IsQuiet := by
    simp [deeds, Deed.IsQuiet, Deed.newcomer?]
  obtain ⟨alone, -, unnoticed⟩ := actors_run_apart s
  exact ⟨⟨_, rfl, alone deeds 0 _ rfl⟩, harmless, quiet, unnoticed _ _ _ _ _ _ harmless deeds quiet⟩

end Stage
end ActorScript
