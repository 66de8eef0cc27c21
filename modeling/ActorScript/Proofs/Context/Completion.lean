import ActorScript.Proofs.Context.Progress

/-!
What a straight script has completed, over any number of ticks: its commands from the first on, each
once, and in the end all of them up to the one with which it ends. Between the ticks the host may
send messages and tell the body something else.
-/
namespace ActorScript

def completed (events : List Event) : List Nat :=
  events.filterMap fun e => if e.outcome = .again then none else some e.key

@[simp] theorem completed_append (events later : List Event) :
    completed (events ++ later) = completed events ++ completed later :=
  List.filterMap_append

/-- What the host does before a tick. -/
structure Visit (β : Type) where
  messages : List String
  told : β → β

variable {β : Type}

namespace Script

variable {s : Script} {key : Nat}

theorem extent_of_last (none_before : ∀ command ∈ s.commands.take key, command.isLast = false)
    {command : Command} (here : s.commands[key]? = some command) (last : command.isLast = true) :
    s.extent = key + 1 := by
  obtain ⟨bound, rfl⟩ := List.getElem?_eq_some_iff.1 here
  have first : s.commands.findIdx Command.isLast = key := by
    refine (List.findIdx_eq bound).2 ⟨last, fun j before => ?_⟩
    have mem : s.commands[j] ∈ s.commands.take key := by
      rw [List.mem_take_iff_getElem]
      exact ⟨j, by omega, rfl⟩
    exact none_before _ mem
  rw [extent, first]
  omega

theorem extent_of_none (no_last : ∀ command ∈ s.commands, command.isLast = false) :
    s.extent = s.commands.length := by
  have nowhere : s.commands.findIdx Command.isLast = s.commands.length :=
    List.findIdx_eq_length.2 no_last
  rw [extent, nowhere]
  omega

end Script

/-- The commands done so far are those before the cursor, of which none was a last one; a script
that has ended has done all that it will ever do. -/
structure Context.OnTrack (script : Script) (done : List Nat) (c : Context) : Prop where
  coherent : c.Coherent
  script_eq : c.script = script
  running : ∀ i, c.index = some i →
    done = List.range i ∧ ∀ command ∈ script.commands.take i, command.isLast = false
  stopped : c.index = none → done = List.range script.extent

namespace Context.OnTrack

variable {script : Script} {done : List Nat} {c : Context}

theorem start (name text : String) (generator : Generator) :
    OnTrack (.ofText name text) [] (.start (.ofText name text) generator) := by
  have coherent := coherent_start (Script.labelsWithin_ofText name text) generator
  refine ⟨coherent, rfl, fun i here => ?_, fun stopped => ?_⟩
  · unfold Context.start at here
    dsimp only at here
    split at here
    · obtain rfl := Option.some.inj here
      simp
    · simp at here
  · have refused : (Script.ofText name text).isExecutable = false := by
      unfold Context.start at stopped
      dsimp only at stopped
      split at stopped
      · simp at stopped
      · rename_i refused
        simpa using refused
    have empty := ((script_made_of_lines name text).2.2 refused).1
    rw [Script.extent, empty]
    rfl

theorem done_of_atRest (h : OnTrack script done c) (rest : c.AtRest) :
    done = List.range script.extent := by
  cases here : c.index with
  | none => exact h.stopped here
  | some i =>
    obtain ⟨so_far, no_last⟩ := h.running i here
    have past := atRest_iff.1 rest i here
    have within := h.coherent.index_le i here
    rw [h.script_eq] at past within
    have everything : i = script.commands.length := Nat.le_antisymm within past
    rw [everything, List.take_length] at no_last
    rw [so_far, everything, Script.extent_of_none no_last]

theorem withInbox {inbox : List String} (h : OnTrack script done c)
    (coherent : ({ c with inbox } : Context).Coherent) : OnTrack script done { c with inbox } :=
  ⟨coherent, h.script_eq, h.running, h.stopped⟩

end Context.OnTrack

namespace Run

open Context

variable {r s : Run β} {script : Script} {done : List Nat} {event : Event}

theorem onTrack_next [Body β] (straight : script.IsStraight) (h : OnTrack script done r.context)
    (ran : r.next? = some (event, s)) :
    OnTrack script (done ++ completed [event]) s.context := by
  obtain ⟨coherent, same⟩ := coherent_next h.coherent ran
  rw [h.script_eq] at same
  obtain ⟨command, here, running, onward⟩ := onward_next h.coherent (h.script_eq ▸ straight) ran
  rw [h.script_eq] at running
  obtain ⟨so_far, no_last⟩ := h.running event.key here
  obtain ⟨key, outcome⟩ := event
  dsimp only at *
  have taken : script.commands.take (key + 1) = script.commands.take key ++ [command] := by
    rw [List.take_add_one, running]
    rfl
  have one_more (done_too : outcome ≠ .again) :
      done ++ completed [⟨key, outcome⟩] = List.range (key + 1) := by
    rw [so_far, List.range_succ]
    simp [completed, done_too]
  have next_up (goes_on : command.isLast = false) (done_too : outcome ≠ .again)
      (next : s.context.index = some (key + 1)) :
      OnTrack script (done ++ completed [⟨key, outcome⟩]) s.context := by
    refine ⟨coherent, same, fun i here' => ?_, fun stopped => ?_⟩
    · obtain rfl := Option.some.inj (next.symm.trans here')
      refine ⟨one_more done_too, fun other mem => ?_⟩
      rw [taken] at mem
      rcases List.mem_append.1 mem with before | this
      · exact no_last other before
      · rw [List.mem_singleton.1 this, goes_on]
    · simp [next] at stopped
  cases onward with
  | ends timed goes_on next fresh => exact next_up goes_on (by simp) next
  | chains goes_on next fresh => exact next_up goes_on (by simp) next
  | stops last stopped =>
    refine ⟨coherent, same, fun i here' => ?_, fun _ => ?_⟩
    · simp [stopped] at here'
    · rw [one_more (by simp), Script.extent_of_last no_last running last]
  | stays still one_less =>
    refine ⟨coherent, same, fun i here' => ?_, fun stopped => ?_⟩
    · obtain rfl := Option.some.inj (still.symm.trans here')
      simpa [completed] using ⟨so_far, no_last⟩
    · simp [still] at stopped

def visit (v : Visit β) (r : Run β) : Run β :=
  ⟨v.messages.foldl (fun c message => c.send message) r.context, v.told r.body⟩

def course [Body β] (visits : List (Visit β)) (r : Run β) : Run β :=
  visits.foldl (fun r v => (r.visit v).tick) r

def courseLog [Body β] : List (Visit β) → Run β → List Event
  | [], _ => []
  | v :: visits, r => (r.visit v).log ++ courseLog visits (r.visit v).tick

theorem foldl_send_eq (messages : List String) (c : Context) (h : c.Coherent) :
    ∃ inbox, messages.foldl (fun c message => c.send message) c = { c with inbox } ∧
      ({ c with inbox } : Context).Coherent := by
  induction messages generalizing c with
  | nil => exact ⟨c.inbox, rfl, h⟩
  | cons message messages ih =>
    obtain ⟨inbox, sent, coherent⟩ := ih (c.send message) (h.send message)
    have same : ({ c.send message with inbox } : Context) = { c with inbox } := by
      unfold Context.send
      split <;> rfl
    exact ⟨inbox, sent.trans same, same ▸ coherent⟩

theorem visited_eq (v : Visit β) (h : r.context.Coherent)
    (unlabelled : ∀ label, r.context.script.positions? label = none) :
    ∃ inbox, ((r.visit v).onContext takeMessage).context = { r.context with inbox } ∧
      ({ r.context with inbox } : Context).Coherent := by
  obtain ⟨inbox, sent, coherent⟩ := foldl_send_eq v.messages r.context h
  have taken := (coherent_takeMessage coherent).1
  show ∃ inbox, takeMessage (v.messages.foldl (fun c message => c.send message) r.context) = _ ∧ _
  rw [sent]
  unfold takeMessage at taken ⊢
  cases inbox with
  | nil => exact ⟨[], rfl, taken⟩
  | cons message inbox =>
    have nowhere : ({ r.context with inbox } : Context).jump? message = none :=
      @jump?_unlabelled { r.context with inbox } unlabelled message
    dsimp only at taken ⊢
    rw [nowhere] at taken ⊢
    exact ⟨inbox, rfl, taken⟩

variable [Body β]

theorem onTrack_tick (v : Visit β) (straight : script.IsStraight)
    (h : OnTrack script done r.context) :
    OnTrack script (done ++ completed (r.visit v).log) (r.visit v).tick.context := by
  obtain ⟨inbox, visited, coherent⟩ := visited_eq v h.coherent (h.script_eq ▸ straight.unlabelled)
  have begun :
      OnTrack script (done ++ completed []) ((r.visit v).onContext takeMessage).context := by
    rw [visited]
    simpa [completed] using h.withInbox coherent
  have ended := logged_induction
    (motive := fun events s => OnTrack script (done ++ completed events) s.context)
    (fun kept ran => by
      rw [completed_append, ← List.append_assoc]
      exact onTrack_next straight kept ran)
    (budget ((r.visit v).onContext takeMessage).context) begun
  rw [logged_snd, List.nil_append] at ended
  exact ended

/-- The commands of a tick bring the script to rest, or take from what is left to it. A budget of as
many commands as there are behind the cursor is enough. -/
theorem left_commands (straight : r.context.script.IsStraight) (budget : Nat)
    (h : r.context.Coherent)
    (enough : ∀ i, r.context.index = some i → r.context.script.commands.length ≤ i + budget) :
    (commands budget r).context.AtRest ∨ (commands budget r).context.left < r.context.left := by
  induction budget generalizing r with
  | zero => exact .inl (atRest_iff.2 enough)
  | succ budget ih =>
    unfold commands
    split
    · rename_i none_ran
      exact .inl (atRest_of_next?_eq_none h none_ran)
    · rename_i event s ran
      obtain ⟨coherent, same⟩ := coherent_next h ran
      obtain ⟨not_more, less⟩ := left_next h straight ran
      obtain ⟨command, here, running, onward⟩ := onward_next h straight ran
      obtain ⟨key, outcome⟩ := event
      have follows (next : ∀ i, s.context.index = some i → i = key + 1) :
          (commands budget s).context.AtRest ∨
            (commands budget s).context.left < r.context.left := by
        have within := enough key here
        refine (ih (same ▸ straight) coherent fun i here' => ?_).imp_right fun less =>
          Nat.lt_of_lt_of_le less not_more
        rw [same, next i here']
        omega
      dsimp only at *
      cases onward with
      | ends timed goes_on next fresh => exact .inr (less (.inl rfl))
      | stays still one_less => exact .inr (less (.inr rfl))
      | chains goes_on next fresh =>
        exact follows fun i here' => Option.some.inj (here'.symm.trans next)
      | stops last stopped => exact follows fun i here' => by simp [stopped] at here'

theorem left_tick (v : Visit β) (straight : r.context.script.IsStraight)
    (h : r.context.Coherent) :
    (r.visit v).tick.context.AtRest ∨ (r.visit v).tick.context.left < r.context.left := by
  obtain ⟨inbox, visited, coherent⟩ := visited_eq v h straight.unlabelled
  let q := (r.visit v).onContext takeMessage
  have at_start : q.context = { r.context with inbox } := visited
  have ended := left_commands (r := q) (by rw [at_start]; exact straight) (budget q.context)
    (by rw [at_start]; exact coherent) fun i here => by unfold budget; omega
  have same_left : q.context.left = r.context.left := by
    rw [at_start]
    rfl
  rw [same_left] at ended
  exact ended

theorem atRest_tick (v : Visit β) (straight : r.context.script.IsStraight)
    (h : r.context.Coherent) (rest : r.context.AtRest) : (r.visit v).tick.context.AtRest := by
  obtain ⟨inbox, visited, coherent⟩ := visited_eq v h straight.unlabelled
  have still : ((r.visit v).onContext takeMessage).context.AtRest := by
    rw [visited]
    exact rest
  have none_ran : ((r.visit v).onContext takeMessage).next? = none := by
    unfold next? upNext?
    cases at_rest : ((r.visit v).onContext takeMessage).context.state with
    | running index => exact absurd at_rest (still index)
    | stopped => rfl
    | halted => rfl
  have unmoved (budget : Nat) : commands budget ((r.visit v).onContext takeMessage) =
      (r.visit v).onContext takeMessage := by
    cases budget with
    | zero => rfl
    | succ budget => rw [commands, none_ran]
  show (commands _ ((r.visit v).onContext takeMessage)).context.AtRest
  rw [unmoved]
  exact still

theorem onTrack_course (visits : List (Visit β)) (straight : script.IsStraight)
    (h : OnTrack script done r.context) :
    OnTrack script (done ++ completed (r.courseLog visits)) (r.course visits).context := by
  induction visits generalizing r done with
  | nil =>
    show OnTrack script (done ++ []) r.context
    rwa [List.append_nil]
  | cons v visits ih =>
    have later := ih (onTrack_tick v straight h)
    rw [List.append_assoc, ← completed_append] at later
    exact later

/-- More ticks than are left bring a straight script to rest, where it stays. -/
theorem atRest_course (visits : List (Visit β)) (straight : script.IsStraight)
    (h : OnTrack script done r.context)
    (enough : r.context.AtRest ∨ r.context.left < visits.length) :
    (r.course visits).context.AtRest := by
  induction visits generalizing r done with
  | nil =>
    rcases enough with rest | short
    · exact rest
    · exact absurd short (Nat.not_lt_zero _)
  | cons v visits ih =>
    have still_straight : r.context.script.IsStraight := h.script_eq ▸ straight
    refine ih (onTrack_tick v straight h) ?_
    rcases enough with rest | short
    · exact .inl (atRest_tick v still_straight h.coherent rest)
    · refine (left_tick v still_straight h.coherent).imp_right fun less => ?_
      exact Nat.lt_of_lt_of_le less (Nat.le_of_lt_succ short)

end Run

theorem Script.unlabelled_ofText {name text : String}
    (none_declared : ∀ part ∈ lineTexts text, ∀ label, Line.ofText part ≠ .ok (.label label))
    (label : String) : (ofText name text).positions? label = none := by
  obtain ⟨-, read, refused⟩ := script_made_of_lines name text
  cases executable : (ofText name text).isExecutable with
  | true =>
    obtain ⟨lines, each, -, positions⟩ := read executable
    rw [positions, if_neg]
    intro mem
    obtain ⟨i, bound, here⟩ := List.getElem_of_mem mem
    have same_length := each.length_eq
    have part := List.forall₂_iff_get.1 each |>.2 i (by omega) bound
    refine none_declared _ (List.getElem_mem _) label (part.trans ?_)
    exact congrArg Except.ok here
  | false =>
    obtain ⟨-, labels, -⟩ := refused executable
    rw [positions?, labels, Table.get?_empty]

/-- A script that declares no label and forces no move runs through, whatever is sent to it and
whatever its body is told between the ticks. After one tick more than its commands take together it
is at rest, and has completed its commands in order, each once, up to the one with which it ends. -/
theorem straight_script_runs_through (name text : String)
    (unlabelled : ∀ part ∈ lineTexts text, ∀ label, Line.ofText part ≠ .ok (.label label))
    (unforced : ∀ command ∈ (Script.ofText name text).commands, command.isForceful = false)
    [Body β] (generator : Generator) (body : β) (visits : List (Visit β))
    (enough : (Script.ofText name text).ticks < visits.length) :
    let begun : Run β := ⟨.start (.ofText name text) generator, body⟩
    (begun.course visits).context.AtRest ∧
      completed (begun.courseLog visits) = List.range (Script.ofText name text).extent := by
  intro begun
  have straight : (Script.ofText name text).IsStraight :=
    ⟨Script.unlabelled_ofText unlabelled, unforced⟩
  have started : begun.context.OnTrack (.ofText name text) [] := .start name text generator
  have short : begun.context.AtRest ∨ begun.context.left < visits.length := by
    cases here : begun.context.index with
    | none => exact .inl (Context.atRest_iff.2 fun i some_index => by simp [here] at some_index)
    | some i =>
      right
      obtain ⟨nothing_done, -⟩ := started.running i here
      obtain rfl : i = 0 := by simpa using nothing_done.symm
      rw [Context.left_of_fresh here rfl]
      exact enough
  have rest := Run.atRest_course visits straight started short
  exact ⟨rest, (Run.onTrack_course visits straight started).done_of_atRest rest⟩

/-- A scout that is sent messages it has no labels for, and is blocked from the second tick on. -/
theorem scout_runs_through :
    let text :=
      "move n 2\nwait 0\nset x 1\nif not blocked n there\nsay \"done\"\nend\nsay \"never\""
    let fenced (b : Recorder) : Recorder := { b with blocked := [.north] }
    let visits : List (Visit Recorder) := [⟨["go"], id⟩, ⟨[], fenced⟩, ⟨["stop", "there"], id⟩,
      ⟨[], id⟩, ⟨[], id⟩, ⟨[], id⟩]
    let begun : Run Recorder := ⟨.start (.ofText "scout" text) (.seeded 42), .named "scout"⟩
    (∀ part ∈ lineTexts text, ∀ label, Line.ofText part ≠ .ok (.label label)) ∧
      (∀ command ∈ (Script.ofText "scout" text).commands, command.isForceful = false) ∧
      (Script.ofText "scout" text).ticks < visits.length ∧
      (begun.course visits).context.AtRest ∧ completed (begun.courseLog visits) = List.range 6 := by
  intro text fenced visits begun
  have read : ∀ part ∈ lineTexts text, (match Line.ofText part with
      | .ok (.label _) => false
      | _ => true) = true := by decide +kernel
  have unlabelled : ∀ part ∈ lineTexts text, ∀ label, Line.ofText part ≠ .ok (.label label) := by
    intro part mem label declares
    have other := read part mem
    rw [declares] at other
    exact absurd other Bool.false_ne_true
  obtain ⟨unforced, enough, extent⟩ :
      (∀ command ∈ (Script.ofText "scout" text).commands, command.isForceful = false) ∧
        (Script.ofText "scout" text).ticks < visits.length ∧
        (Script.ofText "scout" text).extent = 6 := by decide +kernel
  have ran := straight_script_runs_through "scout" text unlabelled unforced (.seeded 42)
    (.named "scout") visits enough
  rw [extent] at ran
  exact ⟨unlabelled, unforced, enough, ran⟩

end ActorScript
