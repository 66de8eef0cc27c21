import ActorScript.Proofs.Context.Effect
import ActorScript.Proofs.Script.Labels
import ActorScript.Recorder

/-!
The fields of a context hang together: the cursor, the command in progress, its part of the heap,
the cursors of the labels, the inbox and the lock. What is required of them is one invariant, which
holds at the start and is kept by everything that can be done to a context from outside, and inside
a tick by every command.
-/
namespace ActorScript

theorem mem_of_lookup {κ α : Type} [BEq κ] [LawfulBEq κ] {entries : List (κ × α)} {key : κ}
    {value : α} (found : entries.lookup key = some value) : (key, value) ∈ entries := by
  obtain ⟨before, after, rfl, -⟩ := List.lookup_eq_some_iff.1 found
  simp

theorem lookup_map {α β : Type} (f : α → β) (entries : List (String × α)) (name : String) :
    (entries.map fun e => (e.1, f e.2)).lookup name = (entries.lookup name).map f := by
  induction entries with
  | nil => rfl
  | cons entry rest ih =>
    obtain ⟨key, value⟩ := entry
    by_cases same : name = key
    · rw [List.map_cons, same, List.lookup_cons_self, List.lookup_cons_self, Option.map_some]
    · rw [List.map_cons, lookup_cons_of_ne same, lookup_cons_of_ne same, ih]

theorem Table.get?_map {α β : Type} (f : α → β) (t : Table α) (name : String) :
    (t.map f).get? name = (t.get? name).map f :=
  lookup_map f t.entries name

namespace Context

/-- The command in progress is the one at the cursor and has the heap to itself; the other fields
agree with the script, the lock and the stop. -/
structure Coherent (c : Context) : Prop where
  labels_within : c.script.LabelsWithin
  index_le : ∀ i, c.index = some i → i ≤ c.script.commands.length
  stored_at : ∀ key, c.stored = some key → c.index = some key ∧
    ∃ command, c.script.commands[key]? = some command ∧ command.duration? ≠ none
  counts : c.index ≠ none → ∀ slot ∈ c.heap.counts, c.stored = some slot.1 ∧
    ∃ command declared, c.script.commands[slot.1]? = some command ∧
      command.duration? = some declared ∧ 1 ≤ slot.2.toInt ∧ slot.2.toInt ≤ declared.val
  stuck : c.index ≠ none → ∀ slot ∈ c.heap.stuck, c.stored = some slot.1 ∧
    ∃ command, c.script.commands[slot.1]? = some command ∧ command.isForceful = true
  cursor_names : ∀ label, (c.cursors.get? label).isSome = (c.script.positions? label).isSome
  cursor_le : ∀ label cursor positions, c.cursors.get? label = some cursor →
    c.script.positions? label = some positions → cursor ≤ positions.length
  locked_empty : c.locked = true → c.inbox = []
  stopped_empty : c.index = none → c.inbox = []
  stopped_stored : c.index = none → c.stored = none

variable {c d : Context} {key : Nat}

theorem coherent_start {script : Script} (h : script.LabelsWithin) (generator : Generator) :
    (start script generator).Coherent where
  labels_within := h
  index_le i at_start := by
    have : i = 0 := by
      unfold start at at_start
      dsimp only at at_start
      split at at_start <;> simp_all
    omega
  stored_at key none_stored := by simp [start] at none_stored
  counts _ slot mem := by simp [start, Heap.empty] at mem
  stuck _ slot mem := by simp [start, Heap.empty] at mem
  cursor_names label := by simp [start, Table.get?_map, Script.positions?]
  cursor_le label cursor positions at_cursor _ := by
    simp only [start, Table.get?_map, Option.map_eq_some_iff] at at_cursor
    obtain ⟨_, _, zero⟩ := at_cursor
    omega
  locked_empty _ := rfl
  stopped_empty _ := rfl
  stopped_stored _ := rfl

namespace Coherent

theorem heap_clear (h : c.Coherent) (running : c.index ≠ none)
    (alone : ∀ other, c.stored = some other → other = key) : c.heap.clear key = .empty := by
  have no_counts : without key c.heap.counts = [] := by
    refine List.filter_eq_nil_iff.2 fun slot mem => ?_
    simpa using alone slot.1 (h.counts running slot mem).1
  have no_stuck : without key c.heap.stuck = [] := by
    refine List.filter_eq_nil_iff.2 fun slot mem => ?_
    simpa using alone slot.1 (h.stuck running slot mem).1
  rw [Heap.clear, no_counts, no_stuck]
  rfl

theorem heap_eq_empty (h : c.Coherent) (running : c.index ≠ none) (fresh : c.stored = none) :
    c.heap = .empty := by
  have no_counts : c.heap.counts = [] := by
    refine List.eq_nil_iff_forall_not_mem.2 fun slot mem => ?_
    have := (h.counts running slot mem).1
    simp [fresh] at this
  have no_stuck : c.heap.stuck = [] := by
    refine List.eq_nil_iff_forall_not_mem.2 fun slot mem => ?_
    have := (h.stuck running slot mem).1
    simp [fresh] at this
  cases heap : c.heap with
  | mk counts stuck => rw [heap] at no_counts no_stuck; cases no_counts; cases no_stuck; rfl

theorem count_pos (h : c.Coherent) (running : c.index ≠ none) {n : Int64}
    (found : c.heap.count? key = some n) : 0 < n.toInt := by
  obtain ⟨_, _, _, _, _, pos, _⟩ := h.counts running (key, n) (mem_of_lookup found)
  exact pos

theorem draw (h : c.Coherent) (generator : Generator) :
    ({ c with generator } : Context).Coherent :=
  { h with }

theorem clearStuck (h : c.Coherent) (key : Nat) :
    ({ c with heap := c.heap.clearStuck key } : Context).Coherent :=
  { h with
    stuck := fun running slot mem => h.stuck running slot (List.mem_filter.1 mem).1 }

theorem post (h : c.Coherent) (recipient text : String) : (c.post recipient text).Coherent :=
  { h with }

theorem emptyOutbox (h : c.Coherent) : c.emptyOutbox.Coherent := { h with }

theorem stop (h : c.Coherent) : c.stop.Coherent where
  labels_within := h.labels_within
  index_le i absurd_index := by simp [Context.stop] at absurd_index
  stored_at key absurd_stored := by simp [Context.stop] at absurd_stored
  counts running := absurd rfl running
  stuck running := absurd rfl running
  cursor_names := h.cursor_names
  cursor_le := h.cursor_le
  locked_empty _ := rfl
  stopped_empty _ := rfl
  stopped_stored _ := rfl

theorem setLocked (h : c.Coherent) (locked : Bool) : (c.setLocked locked).Coherent :=
  { h with
    locked_empty := fun is_locked => if_pos is_locked
    stopped_empty := fun stopped => by
      have := h.stopped_empty stopped
      simp [Context.setLocked, this] }

theorem send (h : c.Coherent) (message : String) : (c.send message).Coherent := by
  unfold Context.send
  split
  · exact h
  · rename_i open_to
    simp only [Bool.or_eq_true, not_or, Bool.not_eq_true, Option.isNone_eq_false_iff] at open_to
    obtain ⟨unlocked, running⟩ := open_to
    exact { h with
      locked_empty := fun locked => by simp [unlocked] at locked
      stopped_empty := fun stopped => by simp_all }

theorem setCursor (h : c.Coherent) {label : String} {cursor : Nat}
    (known : (c.cursors.get? label).isSome = true)
    (within : ∀ positions, c.script.positions? label = some positions →
      cursor ≤ positions.length) :
    ({ c with cursors := c.cursors.insert label cursor } : Context).Coherent :=
  { h with
    cursor_names := fun other => by
      simp only [Table.get?_insert]
      split
      · rename_i same
        rw [same, ← h.cursor_names, known]
        rfl
      · exact h.cursor_names other
    cursor_le := fun other at_cursor positions found declared => by
      simp only [Table.get?_insert] at found
      split at found
      · rename_i same
        obtain rfl := Option.some.inj found
        exact within positions (same ▸ declared)
      · exact h.cursor_le other at_cursor positions found declared }

theorem zap (h : c.Coherent) (label : String) : (c.zap label).Coherent := by
  unfold Context.zap
  dsimp only
  split
  · rename_i positions cursor declared found
    refine h.setCursor (by simp [found]) fun others declared_again => ?_
    rw [declared] at declared_again
    obtain rfl := Option.some.inj declared_again
    exact Nat.min_le_right _ _
  · exact h

theorem restore (h : c.Coherent) (label : String) : (c.restore label).Coherent := by
  unfold Context.restore
  dsimp only
  split
  · rename_i cursor found
    refine h.setCursor (by simp [found]) fun positions declared => ?_
    have := h.cursor_le _ _ _ found declared
    omega
  · exact h

theorem dropStored_eq (h : c.Coherent) (running : c.index ≠ none) :
    c.dropStored = { c with stored := none, heap := .empty } := by
  unfold Context.dropStored
  split
  · rename_i fresh
    rw [← h.heap_eq_empty running fresh, ← fresh]
  · rename_i key stored
    have cleared : c.heap.clear key = .empty :=
      h.heap_clear running fun other here => Option.some.inj (here.symm.trans stored)
    rw [cleared]

theorem jump (h : c.Coherent) {label : String} (made : c.jump? label = some d) : d.Coherent := by
  unfold Context.jump? at made
  split at made
  · simp at made
  · rename_i going
    have running : c.index ≠ none := by simpa using going
    split at made
    · simp at made
    · rename_i position found
      obtain rfl := Option.some.inj made
      have at_label : -1 ≤ position ∧ position + 1 ≤ c.script.commands.length := by
        obtain ⟨positions, declared, at_cursor⟩ := Option.bind_eq_some_iff.1 found
        exact h.labels_within _ positions declared position (List.mem_of_getElem? at_cursor)
      rw [h.dropStored_eq running]
      exact { h with
        index_le := fun i here => by
          obtain rfl := Option.some.inj here
          exact Int.toNat_le.2 at_label.2
        stored_at := fun key none_stored => by simp at none_stored
        counts := fun _ slot mem => by simp [Heap.empty] at mem
        stuck := fun _ slot mem => by simp [Heap.empty] at mem
        stopped_empty := fun stopped => by simp at stopped
        stopped_stored := fun _ => rfl }

theorem finish (h : c.Coherent) (at_key : c.index = none ∨
    c.index = some key ∧ key < c.script.commands.length) : (c.finish key).Coherent := by
  rcases at_key with stopped | ⟨here, inside⟩
  · exact { h with
      index_le := fun i next => by simp [Context.finish, stopped] at next
      stored_at := fun key none_stored => by simp [Context.finish] at none_stored
      counts := fun running => by simp [Context.finish, stopped] at running
      stuck := fun running => by simp [Context.finish, stopped] at running
      stopped_empty := fun _ => h.stopped_empty stopped
      stopped_stored := fun _ => rfl }
  · have running : c.index ≠ none := by simp [here]
    have cleared : c.heap.clear key = .empty := by
      refine h.heap_clear running fun other stored => ?_
      have := (h.stored_at other stored).1
      exact Option.some.inj (this.symm.trans here)
    exact { h with
      index_le := fun i next => by
        simp only [Context.finish, here, Option.map_some, Option.some.injEq] at next
        show i ≤ c.script.commands.length
        omega
      stored_at := fun key none_stored => by simp [Context.finish] at none_stored
      counts := fun _ slot mem => by simp [Context.finish, cleared, Heap.empty] at mem
      stuck := fun _ slot mem => by simp [Context.finish, cleared, Heap.empty] at mem
      stopped_empty := fun stopped => by simp [Context.finish, here] at stopped
      stopped_stored := fun _ => rfl }

theorem count_le_declared (h : c.Coherent) {command : Command} (going : c.index ≠ none)
    (running : c.script.commands[key]? = some command) {declared : Numeral}
    (duration : command.duration? = some declared) :
    ((c.heap.count? key).getD declared.toInt64).toInt ≤ declared.val := by
  cases found : c.heap.count? key with
  | none => exact Int.le_of_eq (Numeral.toInt_toInt64 declared)
  | some m =>
    obtain ⟨_, other, bound, here, same_duration, _, below⟩ :=
      h.counts going (key, m) (mem_of_lookup found)
    rw [running] at here
    obtain rfl := Option.some.inj here
    rw [duration] at same_duration
    obtain rfl := Option.some.inj same_duration
    exact below

theorem hold (h : c.Coherent) {command : Command} (here : c.index = some key)
    (running : c.script.commands[key]? = some command) {generator : Generator} {heap : Heap}
    {n : Int64} {declared : Numeral} (duration : command.duration? = some declared)
    (stuck : heap = c.heap ∨ heap = c.heap.clearStuck key ∨
      command.isForceful = true ∧ ∃ d, heap = c.heap.setStuck key d)
    (pos : 1 ≤ n.toInt) (le : n.toInt ≤ ((c.heap.count? key).getD declared.toInt64).toInt) :
    ({ c with generator, heap := heap.setCount key n, stored := some key } : Context).Coherent := by
  have going : c.index ≠ none := by simp [here]
  have own (other : Nat) (stored : c.stored = some other) : other = key := by
    have := (h.stored_at other stored).1
    exact Option.some.inj (this.symm.trans here)
  have within : n.toInt ≤ declared.val :=
    Int.le_trans le (h.count_le_declared going running duration)
  exact { h with
    stored_at := fun other stored => by
      obtain rfl := Option.some.inj stored
      exact ⟨here, command, running, by simp [duration]⟩
    counts := fun _ slot mem => by
      rcases List.mem_cons.1 mem with rfl | mem
      · exact ⟨rfl, command, declared, running, duration, pos, within⟩
      · have same_counts : heap.counts = c.heap.counts := by
          rcases stuck with rfl | rfl | ⟨_, _, rfl⟩ <;> rfl
        obtain ⟨before, other⟩ := List.mem_filter.1 (same_counts ▸ mem)
        have := own slot.1 (h.counts going slot before).1
        simp [this] at other
    stuck := fun _ slot mem => by
      have old (before : slot ∈ c.heap.stuck) : some key = some slot.1 ∧
          ∃ command, c.script.commands[slot.1]? = some command ∧ command.isForceful = true := by
        obtain ⟨stored, forceful⟩ := h.stuck going slot before
        exact ⟨by rw [own slot.1 stored], forceful⟩
      rcases stuck with rfl | rfl | ⟨forceful, d, rfl⟩
      · exact old mem
      · exact old (List.mem_filter.1 mem).1
      · rcases List.mem_cons.1 mem with rfl | mem
        · exact ⟨rfl, command, running, forceful⟩
        · exact old (List.mem_filter.1 mem).1
    stopped_stored := fun stopped => absurd stopped going }

end Coherent
end Context

namespace Run

variable {β : Type} {r s : Run β} {event : Event} {c d : Context} {key : Nat} {command : Command}

theorem upNext?_eq_some (h : r.context.Coherent) (up : r.upNext? = some (key, command)) :
    r.context.index = some key ∧ r.context.script.commands[key]? = some command := by
  unfold upNext? Context.state at up
  split at up
  · rename_i index at_index
    obtain ⟨_, found, eq⟩ := Option.map_eq_some_iff.1 up
    obtain ⟨rfl, rfl⟩ := Prod.mk.inj eq
    split at at_index
    · simp at at_index
    · rename_i i here
      split at at_index
      · obtain rfl := Context.State.running.inj at_index
        refine ⟨?_, found⟩
        cases stored : r.context.stored with
        | none => exact here
        | some key => exact (h.stored_at key stored).1
      · simp at at_index
  · simp at up

/-- Every effect of the command at the cursor ends in a context that hangs together. -/
theorem coherent_settle (h : c.Coherent) (here : c.index = some key)
    (running : c.script.commands[key]? = some command) {outcome : Outcome}
    (effect : Effect key command c outcome d) : (d.settle key outcome).Coherent := by
  have inside : key < c.script.commands.length := (List.getElem?_eq_some_iff.1 running).1
  cases effect with
  | pass generator done =>
    rcases done with rfl | rfl <;> exact (h.draw generator).finish (.inr ⟨here, inside⟩)
  | stop => exact h.stop.finish (.inl rfl)
  | post recipient text => exact (h.post recipient text).finish (.inr ⟨here, inside⟩)
  | setLocked locked => exact (h.setLocked locked).finish (.inr ⟨here, inside⟩)
  | restore label =>
    exact (h.restore label).finish (.inr ⟨by simpa using here, by simpa using inside⟩)
  | zap label => exact (h.zap label).finish (.inr ⟨by simpa using here, by simpa using inside⟩)
  | jump generator label made => exact (h.draw generator).jump made
  | spent generator => exact ((h.clearStuck key).draw generator).finish (.inr ⟨here, inside⟩)
  | hold generator heap n declared duration stuck pos le =>
    exact h.hold here running duration stuck pos le

variable [Body β]

theorem effect_of_up (h : r.context.Coherent) (up : r.upNext? = some (key, command)) :
    Effect key command r.context (r.execute key command).1
      (r.execute key command).2.context := by
  have going : r.context.index ≠ none := by simp [(upNext?_eq_some h up).1]
  exact effect_execute fun n found => h.count_pos going found

/-- Every command that a tick runs leaves a context that hangs together, and the same script. -/
theorem coherent_next (h : r.context.Coherent) (ran : r.next? = some (event, s)) :
    s.context.Coherent ∧ s.context.script = r.context.script := by
  obtain ⟨key, command, up, -, rfl⟩ := next?_eq_some.1 ran
  obtain ⟨here, running⟩ := upNext?_eq_some h up
  have effect := effect_of_up h up
  rw [context_settle, Context.script_settle, effect.script_eq]
  exact ⟨coherent_settle h here running effect, rfl⟩

theorem coherent_takeMessage (h : c.Coherent) :
    (takeMessage c).Coherent ∧ (takeMessage c).script = c.script := by
  unfold takeMessage
  split
  · exact ⟨h, rfl⟩
  · rename_i message inbox waiting
    have taken : ({ c with inbox } : Context).Coherent := { h with
      locked_empty := fun locked => by simp [h.locked_empty locked] at waiting
      stopped_empty := fun stopped => by simp [h.stopped_empty stopped] at waiting }
    dsimp only
    cases made : ({ c with inbox } : Context).jump? message with
    | none => exact ⟨taken, rfl⟩
    | some d =>
      have same := Context.script_jump made
      exact ⟨taken.jump made, same⟩

theorem coherent_commands (budget : Nat) (h : r.context.Coherent) :
    (commands budget r).context.Coherent ∧
      (commands budget r).context.script = r.context.script := by
  have begun : r.context.Coherent ∧ r.context.script = r.context.script := ⟨h, rfl⟩
  refine commands_induction (motive := fun s => s.context.Coherent ∧
    s.context.script = r.context.script) (fun kept ran => ?_) budget begun
  obtain ⟨coherent, same⟩ := coherent_next kept.1 ran
  exact ⟨coherent, same.trans kept.2⟩

theorem coherent_tick (h : r.context.Coherent) :
    r.tick.context.Coherent ∧ r.tick.context.script = r.context.script := by
  obtain ⟨taken, same⟩ := coherent_takeMessage h
  obtain ⟨coherent, same_too⟩ := coherent_commands (r := r.onContext takeMessage)
    (budget (takeMessage r.context)) taken
  exact ⟨coherent, same_too.trans same⟩

/-- The states between the commands of a tick that begins with `r`. -/
inductive Underway (r : Run β) : Run β → Prop where
  | begin : Underway r (r.onContext takeMessage)
  | next {s t : Run β} {event : Event} (before : Underway r s) (ran : s.next? = some (event, t))
      (on : event.outcome = .proceed ∨ event.outcome = .jumped) : Underway r t

theorem Underway.coherent (h : r.context.Coherent) (underway : Underway r s) :
    s.context.Coherent := by
  induction underway with
  | begin => exact (coherent_takeMessage h).1
  | next _ ran _ ih => exact (coherent_next ih ran).1

end Run

namespace Context

/-- What can be done to a context from outside. A tick may be run for any body. -/
inductive Step : Context → Context → Prop where
  | send (message : String) (c : Context) : Step c (c.send message)
  | setLocked (locked : Bool) (c : Context) : Step c (c.setLocked locked)
  | stop (c : Context) : Step c c.stop
  | jump (label : String) (c : Context) : Step c ((c.jump? label).getD c)
  | zap (label : String) (c : Context) : Step c (c.zap label)
  | restore (label : String) (c : Context) : Step c (c.restore label)
  | post (recipient text : String) (c : Context) : Step c (c.post recipient text)
  | emptyOutbox (c : Context) : Step c c.emptyOutbox
  | tick {β : Type} [Body β] (r : Run β) : Step r.context r.tick.context

/-- The contexts that a script can come to. -/
inductive Reachable (script : Script) : Context → Prop where
  | start (seed : UInt64) : Reachable script (.start script (.seeded seed))
  | step {c d : Context} (before : Reachable script c) (step : Step c d) : Reachable script d

theorem step_coherent {c d : Context} (h : c.Coherent) (step : Step c d) :
    d.Coherent ∧ d.script = c.script := by
  cases step with
  | send message =>
    refine ⟨h.send message, ?_⟩
    unfold Context.send
    split <;> rfl
  | setLocked locked => exact ⟨h.setLocked locked, rfl⟩
  | stop => exact ⟨h.stop, rfl⟩
  | jump label =>
    cases made : c.jump? label with
    | none => exact ⟨h, rfl⟩
    | some d => exact ⟨h.jump made, script_jump made⟩
  | zap label => exact ⟨h.zap label, script_zap label c⟩
  | restore label => exact ⟨h.restore label, script_restore label c⟩
  | post recipient text => exact ⟨h.post recipient text, rfl⟩
  | emptyOutbox => exact ⟨h.emptyOutbox, rfl⟩
  | tick r => exact Run.coherent_tick h

theorem reachable_coherent {script : Script} (within : script.LabelsWithin) {c : Context}
    (h : Reachable script c) : c.Coherent ∧ c.script = script := by
  induction h with
  | start seed => exact ⟨coherent_start within (.seeded seed), rfl⟩
  | step _ step ih =>
    obtain ⟨coherent, same⟩ := step_coherent ih.1 step
    exact ⟨coherent, same.trans ih.2⟩

/-- All that a parsed script can come to hangs together, between its ticks and inside them; and a
command that starts, because none is in progress, finds no slot of its own on the heap. -/
theorem parsed_script_stays_coherent (name text : String) {c : Context}
    (h : Reachable (.ofText name text) c) :
    c.Coherent ∧ c.script = .ofText name text ∧
      ∀ {β : Type} [Body β] (body : β) (s : Run β), Run.Underway ⟨c, body⟩ s →
        s.context.Coherent ∧
          ∀ key command, s.upNext? = some (key, command) → s.context.stored = none →
            s.context.heap.count? key = none ∧ s.context.heap.stuck? key = none := by
  obtain ⟨coherent, same⟩ := reachable_coherent (Script.labelsWithin_ofText name text) h
  refine ⟨coherent, same, fun body s underway => ?_⟩
  have inside := Run.Underway.coherent coherent underway
  refine ⟨inside, fun key command up fresh => ?_⟩
  have running : s.context.index ≠ none := by simp [(Run.upNext?_eq_some inside up).1]
  rw [inside.heap_eq_empty running fresh]
  exact ⟨rfl, rfl⟩

/-- A wait in progress, when a message for its script has come. -/
theorem waiting_sentry_coherent :
    let script := Script.ofText "sentry" "wait 3\n:touch\nmove n 2 force"
    let begun : Run Recorder := ⟨.start script (.seeded 42), .named "sentry"⟩
    Reachable script (begun.tick.context.send "touch") ∧
      (begun.tick.context.send "touch").Coherent := by
  intro script begun
  have reachable : Reachable script (begun.tick.context.send "touch") :=
    .step (.step (.start 42) (.tick begun)) (.send "touch" begun.tick.context)
  exact ⟨reachable, (parsed_script_stays_coherent _ _ reachable).1⟩

end Context
end ActorScript
