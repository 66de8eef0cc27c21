import ActorScript.Proofs.Context.Stopping
import ActorScript.Proofs.Script.Lines

/-!
A label may be declared on many lines, and a jump leads behind the first of these that is not
zapped. Which one that is follows from the source and from the calls that were made so far, by the
script and from outside; nothing else that is done to a context counts.
-/
namespace ActorScript

namespace Line

/-- The lines that declare a label, counted from none. -/
def declarations (label : String) (lines : List Line) : List Nat :=
  (List.range lines.length).filter fun i => lines[i]? = some (.label label)

theorem mem_declarations {label : String} {lines : List Line} {i : Nat} :
    i ∈ declarations label lines ↔ lines[i]? = some (.label label) := by
  rw [declarations, List.mem_filter, List.mem_range, decide_eq_true_iff]
  constructor
  · intro declared
    exact declared.2
  · intro declares
    exact ⟨(List.getElem?_eq_some_iff.1 declares).1, declares⟩

theorem declarations_eq_nil {label : String} {lines : List Line} :
    declarations label lines = [] ↔ .label label ∉ lines := by
  rw [List.eq_nil_iff_forall_not_mem, List.mem_iff_getElem?, not_exists]
  exact forall_congr' fun i => not_congr mem_declarations

theorem positionsOf_eq_map (label : String) (lines : List Line) :
    positionsOf label lines =
      (declarations label lines).map fun i => ((lines.take i).countP isCommand : Int) - 1 := by
  rw [positionsOf, declarations, ← List.filterMap_eq_map, ← List.filterMap_eq_filter,
    List.filterMap_filterMap]
  congr 1
  funext i
  by_cases declares : lines[i]? = some (.label label)
  · simp [declares, Option.guard]
  · simp [declares, Option.guard]

end Line

/-- What may be asked of the cursor of a label. -/
inductive LabelCall where
  | zap (label : String)
  | restore (label : String)
  deriving DecidableEq, Repr

namespace LabelCall

def ofCommand? : Command → Option LabelCall
  | .zap label => some (.zap label)
  | .restore label => some (.restore label)
  | _ => none

def ofEvents (script : Script) (events : List Event) : List LabelCall :=
  events.filterMap fun event => script.commands[event.key]?.bind ofCommand?

theorem ofEvents_append {script : Script} {events : List Event} {event : Event} {command : Command}
    (here : script.commands[event.key]? = some command) :
    ofEvents script (events ++ [event]) =
      ofEvents script events ++ (ofCommand? command).toList := by
  rw [ofEvents, List.filterMap_append, List.filterMap_cons, here, Option.bind_some]
  cases ofCommand? command with
  | none => rfl
  | some call => rfl

def perform : LabelCall → Context → Context
  | .zap label => .zap label
  | .restore label => .restore label

/-- What a call adds to the count of zaps of a label. Words are the same in any case. -/
def weight (label : String) : LabelCall → Int
  | .zap other => if sameWord other label then 1 else 0
  | .restore other => if sameWord other label then -1 else 0

/-- The count after one more call, which is never less than none nor more than there are
declarations. -/
def next (label : String) (declared : Nat) (count : Int) (call : LabelCall) : Int :=
  max 0 (min declared (count + call.weight label))

/-- The zaps of a label less its restores, over all calls. -/
def count (label : String) (declared : Nat) (calls : List LabelCall) : Int :=
  calls.foldl (next label declared) 0

theorem count_append (label : String) (declared : Nat) (calls : List LabelCall) (call : LabelCall) :
    count label declared (calls ++ [call]) =
      next label declared (count label declared calls) call := by
  rw [count, List.foldl_append]
  rfl

end LabelCall

namespace Context

/-- What the host may do to a context between its ticks besides zapping and restoring. -/
inductive Handled : Context → Context → Prop where
  | send (message : String) (c : Context) : Handled c (c.send message)
  | setLocked (locked : Bool) (c : Context) : Handled c (c.setLocked locked)
  | stop (c : Context) : Handled c c.stop
  | jump (label : String) (c : Context) : Handled c ((c.jump? label).getD c)
  | post (recipient text : String) (c : Context) : Handled c (c.post recipient text)
  | emptyOutbox (c : Context) : Handled c c.emptyOutbox

/-- The contexts that a script can come to, also inside its ticks, with the calls about labels that
were made on the way. A tick is the message that it takes and then one command after the other. -/
inductive Chronicle (script : Script) : List LabelCall → Context → Prop where
  | start (seed : UInt64) : Chronicle script [] (.start script (.seeded seed))
  | call {calls : List LabelCall} {c : Context} (before : Chronicle script calls c)
      (call : LabelCall) : Chronicle script (calls ++ [call]) (call.perform c)
  | host {calls : List LabelCall} {c d : Context} (before : Chronicle script calls c)
      (handled : Handled c d) : Chronicle script calls d
  | message {calls : List LabelCall} {c : Context} (before : Chronicle script calls c) :
      Chronicle script calls (Run.takeMessage c)
  | command {β : Type} [Body β] {calls : List LabelCall} {r s : Run β} {key : Nat}
      {command : Command} {event : Event} (before : Chronicle script calls r.context)
      (up : r.upNext? = some (key, command)) (ran : r.next? = some (event, s)) :
      Chronicle script (calls ++ (LabelCall.ofCommand? command).toList) s.context

variable {c d : Context} {label : String} {call : LabelCall}

theorem cursor?_zap {other : String} {positions : List Int} {cursor : Nat}
    (declared : c.script.positions? (lowerCase label) = some positions)
    (here : c.cursor? label = some cursor) :
    (c.zap other).cursor? label =
      some (if sameWord other label then min (cursor + 1) positions.length else cursor) := by
  unfold cursor? at *
  by_cases same : lowerCase other = lowerCase label
  · unfold zap
    dsimp only
    rw [same, declared, here, if_pos (sameWord_iff.2 same)]
    dsimp only
    rw [Table.get?_insert, if_pos rfl]
  · rw [if_neg (mt sameWord_iff.1 same)]
    unfold zap
    dsimp only
    split
    · dsimp only
      rw [Table.get?_insert, if_neg (Ne.symm same), here]
    · exact here

theorem cursor?_restore {other : String} {cursor : Nat} (here : c.cursor? label = some cursor) :
    (c.restore other).cursor? label =
      some (if sameWord other label then cursor - 1 else cursor) := by
  unfold cursor? at *
  by_cases same : lowerCase other = lowerCase label
  · unfold restore
    dsimp only
    rw [same, here, if_pos (sameWord_iff.2 same)]
    dsimp only
    rw [Table.get?_insert, if_pos rfl]
  · rw [if_neg (mt sameWord_iff.1 same)]
    unfold restore
    dsimp only
    split
    · dsimp only
      rw [Table.get?_insert, if_neg (Ne.symm same), here]
    · exact here

/-- The cursor of each label that the script has is the count of the calls about it. -/
def Counted (calls : List LabelCall) (c : Context) : Prop :=
  ∀ label positions, c.script.positions? (lowerCase label) = some positions →
    ∃ cursor : Nat, c.cursor? label = some cursor ∧
      (cursor : Int) = LabelCall.count label positions.length calls

theorem Counted.of_eq {calls : List LabelCall} (counted : Counted calls c)
    (script : d.script = c.script) (cursors : d.cursors = c.cursors) : Counted calls d := by
  intro label positions declared
  rw [cursor?, cursors]
  rw [script] at declared
  exact counted label positions declared

theorem counted_start (script : Script) (generator : Generator) :
    Counted [] (start script generator) := by
  intro label positions declared
  refine ⟨0, ?_, rfl⟩
  have declared : script.program.labels.get? (lowerCase label) = some positions := declared
  rw [cursor?, start, Table.get?_map, declared]
  rfl

theorem step_perform (call : LabelCall) (c : Context) : Step c (call.perform c) := by
  cases call with
  | zap label => exact .zap label c
  | restore label => exact .restore label c

/-- One call keeps the count, since a cursor is never beyond the declarations. -/
theorem Counted.perform {calls : List LabelCall} (h : c.Coherent) (counted : Counted calls c)
    (call : LabelCall) : Counted (calls ++ [call]) (call.perform c) := by
  intro label positions declared
  rw [(step_coherent h (step_perform call c)).2] at declared
  obtain ⟨cursor, here, counts⟩ := counted label positions declared
  have few : cursor ≤ positions.length :=
    h.cursor_le (lowerCase label) cursor positions here declared
  rw [LabelCall.count_append, ← counts, LabelCall.next]
  cases call with
  | zap other =>
    refine ⟨_, cursor?_zap declared here, ?_⟩
    unfold LabelCall.weight
    dsimp only
    split
    · omega
    · omega
  | restore other =>
    refine ⟨_, cursor?_restore here, ?_⟩
    unfold LabelCall.weight
    dsimp only
    split
    · omega
    · omega

theorem Handled.step (handled : Handled c d) : Step c d := by
  cases handled with
  | send message => exact .send message c
  | setLocked locked => exact .setLocked locked c
  | stop => exact .stop c
  | jump label => exact .jump label c
  | post recipient text => exact .post recipient text c
  | emptyOutbox => exact .emptyOutbox c

theorem Handled.cursors_eq (handled : Handled c d) : d.cursors = c.cursors := by
  cases handled with
  | send message =>
    unfold Context.send
    split
    · rfl
    · rfl
  | jump label =>
    cases made : c.jump? label with
    | none => rfl
    | some d => exact cursors_jump made
  | _ => rfl

end Context

namespace Run

open Context

variable {β : Type} {r s : Run β} {c d : Context} {key : Nat} {command : Command} {event : Event}
  {calls : List LabelCall} {script : Script}

theorem cursors_takeMessage (c : Context) : (takeMessage c).cursors = c.cursors := by
  unfold takeMessage
  split
  · rfl
  · rename_i message inbox _
    dsimp only
    cases made : ({ c with inbox } : Context).jump? message with
    | none => rfl
    | some d =>
      have same := cursors_jump made
      exact same

theorem Effect.cursors_eq {outcome : Outcome} (effect : Effect key command c outcome d)
    (none_called : LabelCall.ofCommand? command = none) : d.cursors = c.cursors := by
  cases effect with
  | restore label named =>
    rw [named] at none_called
    cases none_called
  | zap label named =>
    rw [named] at none_called
    cases none_called
  | jump generator label made =>
    have same := cursors_jump made
    exact same
  | _ => rfl

variable [Body β]

theorem execute_of_call {call : LabelCall} (called : LabelCall.ofCommand? command = some call) :
    (r.execute key command).2.context = call.perform r.context := by
  cases command with
  | zap label =>
    obtain rfl := Option.some.inj called
    rfl
  | restore label =>
    obtain rfl := Option.some.inj called
    rfl
  | _ => cases called

theorem counted_next (h : r.context.Coherent) (counted : Counted calls r.context)
    (up : r.upNext? = some (key, command)) (ran : r.next? = some (event, s)) :
    Counted (calls ++ (LabelCall.ofCommand? command).toList) s.context := by
  have script_kept := (coherent_next h ran).2
  obtain ⟨key', command', up', -, rfl⟩ := next?_eq_some.1 ran
  obtain ⟨rfl, rfl⟩ := Prod.mk.inj (Option.some.inj (up.symm.trans up'))
  have cursors_kept := congrArg Context.cursors
    (context_settle key (r.execute key command).1 (r.execute key command).2)
  rw [cursors_settle] at cursors_kept
  cases called : LabelCall.ofCommand? command with
  | none =>
    rw [(effect_of_up h up).cursors_eq called] at cursors_kept
    rw [Option.toList_none, List.append_nil]
    exact counted.of_eq script_kept cursors_kept
  | some call =>
    rw [execute_of_call called] at cursors_kept
    have call_kept := (step_coherent h (step_perform call r.context)).2
    exact (counted.perform h call).of_eq (script_kept.trans call_kept.symm) cursors_kept

end Run

namespace Context

open Run

variable {script : Script} {calls : List LabelCall} {c d : Context} {label : String}

theorem Chronicle.counted (within : script.LabelsWithin) (h : Chronicle script calls c) :
    c.Coherent ∧ c.script = script ∧ Counted calls c := by
  induction h with
  | start seed => exact ⟨coherent_start within _, rfl, counted_start script _⟩
  | call before call ih =>
    obtain ⟨coherent, same, counted⟩ := ih
    obtain ⟨coherent_after, script_kept⟩ := step_coherent coherent (step_perform call _)
    exact ⟨coherent_after, script_kept.trans same, counted.perform coherent call⟩
  | host before handled ih =>
    obtain ⟨coherent, same, counted⟩ := ih
    obtain ⟨coherent_after, script_kept⟩ := step_coherent coherent handled.step
    exact ⟨coherent_after, script_kept.trans same, counted.of_eq script_kept handled.cursors_eq⟩
  | message before ih =>
    obtain ⟨coherent, same, counted⟩ := ih
    obtain ⟨taken, script_kept⟩ := coherent_takeMessage coherent
    exact ⟨taken, script_kept.trans same, counted.of_eq script_kept (cursors_takeMessage _)⟩
  | command before up ran ih =>
    obtain ⟨coherent, same, counted⟩ := ih
    obtain ⟨coherent_after, script_kept⟩ := coherent_next coherent ran
    exact ⟨coherent_after, script_kept.trans same, counted_next coherent counted up ran⟩

theorem Chronicle.executable (h : Chronicle script calls c) (running : c.index ≠ none) :
    script.isExecutable = true := by
  by_contra unfit
  apply running
  clear running
  induction h with
  | start seed => exact if_neg unfit
  | call before call ih => exact step_stopped ih (step_perform call _)
  | host before handled ih => exact step_stopped ih handled.step
  | message before ih => exact takeMessage_stopped ih
  | command before up ran ih =>
    rw [next?_stopped ih] at ran
    cases ran

end Context

namespace Run

open Context

variable {β : Type} [Body β] {r s : Run β} {script : Script} {calls : List LabelCall}

def labelCalls (r : Run β) : List LabelCall := LabelCall.ofEvents r.context.script r.log

/-- A tick adds the calls of its commands to the chronicle. -/
theorem chronicle_tick (within : script.LabelsWithin) (h : Chronicle script calls r.context) :
    Chronicle script (calls ++ r.labelCalls) r.tick.context := by
  have begun : Chronicle script (calls ++ LabelCall.ofEvents script [])
      (r.onContext takeMessage).context := by
    rw [LabelCall.ofEvents, List.filterMap_nil, List.append_nil]
    exact h.message
  have whole := logged_induction
    (motive := fun events s =>
      Chronicle script (calls ++ LabelCall.ofEvents script events) s.context)
    (fun so_far ran => by
      obtain ⟨coherent, same, -⟩ := so_far.counted within
      obtain ⟨key, command, up, rfl, -⟩ := next?_eq_some.1 ran
      have here := (upNext?_eq_some coherent up).2
      rw [same] at here
      rw [LabelCall.ofEvents_append here, ← List.append_assoc]
      exact so_far.command up ran)
    (budget (r.onContext takeMessage).context) begun
  rw [logged_snd, List.nil_append] at whole
  rw [labelCalls, (h.counted within).2.1]
  exact whole

theorem chronicle_underway (h : Chronicle script calls r.context) (underway : Underway r s) :
    ∃ more, Chronicle script (calls ++ more) s.context := by
  induction underway with
  | begin =>
    refine ⟨[], ?_⟩
    rw [List.append_nil]
    exact h.message
  | next before ran _ ih =>
    obtain ⟨more, so_far⟩ := ih
    obtain ⟨key, command, up, -⟩ := next?_eq_some.1 ran
    have further := so_far.command up ran
    rw [List.append_assoc] at further
    exact ⟨_, further⟩

end Run

namespace Context

variable {script : Script} {calls : List LabelCall} {c d : Context} {label : String}
  {lines : List Line}

theorem exists_chronicle (within : script.LabelsWithin) (reachable : Reachable script c) :
    ∃ calls, Chronicle script calls c := by
  -- What is done from outside is one entry; a tick is all that its log holds.
  induction reachable with
  | start seed => exact ⟨[], .start seed⟩
  | step before step ih =>
    obtain ⟨calls, h⟩ := ih
    cases step with
    | send message => exact ⟨calls, h.host (.send message _)⟩
    | setLocked locked => exact ⟨calls, h.host (.setLocked locked _)⟩
    | stop => exact ⟨calls, h.host (.stop _)⟩
    | jump label => exact ⟨calls, h.host (.jump label _)⟩
    | zap label => exact ⟨_, h.call (.zap label)⟩
    | restore label => exact ⟨_, h.call (.restore label)⟩
    | post recipient text => exact ⟨calls, h.host (.post recipient text _)⟩
    | emptyOutbox => exact ⟨calls, h.host (.emptyOutbox _)⟩
    | tick r => exact ⟨_, Run.chronicle_tick within h⟩

theorem jump?_of_lines (h : c.Coherent) (running : c.index ≠ none)
    (declared : c.script.positions? (lowerCase label) =
      some (Line.positionsOf (lowerCase label) lines))
    {cursor : Nat} (here : c.cursor? label = some cursor) :
    c.jump? label = (Line.declarations (lowerCase label) lines)[cursor]?.map fun i =>
      { c with
        index := some ((lines.take i).countP Line.isCommand), stored := none, heap := .empty } := by
  have target : c.target? label =
      (Line.declarations (lowerCase label) lines)[cursor]?.map fun i =>
        ((lines.take i).countP Line.isCommand : Int) - 1 := by
    rw [target?, declared, here, Line.positionsOf_eq_map]
    exact List.getElem?_map
  rw [jump?, if_neg (by simpa using running), target, h.dropStored_eq running]
  cases (Line.declarations (lowerCase label) lines)[cursor]? with
  | none => rfl
  | some i =>
    have exact_index : (((lines.take i).countP Line.isCommand : Int) - 1 + 1).toNat =
        (lines.take i).countP Line.isCommand := by omega
    rw [Option.map_some, Option.map_some]
    dsimp only
    rw [exact_index]

/-- Whatever a script has come to, also inside a tick: as long as it has not stopped, the cursor of
a label is the count of the zaps and restores so far, and a jump to the label, in whatever case it
is spelt, is made exactly if a declaration is left there. It then leads to the command below that
declaration, and drops the command in progress with all that the heap holds. Nothing else changes,
and nothing at all where the jump is not made. -/
theorem labels_follow_their_calls (name text : String) :
    let script := Script.ofText name text
    (∀ c, Reachable script c → (∃ calls, Chronicle script calls c) ∧
      ∀ {β : Type} [Body β] (body : β) (s : Run β), Run.Underway ⟨c, body⟩ s →
        ∃ calls, Chronicle script calls s.context) ∧
    ∀ calls c, Chronicle script calls c → c.index ≠ none →
      ∃ lines, List.Forall₂ (fun part line => Line.ofText part = .ok line) (lineTexts text) lines ∧
        ∀ label,
          let declared := Line.declarations (lowerCase label) lines
          (declared = [] → c.cursor? label = none ∧ c.jump? label = none) ∧
          (declared ≠ [] → ∃ cursor : Nat, c.cursor? label = some cursor ∧
            (cursor : Int) = LabelCall.count label declared.length calls ∧
            c.jump? label = declared[cursor]?.map fun i =>
              { c with
                index := some ((lines.take i).countP Line.isCommand)
                stored := none
                heap := .empty }) := by
  intro script
  have within := Script.labelsWithin_ofText name text
  constructor
  · intro c reachable
    obtain ⟨calls, h⟩ := exists_chronicle within reachable
    refine ⟨⟨calls, h⟩, fun body s underway => ?_⟩
    obtain ⟨more, inside⟩ := Run.chronicle_underway (r := ⟨c, body⟩) h underway
    exact ⟨_, inside⟩
  · intro calls c h running
    obtain ⟨coherent, same, counted⟩ := h.counted within
    obtain ⟨-, made_of_lines, -⟩ := script_made_of_lines name text
    obtain ⟨lines, each, -, positions⟩ := made_of_lines (h.executable running)
    refine ⟨lines, each, fun label => ?_⟩
    have found := positions (lowerCase label)
    rw [← same] at found
    intro declared
    constructor
    · intro none_declared
      rw [if_neg (Line.declarations_eq_nil.1 none_declared)] at found
      have no_target : c.target? label = none := by rw [target?, found]; rfl
      refine ⟨?_, jump?_eq_none.2 (.inr no_target)⟩
      have unknown := coherent.cursor_names (lowerCase label)
      rw [found] at unknown
      exact Option.isNone_iff_eq_none.1 (Option.isSome_eq_false_iff.1 unknown)
    · intro some_declared
      rw [if_pos (not_not.1 (mt Line.declarations_eq_nil.2 some_declared))] at found
      obtain ⟨cursor, here, counts⟩ := counted label _ found
      rw [Line.positionsOf_eq_map, List.length_map] at counts
      exact ⟨cursor, here, counts, jump?_of_lines coherent running found here⟩

/-- A watch that zaps the first of its two labels and then waits. Called back, it goes on behind the
second; zapped once more from outside, it can no longer be called. -/
theorem watch_is_called_back :
    let text := ":post\nzap post\nwait 2\n:Post\nsay \"here\""
    let begun : Run Recorder := ⟨.start (.ofText "watch" text) (.seeded 42), .named "watch"⟩
    let c := begun.tick.context
    Chronicle (.ofText "watch" text) [.zap "post"] c ∧ c.stored = some 1 ∧
      c.jump? "POST" = some { c with index := some 2, stored := none, heap := .empty } ∧
      (c.zap "Post").jump? "POST" = none := by
  intro text begun c
  have within := Script.labelsWithin_ofText "watch" text
  have called : begun.labelCalls = [.zap "post"] := by decide +kernel
  have ticked : Chronicle (.ofText "watch" text) [.zap "post"] c := by
    rw [← called]
    exact Run.chronicle_tick (r := begun) within (.start 42)
  have zapped : Chronicle (.ofText "watch" text) ([.zap "post"] ++ [.zap "Post"]) (c.zap "Post") :=
    ticked.call (.zap "Post")
  have waits : c.stored = some 1 := by decide +kernel
  have running : c.index ≠ none := by decide +kernel
  have running_zapped : (c.zap "Post").index ≠ none := by
    rw [index_zap]
    exact running
  let source : List Line := [.label "post", .command (.zap "post"),
    .command (.wait ⟨2, by decide⟩), .label "post", .command (.say "here")]
  have read : (lineTexts text).map Line.ofText = source.map .ok := by decide +kernel
  have only_these {lines : List Line}
      (each : List.Forall₂ (fun part line => Line.ofText part = .ok line) (lineTexts text) lines) :
      lines = source := by
    have same : List.Forall₂ (· = ·) ((lineTexts text).map Line.ofText) (lines.map .ok) :=
      List.forall₂_map_left_iff.2 (List.forall₂_map_right_iff.2 each)
    rw [List.forall₂_eq_eq_eq, read] at same
    exact (List.map_injective_iff.2 (fun _ _ => Except.ok.inj) same).symm
  have declared : Line.declarations (lowerCase "POST") source = [0, 3] := by decide +kernel
  have follows := (labels_follow_their_calls "watch" text).2
  refine ⟨ticked, waits, ?_, ?_⟩
  · obtain ⟨lines, each, labels⟩ := follows _ c ticked running
    obtain rfl := only_these each
    obtain ⟨cursor, -, counts, jumps⟩ := (labels "POST").2 (by rw [declared]; decide)
    have one : LabelCall.count "POST" 2 [.zap "post"] = 1 := by decide +kernel
    rw [declared] at counts jumps
    obtain rfl : cursor = 1 := by
      rw [List.length_cons, List.length_singleton, one] at counts
      omega
    exact jumps
  · obtain ⟨lines, each, labels⟩ := follows _ _ zapped running_zapped
    obtain rfl := only_these each
    obtain ⟨cursor, -, counts, jumps⟩ := (labels "POST").2 (by rw [declared]; decide)
    have two : LabelCall.count "POST" 2 ([.zap "post"] ++ [.zap "Post"]) = 2 := by decide +kernel
    rw [declared] at counts jumps
    obtain rfl : cursor = 2 := by
      rw [List.length_cons, List.length_singleton, two] at counts
      omega
    exact jumps

end Context
end ActorScript
