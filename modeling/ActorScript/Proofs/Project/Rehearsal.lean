import ActorScript.Proofs.Project.Loading
import ActorScript.Proofs.Stage.Isolation

/-!
A dry run of a project that loads. Every actor finds its script, so that the run cannot fail; each
keeps its place, its name and its script from the first tick to the last, and one whose script could
not be read has nothing to report.
-/
namespace ActorScript

namespace Run

variable {β : Type} [Body β] {r : Run β}

theorem pass_of_silent (silent : r.context.Silent) (cycle number : Nat) (texts : List String) :
    (r.pass cycle number texts).context.Silent ∧
      (r.pass cycle number texts).body = r.body := by
  have unheard (c : Context) (stopped : c.index = none) :
      texts.foldl (fun c text => c.send text) c = c := by
    induction texts with
    | nil => rfl
    | cons text texts ih => rw [List.foldl_cons, Context.send_stopped stopped, ih]
  have idle : (if cycle ∣ number then r.tick else r) = r := by
    split
    · exact silent.tick r.body
    · rfl
  rw [pass, idle]
  dsimp only [onContext]
  rw [unheard r.context.emptyOutbox silent.stopped]
  exact ⟨⟨silent.stopped, silent.inbox_empty⟩, rfl⟩

end Run

namespace Project

variable {p : Project} {entry : ActorEntry} {a : Actor Recorder}

/-- An actor on the stage for an entry of a project. One without a script to run has done nothing
and will do nothing. -/
structure Plays (p : Project) (entry : ActorEntry) (a : Actor Recorder) : Prop where
  name : a.name = entry.name
  performs : ∃ text, ⟨entry.script, text⟩ ∈ p.scripts ∧
    a.Performs (.ofText entry.script text)
  idle : a.run.context.script.isExecutable = false →
    a.run.context.Silent ∧ a.run.body.actions = #[]

theorem plays_start {text : String} (listed : ⟨entry.script, text⟩ ∈ p.scripts)
    (generator : Generator) (cycle : Nat) :
    p.Plays entry ⟨entry.name,
      ⟨.start (.ofText entry.script text) generator, .named entry.name⟩, cycle⟩ where
  name := rfl
  performs := ⟨text, listed,
    ⟨Stage.settled_start entry.name entry.script text generator _ cycle, rfl⟩⟩
  idle := by
    intro refused
    refine ⟨⟨?_, rfl⟩, rfl⟩
    exact if_neg (by simpa [Context.start] using refused)

theorem Plays.pass (h : p.Plays entry a) (number : Nat) (texts : List String) :
    p.Plays entry { a with run := a.run.pass a.cycle number texts } := by
  obtain ⟨text, listed, performs⟩ := h.performs
  have later := performs.pass number texts
  refine ⟨h.name, ⟨text, listed, later⟩, fun refused => ?_⟩
  have same : (a.run.pass a.cycle number texts).context.script = a.run.context.script :=
    later.script_eq.trans performs.script_eq.symm
  obtain ⟨silent, nothing⟩ := h.idle (same ▸ refused)
  obtain ⟨still_silent, same_body⟩ := Run.pass_of_silent silent a.cycle number texts
  exact ⟨still_silent, (congrArg Recorder.actions same_body).trans nothing⟩

theorem forall₂_mapIdx_right {α β : Type} {r : α → β → Prop} {f : Nat → β → β} {as : List α}
    {bs : List β} (each : List.Forall₂ r as bs) (kept : ∀ i a b, r a b → r a (f i b)) :
    List.Forall₂ r as (bs.mapIdx f) := by
  induction each generalizing f with
  | nil => exact .nil
  | cons first _ ih =>
    rw [List.mapIdx_cons]
    exact .cons (kept 0 _ _ first) (ih fun i => kept (i + 1))

/-- The actors on a stage are those of the project, in their order. -/
def Casts (p : Project) (entries : List ActorEntry) (s : Stage Recorder) : Prop :=
  List.Forall₂ p.Plays entries s.actors

theorem Casts.tick {entries : List ActorEntry} {s : Stage Recorder} (h : p.Casts entries s) :
    p.Casts entries s.tick := by
  rw [Casts, Stage.actors_tick_eq_pass]
  exact forall₂_mapIdx_right h fun _ _ _ plays => plays.pass _ _

theorem Casts.runFor {entries : List ActorEntry} {s : Stage Recorder} (h : p.Casts entries s)
    (ticks : Nat) : p.Casts entries (s.runFor ticks) := by
  induction ticks generalizing s with
  | zero => exact h
  | succ ticks ih => exact ih h.tick

/-- Whoever names a script of the project is put on the stage behind the others. -/
theorem exists_enterAll (sound : p.Sound) {cast entries : List ActorEntry} {s : Stage Recorder}
    (known : ∀ entry ∈ entries, entry.script ∈ p.scripts.map (·.name)) (h : p.Casts cast s) :
    ∃ t, enterAll p.library entries s = .ok t ∧ p.Casts (cast ++ entries) t := by
  induction entries generalizing cast s with
  | nil => exact ⟨s, rfl, by rwa [List.append_nil]⟩
  | cons entry entries ih =>
    obtain ⟨first, others⟩ := List.forall_mem_cons.1 known
    obtain ⟨⟨name, text⟩, listed, named⟩ := List.mem_map.1 first
    obtain rfl : name = entry.script := named
    have spawned : p.Casts (cast ++ [entry])
        (s.spawn entry.name (.ofText entry.script text) (.named entry.name) entry.cycle) :=
      List.rel_append h (.cons (plays_start listed _ _) .nil)
    obtain ⟨t, entered, casts⟩ := ih others spawned
    refine ⟨t, ?_, by simpa using casts⟩
    rw [enterAll, sound.get?_library listed]
    exact entered

/-- A dry run of a project that loads never fails, whatever can be read of its scripts and however
long it runs. There is one script for each entry; there is one diagnostic, in the order of the
names, for each script that cannot be read; and there is one trace for each actor, in their order,
which is empty for an actor whose script cannot be read. -/
theorem loaded_project_runs {root : Json} {p : Project} (loaded : ofJson root = .ok p)
    (ticks : Nat) (seed : UInt64) :
    p.library.scripts.entries.Perm
      (p.scripts.map fun entry => (entry.name, .ofText entry.name entry.text)) ∧
    p.library.diagnostics.Perm
      (p.scripts.filterMap fun entry => (Script.ofText entry.name entry.text).diagnostic) ∧
    p.library.diagnostics.Pairwise (fun a b => a.scriptName < b.scriptName) ∧
    ∃ traces, p.dryRun ticks seed = .ok traces ∧
      List.Forall₂ (fun actor trace => trace.actor = actor.name ∧ trace.script = actor.script ∧
        actor.script ∈ p.scripts.map (·.name) ∧
        ∀ entry ∈ p.scripts, entry.name = actor.script →
          (Script.ofText entry.name entry.text).isExecutable = false → trace.actions = [])
        p.actors traces := by
  have sound := sound_of_ofJson loaded
  refine ⟨sound.perm_library, sound.perm_diagnostics, sound.diagnostics_ascending, ?_⟩
  have bare : p.Casts [] (.empty seed) := .nil
  obtain ⟨stage, entered, casts⟩ := exists_enterAll sound sound.known bare
  refine ⟨(stage.runFor ticks).actors.map traceOf, by rw [dryRun, entered], ?_⟩
  rw [List.forall₂_map_right_iff]
  refine (casts.runFor ticks).imp fun actor a plays => ?_
  obtain ⟨text, listed, performs⟩ := plays.performs
  have same_script := performs.script_eq
  refine ⟨plays.name, ?_, List.mem_map_of_mem listed, fun entry mem named refused => ?_⟩
  · show a.run.context.script.name = actor.script
    rw [same_script, Script.name_ofText]
  · have same : Script.ofText entry.name entry.text = Script.ofText actor.script text := by
      have found := sound.get?_library mem
      rw [named, sound.get?_library listed] at found
      rw [named]
      exact (Option.some.inj found).symm
    have idle := plays.idle (by rw [same_script, ← same, refused])
    show a.run.body.actions.toList = []
    rw [idle.2]

/-- A guard whose script can be read, and a thief whose script cannot and who does nothing. -/
theorem broken_script_runs_idle :
    let scripts : List Json := [.object [("name", .string "steal"), ("text", .string "grab all")],
      .array [.string "guard", .string "say \"halt\""]]
    let actors : List Json := [.object [("name", .string "Thief"), ("script", .string "steal")],
      .array [.string "Guard", .string "guard", .integer 2]]
    let p : Project := ⟨[⟨"steal", "grab all"⟩, ⟨"guard", "say \"halt\""⟩],
      [⟨"Thief", "steal", 1⟩, ⟨"Guard", "guard", 2⟩]⟩
    ofJson (.object [("scripts", .array scripts), ("actors", .array actors)]) = .ok p ∧
      ∃ guard, p.dryRun 3 42 = .ok [⟨"Thief", "steal", []⟩, guard] := by
  intro scripts actors p
  have loaded : ofJson (.object [("scripts", .array scripts), ("actors", .array actors)]) =
      .ok p := rfl
  have lexed : tokenize "grab all" =
      .ok [⟨.word, "grab", ⟨1, 1, 0⟩⟩, ⟨.word, "all", ⟨1, 6, 5⟩⟩] := by
    rw [tokenize_eq, show "grab all".toList = ['g', 'r', 'a', 'b', ' ', 'a', 'l', 'l'] by simp]
    refine Lexer.tokens_of_read ⟨.word, ['g', 'r', 'a', 'b'], 3⟩ rfl rfl rfl ?_
    refine (Lexer.tokens_blank rfl _).trans ?_
    refine Lexer.tokens_of_read ⟨.word, ['a', 'l', 'l'], 2⟩ rfl rfl rfl ?_
    exact Lexer.tokens_nil ..
  have refused : (Script.ofText "steal" "grab all").isExecutable = false := by
    rw [Script.ofText, Program.ofText, lexed]
    rfl
  obtain ⟨-, -, -, traces, ran, each⟩ := loaded_project_runs loaded 3 42
  obtain ⟨thief, others, ⟨name, script, -, idle⟩, rest, rfl⟩ := List.forall₂_cons_left_iff.1 each
  obtain ⟨guard, none_left, -, last, rfl⟩ := List.forall₂_cons_left_iff.1 rest
  obtain rfl := List.forall₂_nil_left_iff.1 last
  have nothing := idle ⟨"steal", "grab all"⟩ List.mem_cons_self rfl refused
  refine ⟨loaded, guard, ?_⟩
  rw [ran, show thief = ⟨"Thief", "steal", []⟩ from ?_]
  cases thief
  cases name
  cases script
  cases nothing
  rfl

end Project
end ActorScript
