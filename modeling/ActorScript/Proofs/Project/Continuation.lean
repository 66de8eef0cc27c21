import ActorScript.Proofs.Context.Stopping
import ActorScript.Proofs.Project.Rehearsal

/-!
A dry run that goes on for longer. It passes through the state in which a shorter one ends, and
nothing that an actor has on record is changed or taken off it afterwards. So the two have the same
actors in the same order, and what each of them did in the shorter run is how its record in the
longer one begins.
-/
namespace ActorScript

/-- The second actor is the first later on: between two ticks, under the same name, with the same
script, and with a record that begins with what was on it before. -/
structure Actor.Continues (a b : Actor Recorder) : Prop where
  name : b.name = a.name
  performs : b.Performs a.run.context.script
  recorded : a.run.body.actions.toList <+: b.run.body.actions.toList

namespace Run

variable {r s : Run Recorder}

theorem Records.isPrefix (records : Records r s) :
    r.body.actions.toList <+: s.body.actions.toList := by
  obtain ⟨recorded, added, -⟩ := records
  exact ⟨recorded, added.symm⟩

theorem isPrefix_pass (cycle number : Nat) (texts : List String) (r : Run Recorder) :
    r.body.actions.toList <+: (r.pass cycle number texts).body.actions.toList := by
  show r.body.actions.toList <+: (if cycle ∣ number then r.tick else r).body.actions.toList
  split
  · exact (records_tick r).isPrefix
  · exact List.prefix_refl _

end Run

theorem Actor.Continues.pass {a b : Actor Recorder} (h : a.Continues b) (number : Nat)
    (texts : List String) :
    a.Continues { b with run := b.run.pass b.cycle number texts } where
  name := h.name
  performs := h.performs.pass number texts
  recorded := h.recorded.trans (Run.isPrefix_pass b.cycle number texts b.run)

namespace Stage

section Time

variable {β : Type} [Body β]

theorem runFor_add (before later : Nat) (s : Stage β) :
    s.runFor (before + later) = (s.runFor before).runFor later := by
  induction before generalizing s with
  | zero => rw [Nat.zero_add, runFor]
  | succ before ih => rw [Nat.succ_add, runFor, runFor, ih]

end Time

variable {cast : List (Actor Recorder)} {s : Stage Recorder}

theorem continues_tick (h : List.Forall₂ Actor.Continues cast s.actors) :
    List.Forall₂ Actor.Continues cast s.tick.actors := by
  rw [actors_tick_eq_pass]
  exact Project.forall₂_mapIdx_right h fun _ _ _ continues => continues.pass _ _

theorem continues_runFor (ticks : Nat) (h : List.Forall₂ Actor.Continues cast s.actors) :
    List.Forall₂ Actor.Continues cast (s.runFor ticks).actors := by
  induction ticks generalizing s with
  | zero => exact h
  | succ ticks ih => exact ih (continues_tick h)

/-- Actors between two ticks go on from where they are. -/
theorem continues_of_settled (settled : ∀ a ∈ s.actors, a.Settled) :
    List.Forall₂ Actor.Continues s.actors s.actors :=
  List.forall₂_same.2 fun a mem => ⟨rfl, ⟨settled a mem, rfl⟩, List.prefix_refl _⟩

theorem settled_runFor (settled : ∀ a ∈ s.actors, a.Settled) (ticks : Nat) :
    ∀ a ∈ (s.runFor ticks).actors, a.Settled := by
  induction ticks generalizing s with
  | zero => exact settled
  | succ ticks ih => exact ih (settled_tick settled)

end Stage

namespace Library

/-- Every script of the library was read from some text. -/
def Compiled (l : Library) : Prop :=
  ∀ name script, l.get? name = some script → ∃ text, script = .ofText name text

theorem compiled_empty : Compiled .empty := by
  intro name script found
  exact absurd found (by simp [get?, empty])

theorem Compiled.insert {l : Library} (h : l.Compiled) (name text : String) :
    (l.insert name text).Compiled := by
  intro other script found
  rw [get?, Library.insert, Table.get?_insert] at found
  split at found
  · rename_i same
    subst same
    exact ⟨text, (Option.some.inj found).symm⟩
  · exact h other script found

end Library

namespace Project

variable {p : Project} {s t : Stage Recorder}

theorem compiled_library (p : Project) : p.library.Compiled := by
  have added (scripts : List ScriptEntry) {l : Library} (h : l.Compiled) :
      (scripts.foldl (fun l entry => l.insert entry.name entry.text) l).Compiled := by
    induction scripts generalizing l with
    | nil => exact h
    | cons entry scripts ih => exact ih (h.insert entry.name entry.text)
  exact added p.scripts Library.compiled_empty

theorem settled_enterAll {library : Library} (compiled : library.Compiled)
    {entries : List ActorEntry} (entered : enterAll library entries s = .ok t)
    (settled : ∀ a ∈ s.actors, a.Settled) : ∀ a ∈ t.actors, a.Settled := by
  induction entries generalizing s with
  | nil =>
    obtain rfl := Except.ok.inj entered
    exact settled
  | cons entry entries ih =>
    rw [enterAll] at entered
    split at entered
    · cases entered
    · rename_i script found
      obtain ⟨text, rfl⟩ := compiled _ _ found
      refine ih entered fun a mem => ?_
      rcases List.mem_append.1 mem with before | new
      · exact settled a before
      · rw [List.mem_singleton.1 new]
        exact Stage.settled_start ..

/-- How long a dry run goes on has no part in whether it can begin. If it can, it has the same
actors with the same scripts and in the same order however long it is, and what each of them did in
a shorter run is how its actions in a longer one begin. -/
theorem longer_run_begins_with_shorter (p : Project) (seed : UInt64) {short long : Nat}
    (le : short ≤ long) :
    (∃ error, p.dryRun short seed = .error error ∧ p.dryRun long seed = .error error) ∨
    ∃ traces further, p.dryRun short seed = .ok traces ∧ p.dryRun long seed = .ok further ∧
      List.Forall₂ (fun before after => after.actor = before.actor ∧
        after.script = before.script ∧ before.actions <+: after.actions) traces further := by
  cases entered : enterAll p.library p.actors (.empty seed) with
  | error error => exact .inl ⟨error, by rw [dryRun, entered], by rw [dryRun, entered]⟩
  | ok stage =>
    refine .inr ⟨(stage.runFor short).actors.map traceOf, (stage.runFor long).actors.map traceOf,
      by rw [dryRun, entered], by rw [dryRun, entered], ?_⟩
    have settled : ∀ a ∈ stage.actors, a.Settled :=
      settled_enterAll p.compiled_library entered fun a mem => absurd mem List.not_mem_nil
    have later : stage.runFor long = (stage.runFor short).runFor (long - short) := by
      rw [← Stage.runFor_add, Nat.add_sub_cancel' le]
    rw [later, List.forall₂_map_left_iff, List.forall₂_map_right_iff]
    have begun := Stage.continues_of_settled (Stage.settled_runFor settled short)
    refine (Stage.continues_runFor (long - short) begun).imp fun a b continues => ?_
    exact ⟨continues.name, congrArg Script.name continues.performs.script_eq, continues.recorded⟩

/-- A bell that calls a guard, who hears it one tick later and then walks about. -/
theorem guard_goes_on :
    let scripts : List ScriptEntry :=
      [⟨"bell", "say \"ding\"\nsend guard alarm\nsay \"dong\""⟩,
        ⟨"guard", "wait 100\n:alarm\nmove rand 2"⟩]
    let p : Project := ⟨scripts, [⟨"Guard", "guard", 1⟩, ⟨"Bell", "bell", 1⟩]⟩
    p.dryRun 2 42 = .ok [⟨"Guard", "guard", []⟩, ⟨"Bell", "bell", [.said "ding", .said "dong"]⟩] ∧
      2 ≤ 4 ∧ ∃ guard bell, p.dryRun 4 42 = .ok [guard, bell] ∧ guard.actor = "Guard" ∧
        bell.actor = "Bell" ∧ [.said "ding", .said "dong"] <+: bell.actions := by
  intro scripts p
  have short : p.dryRun 2 42 =
      .ok [⟨"Guard", "guard", []⟩, ⟨"Bell", "bell", [.said "ding", .said "dong"]⟩] := by
    decide +kernel
  refine ⟨short, by decide, ?_⟩
  rcases p.longer_run_begins_with_shorter 42 (show 2 ≤ 4 by decide) with
    ⟨error, failed, -⟩ | ⟨traces, further, ran, longer, each⟩
  · rw [short] at failed
    cases failed
  · rw [short] at ran
    obtain rfl := Except.ok.inj ran
    obtain ⟨guard, others, ⟨name, -, -⟩, rest, rfl⟩ := List.forall₂_cons_left_iff.1 each
    obtain ⟨bell, none_left, ⟨name', -, begins⟩, last, rfl⟩ := List.forall₂_cons_left_iff.1 rest
    obtain rfl := List.forall₂_nil_left_iff.1 last
    exact ⟨guard, bell, longer, name, name', begins⟩

end Project
end ActorScript
