import ActorScript.Library
import ActorScript.Project.DryRun
import ActorScript.Proofs.Match.Derivation
import ActorScript.Proofs.Table.Total

/-!
What a project that loads can be relied on for: no two of its scripts share a name, and its actors
name only scripts that it has. Its library then holds one script for each of its entries, whatever
of them can be read.
-/
namespace ActorScript

theorem Script.name_ofText (name text : String) : (ofText name text).name = name := by
  rw [ofText]
  split <;> rfl

theorem Script.scriptName_of_diagnostic {name text : String} {d : Diagnostic}
    (found : (ofText name text).diagnostic = some d) : d.scriptName = name := by
  rw [ofText] at found
  split at found
  · simp at found
  · obtain rfl := Option.some.inj found
    rfl

namespace Library

variable {l : Library} {scripts : List ScriptEntry}

def shelve (entry : ScriptEntry) : String × Script :=
  (entry.name, .ofText entry.name entry.text)

theorem perm_foldl_insert (distinct : (scripts.map (·.name)).Nodup)
    (fresh : ∀ entry ∈ scripts, entry.name ∉ l.scripts.names) :
    (scripts.foldl (fun l entry => l.insert entry.name entry.text) l).scripts.entries.Perm
      (scripts.map shelve ++ l.scripts.entries) := by
  induction scripts generalizing l with
  | nil => exact .refl _
  | cons entry scripts ih =>
    obtain ⟨first, others⟩ := List.nodup_cons.1 distinct
    obtain ⟨new, still_new⟩ := List.forall_mem_cons.1 fresh
    have others_stay : without entry.name l.scripts.entries = l.scripts.entries := by
      apply without_eq_self
      intro e mem same
      exact new (same ▸ List.mem_map_of_mem mem)
    have added : (l.insert entry.name entry.text).scripts.entries.Perm
        (shelve entry :: l.scripts.entries) := by
      have placed : (l.insert entry.name entry.text).scripts.entries.Perm
          (shelve entry :: without entry.name l.scripts.entries) :=
        perm_insertEntry l.scripts.ascending
      rwa [others_stay] at placed
    refine (ih others fun other mem taken => ?_).trans ?_
    · have names : other.name ∈ (shelve entry :: l.scripts.entries).map (·.1) :=
        (added.map _).mem_iff.1 taken
      rcases List.mem_cons.1 names with same | before
      · exact first (same ▸ List.mem_map_of_mem mem)
      · exact still_new other mem before
    · exact (added.append_left _).trans List.perm_middle

end Library

namespace Project

/-- No two scripts share a name, and each actor runs one of the scripts, in some ticks. -/
structure Sound (p : Project) : Prop where
  distinct : (p.scripts.map (·.name)).Nodup
  known : ∀ actor ∈ p.actors, actor.script ∈ p.scripts.map (·.name)
  cycle_ne_zero : ∀ actor ∈ p.actors, actor.cycle ≠ 0

theorem distinct_of_readScripts {index : Nat} {names : List String} {items : List Json}
    {scripts : List ScriptEntry} (read : readScripts index names items = .ok scripts) :
    (scripts.map (·.name)).Nodup ∧ ∀ entry ∈ scripts, entry.name ∉ names := by
  induction items generalizing index names scripts with
  | nil =>
    obtain rfl := Except.ok.inj read
    simp
  | cons item items ih =>
    rw [readScripts] at read
    cases first : readScript item with
    | none => simp [first] at read
    | some entry =>
      simp only [first] at read
      by_cases used : entry.name ∈ names
      · simp [used] at read
      · rw [if_neg used] at read
        cases later : readScripts (index + 1) (entry.name :: names) items with
        | error error => simp [later, bind, Except.bind] at read
        | ok others =>
          simp only [later] at read
          obtain rfl := Except.ok.inj read
          obtain ⟨distinct, new⟩ := ih later
          have apart : ∀ other ∈ others, other.name ≠ entry.name ∧ other.name ∉ names := by
            intro other mem
            simpa using new other mem
          refine ⟨List.nodup_cons.2 ⟨?_, distinct⟩, List.forall_mem_cons.2 ⟨used, ?_⟩⟩
          · intro again
            obtain ⟨other, mem, same⟩ := List.mem_map.1 again
            exact (apart other mem).1 same
          · intro other mem
            exact (apart other mem).2

theorem checked_actors {index : Nat} {names : List String} {actors : List ActorEntry}
    (checked : checkActors index names actors = .ok ()) :
    ∀ actor ∈ actors, actor.script ∈ names ∧ actor.cycle ≠ 0 := by
  induction actors generalizing index with
  | nil => simp
  | cons actor actors ih =>
    rw [checkActors] at checked
    by_cases known : actor.script ∈ names
    · by_cases idle : actor.cycle = 0
      · simp [known, idle] at checked
      · rw [if_neg (not_not_intro known), if_neg idle] at checked
        exact List.forall_mem_cons.2 ⟨⟨known, idle⟩, ih checked⟩
    · simp [known] at checked

/-- Whatever a project is loaded from, its parts were checked against one another. -/
theorem sound_of_ofJson {root : Json} {p : Project} (loaded : ofJson root = .ok p) : p.Sound := by
  rw [ofJson] at loaded
  cases listed : (root.field? "scripts").bind Json.array? with
  | none => simp [listed, throw, throwThe, MonadExceptOf.throw] at loaded
  | some items =>
    simp only [listed] at loaded
    obtain ⟨scripts, read, loaded⟩ := bind_eq_ok.1 loaded
    -- Where actors are listed, where none are, and where `null` stands for none, one check follows.
    have checked : ∃ actors, (do
        checkActors 0 (scripts.map ScriptEntry.name) actors
        return (⟨scripts, actors⟩ : Project)) = .ok p := by
      split at loaded
      · exact ⟨[], loaded⟩
      · exact ⟨[], loaded⟩
      · split at loaded
        · simp [throw, throwThe, MonadExceptOf.throw, bind, Except.bind] at loaded
        · exact ⟨_, loaded⟩
    obtain ⟨actors, checked⟩ := checked
    obtain ⟨_, known, made⟩ := bind_eq_ok.1 checked
    obtain rfl := Except.ok.inj made
    obtain ⟨distinct, -⟩ := distinct_of_readScripts read
    have each := checked_actors known
    exact ⟨distinct, fun actor mem => (each actor mem).1, fun actor mem => (each actor mem).2⟩

namespace Sound

variable {p : Project}

theorem perm_library (h : p.Sound) :
    p.library.scripts.entries.Perm (p.scripts.map Library.shelve) := by
  have added := Library.perm_foldl_insert (l := .empty) h.distinct
    (fun _ _ taken => absurd taken List.not_mem_nil)
  rwa [show Library.empty.scripts.entries = [] from rfl, List.append_nil] at added

theorem get?_library (h : p.Sound) {entry : ScriptEntry} (mem : entry ∈ p.scripts) :
    p.library.get? entry.name = some (.ofText entry.name entry.text) := by
  apply lookup_of_mem p.library.scripts.ascending
  exact h.perm_library.mem_iff.2 (List.mem_map_of_mem mem)

theorem perm_diagnostics (h : p.Sound) : p.library.diagnostics.Perm
    (p.scripts.filterMap fun entry => (Script.ofText entry.name entry.text).diagnostic) := by
  have same := h.perm_library.filterMap fun entry => entry.2.diagnostic
  rw [List.filterMap_map] at same
  rw [Library.diagnostics, Table.values, List.filterMap_map]
  exact same

theorem diagnostics_ascending (h : p.Sound) :
    p.library.diagnostics.Pairwise fun a b => a.scriptName < b.scriptName := by
  have named : ∀ entry ∈ p.library.scripts.entries, ∀ d,
      entry.2.diagnostic = some d → d.scriptName = entry.1 := by
    intro entry mem d found
    obtain ⟨listed, -, rfl⟩ := List.mem_map.1 (h.perm_library.mem_iff.1 mem)
    exact Script.scriptName_of_diagnostic found
  rw [Library.diagnostics, Table.values, List.filterMap_map, List.pairwise_filterMap]
  refine p.library.scripts.ascending.imp_of_mem fun mem mem' before d found d' found' => ?_
  rw [named _ mem d found, named _ mem' d' found']
  exact before

end Sound

end Project
end ActorScript
