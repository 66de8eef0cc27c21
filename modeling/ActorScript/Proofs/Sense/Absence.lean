import ActorScript.Proofs.Context.Holding
import ActorScript.Proofs.Context.Passage
import ActorScript.Proofs.Sense.Obstacle
import ActorScript.Proofs.Sense.Turning

/-!
Where there is no player. A heading that seeks the player then leads nowhere, and what a script does
along it leaves the body alone, in whole runs as in single commands. Of the conditions about the
player, alignment is the one that does not ask whether there is any.
-/
namespace ActorScript

open Relation

/-- The heading aims at the player, however it turns from there. -/
def Heading.SeeksPlayer (heading : Heading) : Prop := heading.aim = .seek ∨ heading.aim = .smart

def Command.along? : Command → Option Heading
  | .move heading _ _ => some heading
  | .attempt heading _ => some heading
  | .put heading _ => some heading
  | .shoot heading => some heading
  | .throwStar heading => some heading
  | _ => none

section Absent

variable {β : Type} [Body β] {b : β} {heading : Heading}

theorem Heading.resolve_of_absent (absent : Body.towardPlayer b = none)
    (seeks : heading.SeeksPlayer) (g : Generator) : (heading.resolve b).run g = (none, g) := by
  obtain ⟨aim, turns⟩ := heading
  apply resolve_of_lost
  rcases seeks with rfl | rfl
  · unfold Aim.resolve
    rw [absent]
    rfl
  · unfold Aim.resolve
    rw [absent]
    rfl

namespace Run

variable {r : Run β} {key : Nat} {command : Command} {count : Numeral} {forceful : Bool}

theorem resolve_of_absent (absent : Body.towardPlayer r.body = none)
    (seeks : heading.SeeksPlayer) : r.resolve heading = (none, r) := by
  unfold resolve Context.draw
  rw [heading.resolve_of_absent absent seeks]

theorem move_of_absent (absent : Body.towardPlayer r.body = none) (seeks : heading.SeeksPlayer)
    (free : r.context.heap.stuck? key = none) :
    (r.move key heading count forceful).2.body = r.body ∧
      (r.move key heading count forceful).2.context.generator = r.context.generator ∧
      (r.move key heading count forceful).2.context.heap.stuck? key = none := by
  have aimed : r.aim key heading = (none, r) := by
    rw [aim_of_free heading free, resolve_of_absent absent seeks]
  rcases Int.lt_or_le 0 (r.context.remaining key count).toInt with some_left | none_left
  · have tries := @move_tries β r key _ heading count forceful some_left
    rw [aimed] at tries
    refine ⟨tries.1, tries.2, ?_⟩
    cases forceful with
    | true =>
      rw [move_of_some_left some_left, aimed, stuck?_stride]
      exact free
    | false => exact effect_move.free (fun _ => rfl) free
  · rw [move_of_none_left none_left]
    exact ⟨rfl, rfl, free⟩

theorem act_of_absent (absent : Body.towardPlayer r.body = none) (seeks : heading.SeeksPlayer)
    (f : Direction → β → β) : r.act heading f = r := by
  unfold act
  rw [resolve_of_absent absent seeks]

theorem execute_of_absent (absent : Body.towardPlayer r.body = none) (seeks : heading.SeeksPlayer)
    (along : command.along? = some heading)
    (free : ∀ count forceful, command = .move heading count forceful →
      r.context.heap.stuck? key = none) :
    (r.execute key command).2.body = r.body ∧
      (r.execute key command).2.context.generator = r.context.generator := by
  have acts (f : Direction → β → β) : (r.act heading f).body = r.body ∧
      (r.act heading f).context.generator = r.context.generator := by
    rw [act_of_absent absent seeks f]
    exact ⟨rfl, rfl⟩
  cases command with
  | move aimed count forceful =>
    obtain rfl : aimed = heading := Option.some.inj along
    obtain ⟨same_body, same_draws, -⟩ := move_of_absent absent seeks (free count forceful rfl)
    exact ⟨same_body, same_draws⟩
  | attempt aimed otherwise =>
    obtain rfl : aimed = heading := Option.some.inj along
    have idle : r.execute key (.attempt aimed otherwise) = r.jumpOr otherwise .endTick := by
      simp only [execute, resolve_of_absent absent seeks]
      rfl
    rw [idle]
    exact ⟨body_jumpOr .., generator_jumpOr ..⟩
  | put aimed tile =>
    obtain rfl : aimed = heading := Option.some.inj along
    exact acts fun d b => (Body.put d tile b).2
  | shoot aimed =>
    obtain rfl : aimed = heading := Option.some.inj along
    exact acts Body.shoot
  | throwStar aimed =>
    obtain rfl : aimed = heading := Option.some.inj along
    exact acts Body.throwStar
  | _ => cases along

/-- No move that seeks the player pushes on in a direction that it came to before. -/
def SeeksAnew (c : Context) : Prop :=
  ∀ key heading count forceful, c.script.commands[key]? = some (.move heading count forceful) →
    heading.SeeksPlayer → c.heap.stuck? key = none

omit [Body β] in
theorem SeeksAnew.loosened {c d : Context} (anew : SeeksAnew c) (same : d.script = c.script)
    (loosened : c.heap.Loosens d.heap) : SeeksAnew d := by
  intro key heading count forceful there seeks
  rw [same] at there
  exact loosened key (anew key heading count forceful there seeks)

theorem seeksAnew_next {s : Run β} {event : Event} (h : r.context.Coherent)
    (absent : Body.towardPlayer r.body = none) (anew : SeeksAnew r.context)
    (ran : r.next? = some (event, s)) : SeeksAnew s.context := by
  obtain ⟨key, command, up, -, rfl⟩ := next?_eq_some.1 ran
  obtain ⟨-, at_key⟩ := upNext?_eq_some h up
  have effect := effect_of_up h up
  have executed : SeeksAnew (r.execute key command).2.context := by
    intro other heading count forceful there seeks
    rw [effect.script_eq] at there
    have free := anew other heading count forceful there seeks
    by_cases same : other = key
    · subst same
      obtain rfl := Option.some.inj (at_key.symm.trans there)
      exact (move_of_absent absent seeks free).2.2
    · exact effect.free (fun own => absurd own same) free
  rw [context_settle]
  exact executed.loosened (Context.script_settle ..) (Context.loosens_settle _ _ _)

end Run
end Absent

namespace Run

open Recorder

variable {command : Command} {b b' : Recorder} {begun r : Run Recorder}

/-- What the host may tell a recorder between two commands: anything, if no player is found. -/
def FindsNoPlayer (_ b' : Recorder) : Prop := b'.player = none

theorem player_of_touches (touched : Touches command b b') : b'.player = b.player := by
  cases touched with
  | step d =>
    rw [step_eq]
    rfl
  | put d tile =>
    rw [put_eq]
    split <;> rfl
  | _ => rfl

theorem player_of_passes (absent : begun.body.player = none)
    (passed : ReflTransGen (Passage FindsNoPlayer) begun r) : r.body.player = none := by
  apply body_of_passes (motive := fun b => b.player = none) ?_ ?_ passed absent
  · intro command b b' kept touched
    rw [player_of_touches touched, kept]
  · intro b b' kept tells
    exact tells

theorem seeksAnew_of_passes (h : begun.context.Coherent) (absent : begun.body.player = none)
    (anew : SeeksAnew begun.context)
    (passed : ReflTransGen (Passage FindsNoPlayer) begun r) : SeeksAnew r.context := by
  induction passed with
  | refl => exact anew
  | @tail r s so_far passage ih =>
    have coherent := (coherent_of_passes h so_far).1
    have still_absent := player_of_passes absent so_far
    have same : s.context.script = r.context.script :=
      (coherent_of_passes coherent (.single passage)).2
    cases passage with
    | message => exact ih.loosened same (Context.loosens_takeMessage _)
    | command ran => exact seeksAnew_next coherent still_absent ih ran
    | host b handled => exact ih.loosened same handled.loosens
    | call c b call => exact ih.loosened same (Context.loosens_perform call c)
    | told c tells => exact ih

end Run

theorem Condition.holds_aligned {b : Recorder} {heading : Heading} {direction : Option Direction}
    {g g' : Generator} (resolved : (heading.resolve b).run g = (direction, g')) :
    ((Condition.aligned (some heading)).holds b).run g =
      (direction.any fun d => b.aligned == some d.axis, g') := by
  unfold holds
  rw [StateT.run_bind, resolved]
  cases direction with
  | none => rfl
  | some d => rfl

theorem Condition.holds_aligned_iff (heading : Heading) (b : Recorder) (g : Generator) :
    (((Condition.aligned (some heading)).holds b).run g).1 = true ↔
      ∃ d, ((heading.resolve b).run g).1 = some d ∧ b.aligned = some d.axis := by
  cases resolved : (heading.resolve b).run g with
  | mk direction g' =>
    rw [holds_aligned resolved]
    cases direction with
    | none => simp
    | some d => simp

namespace Recorder

variable {b : Recorder} {heading : Heading}

/-- In a run from the start without a player, what is up along a heading that seeks one does
nothing. -/
theorem next_of_absent {name text : String} {seed : UInt64} {r : Run Recorder} {key : Nat}
    {command : Command} (absent : b.player = none) (seeks : heading.SeeksPlayer)
    (along : command.along? = some heading)
    (passed : ReflTransGen (Run.Passage Run.FindsNoPlayer)
      ⟨.start (.ofText name text) (.seeded seed), b⟩ r)
    (up : r.upNext? = some (key, command)) :
    ∃ event s, r.next? = some (event, s) ∧ s.body = r.body ∧
      s.context.generator = r.context.generator := by
  have begun : (Context.start (.ofText name text) (.seeded seed)).Coherent :=
    Context.coherent_start (Script.labelsWithin_ofText name text) (.seeded seed)
  have coherent := (Run.coherent_of_passes begun passed).1
  have anew : Run.SeeksAnew r.context :=
    Run.seeksAnew_of_passes begun absent (fun _ _ _ _ _ _ => rfl) passed
  obtain ⟨-, at_key⟩ := Run.upNext?_eq_some coherent up
  refine ⟨_, _, Run.next?_eq_some.2 ⟨key, command, up, rfl, rfl⟩, ?_⟩
  rw [Run.body_settle, Run.context_settle, Context.generator_settle]
  apply Run.execute_of_absent (Run.player_of_passes absent passed) seeks along
  rintro count forceful rfl
  exact anew key heading count forceful at_key seeks

/-- Without a player nothing is adjacent or seen, and a heading that seeks the player leads nowhere,
with no draw: it counts as blocked and as aligned with nothing, and a try, a shot, a star or a tile
along it leaves the body as it was. So does a move that does not push already, and in a run in which
no player is ever found, none along such a heading comes to push. But alignment is what the recorder
was told, player or not, and holds along a heading that comes to its axis. -/
theorem absence_shows_except_in_alignment (b : Recorder) (absent : b.player = none) :
    (∀ g : Generator,
      (Condition.adjacent.holds b).run g = (false, g) ∧
      (∀ radius, ((Condition.peep radius).holds b).run g = (false, g)) ∧
      ((Condition.aligned none).holds b).run g = (b.aligned.isSome, g) ∧
      ∀ heading : Heading,
        ((((Condition.aligned (some heading)).holds b).run g).1 = true ↔
          ∃ d, ((heading.resolve b).run g).1 = some d ∧ b.aligned = some d.axis) ∧
        (heading.SeeksPlayer →
          (heading.resolve b).run g = (none, g) ∧
          ((Condition.blocked heading).holds b).run g = (true, g) ∧
          ((Condition.aligned (some heading)).holds b).run g = (false, g))) ∧
    ∀ heading : Heading, heading.SeeksPlayer → ∀ key command, command.along? = some heading →
      (∀ c, (∀ count forceful, command = .move heading count forceful →
          c.heap.stuck? key = none) →
        let done := (Run.execute key command ⟨c, b⟩).2
        done.body = b ∧ done.context.generator = c.generator) ∧
      ∀ name text seed r,
        ReflTransGen (Run.Passage Run.FindsNoPlayer)
          ⟨.start (.ofText name text) (.seeded seed), b⟩ r →
        r.upNext? = some (key, command) →
        ∃ event s, r.next? = some (event, s) ∧ s.body = r.body ∧
          s.context.generator = r.context.generator := by
  constructor
  · intro g
    have nowhere {heading : Heading} (seeks : heading.SeeksPlayer) :
        (heading.resolve b).run g = (none, g) := heading.resolve_of_absent absent seeks g
    refine ⟨?_, fun radius => ?_, rfl, fun heading => ⟨Condition.holds_aligned_iff heading b g, ?_⟩⟩
    · show (b.player.isSome && b.adjacent, g) = (false, g)
      rw [absent]
      rfl
    · show (b.player.isSome && decide (b.playerDistance ≤ radius.toInt64), g) = (false, g)
      rw [absent]
      rfl
    · intro seeks
      exact ⟨nowhere seeks, Condition.holds_blocked (nowhere seeks),
        Condition.holds_aligned (nowhere seeks)⟩
  · intro heading seeks key command along
    constructor
    · intro c free
      exact Run.execute_of_absent absent seeks along free
    · intro name text seed r passed up
      exact next_of_absent absent seeks along passed up

/-- A hermit who would push past the player, and whom nobody visits. He neither gets away from
where he is nor comes to push, though his script goes on. -/
theorem hermit_bides :
    let text := "move cw seek 2 force"
    let hermit : Recorder := { Recorder.named "hermit" with adjacent := true }
    let begun : Run Recorder := ⟨.start (.ofText "hermit" text) (.seeded 42), hermit⟩
    let r := begun.tick.onContext Run.takeMessage
    let past : Heading := ⟨.seek, [.clockwise]⟩
    hermit.player = none ∧
      (Condition.adjacent.holds hermit).run (.seeded 42) = (false, .seeded 42) ∧ past.SeeksPlayer ∧
      ReflTransGen (Run.Passage Run.FindsNoPlayer) begun r ∧
      r.upNext? = some (0, .move past ⟨2, by decide⟩ true) ∧
      ∃ event s, r.next? = some (event, s) ∧ s.body = r.body ∧
        s.context.generator = r.context.generator := by
  intro text hermit begun r past
  have absent : hermit.player = none := rfl
  have seeks : past.SeeksPlayer := .inl rfl
  have passed : ReflTransGen (Run.Passage Run.FindsNoPlayer) begun r :=
    (Run.passes_tick begun).tail (.message begun.tick)
  have up : r.upNext? = some (0, .move past ⟨2, by decide⟩ true) := by decide +kernel
  obtain ⟨conditions, commands⟩ := absence_shows_except_in_alignment hermit absent
  obtain ⟨-, idle⟩ := commands past seeks 0 (.move past ⟨2, by decide⟩ true) rfl
  exact ⟨absent, (conditions (.seeded 42)).1, seeks, passed, up,
    idle "hermit" text 42 r passed up⟩

/-- A hermit has no player around, and yet stands in line with one. -/
theorem hermit_is_aligned :
    let hermit : Recorder := { Recorder.named "hermit" with aligned := some .vertical }
    hermit.player = none ∧
      ((Condition.aligned none).holds hermit).run (.seeded 3) = (true, .seeded 3) ∧
      ((Condition.aligned (some ⟨.fixed .north, []⟩)).holds hermit).run (.seeded 3) =
        (true, .seeded 3) := by
  intro hermit
  exact ⟨rfl, rfl, rfl⟩

end Recorder
end ActorScript
