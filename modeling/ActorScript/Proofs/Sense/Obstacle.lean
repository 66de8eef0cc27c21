import ActorScript.Proofs.Context.Pushing
import ActorScript.Proofs.Context.Touch

/-!
Asking whether the way is blocked and trying to go it are two ways through the program, which share
only the heading. On a recorder they agree: the answer foretells the step, for the same draws. So a
condition speaks for the step that it guards wherever its heading draws nothing.
-/
namespace ActorScript

namespace Recorder

variable {b : Recorder} {d : Direction}

theorem moves_of_refused (refused : b.isBlocked d = true) : (Body.step d b).2.moves = b.moves := by
  rw [step_eq, if_pos refused]
  simp [moves, record]

theorem moves_of_made (made : b.isBlocked d = false) :
    (Body.step d b).2.moves = b.moves ++ [d] := by
  rw [step_eq, if_neg (by simp [made])]
  simp [moves, record]

/-- The answer that the way is blocked, or that it is not, is borne out by what the body then does:
it makes one more move on record, unless the way is blocked. -/
def Foretells (blocked : Bool) (b b' : Recorder) : Prop :=
  (blocked = true ↔ b'.moves = b.moves) ∧ (blocked = false ↔ ∃ d, b'.moves = b.moves ++ [d])

theorem foretells_of_same : Foretells true b b := by
  refine ⟨iff_of_true rfl rfl, iff_of_false (by decide) ?_⟩
  rintro ⟨d, moved⟩
  simp at moved

theorem foretells_step (d : Direction) (b : Recorder) :
    Foretells (b.isBlocked d) b (Body.step d b).2 := by
  unfold Foretells
  cases way : b.isBlocked d with
  | true =>
    rw [moves_of_refused way]
    exact foretells_of_same
  | false =>
    rw [moves_of_made way]
    exact ⟨iff_of_false (by decide) (by simp), iff_of_true rfl ⟨d, rfl⟩⟩

end Recorder

/-- What the question comes to for a direction, or for none. -/
def Body.isBarred {β : Type} [Body β] (b : β) : Option Direction → Bool
  | none => true
  | some d => isBlocked b d

theorem Condition.holds_blocked {β : Type} [Body β] {b : β} {heading : Heading}
    {direction : Option Direction} {g g' : Generator}
    (resolved : (heading.resolve b).run g = (direction, g')) :
    ((Condition.blocked heading).holds b).run g = (Body.isBarred b direction, g') := by
  unfold holds
  rw [StateT.run_bind, resolved]
  cases direction with
  | none => rfl
  | some d => rfl

namespace Run

open Context Recorder

section Asking

variable {β : Type} [Body β] {heading : Heading}

theorem draw_blocked (heading : Heading) (r : Run β) :
    r.context.draw ((Condition.blocked heading).holds r.body) =
      (Body.isBarred r.body (r.resolve heading).1, (r.resolve heading).2.context) := by
  cases resolved : (heading.resolve r.body).run r.context.generator with
  | mk direction g =>
    unfold Context.draw resolve Context.draw
    rw [Condition.holds_blocked resolved, resolved]

theorem jumpIf_asks (key : Nat) (condition : Condition) (label : String) (r : Run β) :
    let asked := r.context.draw (condition.holds r.body)
    let guarded := r.execute key (.jumpIf condition label)
    guarded.2.body = r.body ∧ guarded.2.context.generator = asked.2.generator ∧
      (guarded.1 = .jumped ↔ asked.1 = true ∧ r.context.jump? label ≠ none) := by
  intro asked guarded
  have reachable : asked.2.jump? label = none ↔ r.context.jump? label = none := by
    rw [jump?_eq_none, jump?_eq_none]
    rfl
  have executed : guarded = if asked.1 then
      Run.jumpOr (some label) .proceed ⟨asked.2, r.body⟩ else (.proceed, ⟨asked.2, r.body⟩) := rfl
  rw [executed]
  cases asked.1 with
  | false =>
    refine ⟨rfl, rfl, iff_of_false ?_ ?_⟩
    · intro jumped
      cases jumped
    · rintro ⟨holds, -⟩
      cases holds
  | true =>
    rw [if_pos rfl]
    refine ⟨body_jumpOr .., generator_jumpOr .., ?_⟩
    rw [Ne, ← reachable]
    unfold jumpOr
    rw [Option.bind_some]
    cases asked.2.jump? label with
    | none => simp
    | some target => simp

/-- A try makes one step where its heading leads, and whatever it does about a failure leaves the
body and the generator as that step did. -/
theorem attempt_tries (key : Nat) (heading : Heading) (otherwise : Option String) (r : Run β) :
    let tried := ((r.resolve heading).2.step (r.resolve heading).1).2
    (r.execute key (.attempt heading otherwise)).2.body = tried.body ∧
      (r.execute key (.attempt heading otherwise)).2.context.generator =
        tried.context.generator := by
  simp only [execute]
  split
  · exact ⟨rfl, rfl⟩
  · exact ⟨body_jumpOr .., generator_jumpOr ..⟩

/-- The command is a try along the heading, or a move along it that has steps left and does not
push another way. -/
def TriesAlong (heading : Heading) (key : Nat) (command : Command) (c : Context) : Prop :=
  match command with
  | .attempt along _ => along = heading
  | .move along count _ =>
    along = heading ∧ c.heap.stuck? key = none ∧ 0 < (c.remaining key count).toInt
  | _ => False

theorem execute_tries {key : Nat} {command : Command} {r : Run β}
    (tries : TriesAlong heading key command r.context) :
    let tried := ((r.resolve heading).2.step (r.resolve heading).1).2
    (r.execute key command).2.body = tried.body ∧
      (r.execute key command).2.context.generator = tried.context.generator := by
  cases command with
  | attempt along otherwise =>
    obtain rfl : along = heading := tries
    exact attempt_tries key along otherwise r
  | move along count forceful =>
    obtain ⟨rfl, free, some_left⟩ := tries
    rw [← aim_of_free along free]
    exact move_tries some_left
  | _ => exact tries.elim

end Asking

theorem foretells_direction (direction : Option Direction) (r : Run Recorder) :
    Foretells (Body.isBarred r.body direction) r.body (r.step direction).2.body := by
  cases direction with
  | none => exact foretells_of_same
  | some d => exact foretells_step d r.body

theorem foretells_execute {r s : Run Recorder} {heading : Heading} {key : Nat} {command : Command}
    (same_body : s.body = r.body) (same_draws : s.context.generator = r.context.generator)
    (tries : TriesAlong heading key command s.context) :
    Foretells (Body.isBarred r.body (r.resolve heading).1) s.body
      (s.execute key command).2.body := by
  have resolved : (s.resolve heading).1 = (r.resolve heading).1 := by
    unfold resolve Context.draw
    rw [same_body, same_draws]
  obtain ⟨body_after, -⟩ := execute_tries tries
  rw [body_after, resolved, ← same_body]
  exact foretells_direction (r.resolve heading).1 (s.resolve heading).2

/-- Whether the way along a heading is blocked is the very question whether a try along it fails,
asked of the same body with the same draws: the answer is that it is blocked if and only if the try
makes no move, and else it makes one; both leave the same generator. Where the heading draws
nothing, an `IF` that asks this jumps on the answer that it is blocked, if its label leads
somewhere, and wherever it goes on, a try or a move along the heading that is up there does what the
answer says. -/
theorem blocked_foretells_the_step (r : Run Recorder) (heading : Heading) :
    let asked := r.context.draw ((Condition.blocked heading).holds r.body)
    (∀ key otherwise,
      let tried := (r.execute key (.attempt heading otherwise)).2
      Foretells asked.1 r.body tried.body ∧
        tried.context.generator = asked.2.generator) ∧
    (asked.2.generator = r.context.generator →
      ∀ key label event s, r.upNext? = some (key, .jumpIf (.blocked heading) label) →
        r.next? = some (event, s) →
        (event.outcome = .jumped ↔ asked.1 = true ∧ r.context.jump? label ≠ none) ∧
        ∀ next command, s.upNext? = some (next, command) →
          TriesAlong heading next command s.context →
          Foretells asked.1 s.body (s.execute next command).2.body) := by
  intro asked
  have answer : asked =
      (Body.isBarred r.body (r.resolve heading).1, (r.resolve heading).2.context) :=
    draw_blocked heading r
  constructor
  · intro key otherwise tried
    obtain ⟨-, generator_after⟩ := attempt_tries key heading otherwise r
    have along : TriesAlong heading key (.attempt heading otherwise) r.context := rfl
    rw [answer]
    refine ⟨foretells_execute rfl rfl along, ?_⟩
    rw [generator_after, context_step]
  · intro draws_nothing key label event s up ran
    obtain ⟨key, command, up_again, rfl, rfl⟩ := next?_eq_some.1 ran
    obtain ⟨rfl, rfl⟩ := Prod.mk.inj (Option.some.inj (up_again.symm.trans up))
    obtain ⟨same_body, same_draws, jumps⟩ := jumpIf_asks key (.blocked heading) label r
    refine ⟨jumps, fun next command up_next tries => ?_⟩
    rw [answer]
    apply foretells_execute ?_ ?_ tries
    · rw [body_settle, same_body]
    · rw [context_settle, generator_settle, same_draws]
      exact draws_nothing

/-- A crab that would go away from the player, who stands to its north, has a wall behind it. Its
script asks about that first, jumps to the label `wall`, and makes no move with the try there. -/
theorem crab_stays_put :
    let text := "if blocked opp seek then wall\nmove s\n:wall\ntry opp seek"
    let crab : Recorder :=
      { Recorder.named "crab" with player := some .north, blocked := [.south] }
    let r : Run Recorder := ⟨.start (.ofText "crab" text) (.seeded 42), crab⟩
    let away : Heading := ⟨.seek, [.opposite]⟩
    let asked := r.context.draw ((Condition.blocked away).holds r.body)
    asked.1 = true ∧ asked.2.generator = r.context.generator ∧
      r.upNext? = some (0, .jumpIf (.blocked away) "wall") ∧
      ∃ s, r.next? = some (⟨0, .jumped⟩, s) ∧ s.upNext? = some (2, .attempt away none) ∧
        (s.execute 2 (.attempt away none)).2.body.moves = s.body.moves := by
  intro text crab r away asked
  have barred : asked.1 = true := by decide +kernel
  have draws_nothing : asked.2.generator = r.context.generator := rfl
  have up : r.upNext? = some (0, .jumpIf (.blocked away) "wall") := by decide +kernel
  have jumps : (r.execute 0 (.jumpIf (.blocked away) "wall")).1 = .jumped := by decide +kernel
  have ran : r.next? = some (⟨0, .jumped⟩,
      (r.execute 0 (.jumpIf (.blocked away) "wall")).2.settle 0 .jumped) :=
    next?_eq_some.2 ⟨0, _, up, by rw [jumps], by rw [jumps]⟩
  have up_next : ((r.execute 0 (.jumpIf (.blocked away) "wall")).2.settle 0 .jumped).upNext? =
      some (2, .attempt away none) := by decide +kernel
  obtain ⟨-, guarded⟩ := blocked_foretells_the_step r away
  obtain ⟨-, foretold⟩ := guarded draws_nothing 0 "wall" _ _ up ran
  have refused := (foretold 2 _ up_next rfl).1.1 barred
  exact ⟨barred, draws_nothing, up, _, ran, up_next, refused⟩

end Run
end ActorScript
