import ActorScript.Proofs.Context.Spell

/-!
A forceful move pushes. Where it is refused a step it holds on to the direction, and tries that one
again until the step is made; only then does it look at its heading again. How far it has come is
told here by what the body answered, and not by what the heap holds.
-/
namespace ActorScript

/-- What the answers to a forceful move have come to: how many steps were made, and the direction of
the last try if that was refused. -/
structure Effort where
  made : Nat
  held : Option Direction
  deriving DecidableEq, Repr

namespace Effort

variable {β : Type} [Body β]

def start : Effort := ⟨0, none⟩

/-- The direction of the next try: the one held on to, or what the heading comes to now. -/
def direction? (heading : Heading) (e : Effort) (r : Run β) : Option Direction :=
  match e.held with
  | some d => some d
  | none => (r.resolve heading).1

/-- The effort after one more tick. Without a direction there is no try. -/
def next (heading : Heading) (e : Effort) (r : Run β) : Effort :=
  match e.direction? heading r with
  | none => e
  | some d => if (Body.step d r.body).1 then ⟨e.made + 1, none⟩ else ⟨e.made, some d⟩

end Effort

namespace Run

open Context

variable {β : Type} [Body β] {begun r s t : Run β} {key : Nat} {heading : Heading} {count : Numeral}
  {earlier : List (Turn β)} {turn last : Turn β} {e : Effort}

/-- The effort of a forceful move over its turns. -/
def effort (heading : Heading) (turns : List (Turn β)) : Effort :=
  turns.foldl (fun e turn => e.next heading turn.before) .start

theorem effort_append (turns : List (Turn β)) (turn : Turn β) :
    effort heading (turns ++ [turn]) = (effort heading turns).next heading turn.before := by
  rw [effort, List.foldl_append]
  rfl

theorem Effort.next_eq : e.next heading r =
    if (r.step (e.direction? heading r)).1 then ⟨e.made + 1, none⟩
    else ⟨e.made, (e.direction? heading r).or e.held⟩ := by
  unfold Effort.next
  cases e.direction? heading r with
  | none => rfl
  | some d => rfl

theorem aim_of_held (heading : Heading) (held : r.context.heap.stuck? key = e.held) :
    (r.aim key heading).1 = e.direction? heading r ∧ (r.aim key heading).2.body = r.body ∧
      (r.aim key heading).2.context.heap = r.context.heap := by
  unfold aim Effort.direction?
  rw [held]
  cases e.held with
  | none => exact ⟨rfl, rfl, rfl⟩
  | some d => exact ⟨rfl, rfl, rfl⟩

theorem Effort.made_next_le : (e.next heading r).made ≤ e.made + 1 := by
  rw [Effort.next_eq]
  split
  · exact Nat.le_refl _
  · exact Nat.le_succ _

theorem aim_of_stuck {d : Direction} (stuck : r.context.heap.stuck? key = some d) :
    r.aim key heading = (some d, r) := by
  unfold aim
  rw [stuck]

theorem step_of_body (same : s.body = r.body) (direction : Option Direction) :
    (s.step direction).1 = (r.step direction).1 := by
  cases direction with
  | none => rfl
  | some d => exact congrArg (fun body => (Body.step d body).1) same

theorem stuck?_stride (direction : Option Direction) (n : Int64) :
    (r.stride key true n direction).2.context.heap.stuck? key =
      if (r.step direction).1 then none else direction.or (r.context.heap.stuck? key) := by
  have freed : (r.context.heap.clearStuck key).stuck? key = none := by
    rw [Heap.stuck?_clearStuck, if_pos rfl]
  unfold stride
  dsimp only
  cases (r.step direction).1 with
  | true =>
    rw [if_neg (by decide), if_pos rfl, ← freed]
    split
    · simp
    · simp
  | false =>
    rw [if_pos (by decide), if_neg (by decide)]
    cases direction with
    | none => simp
    | some d => simp [Heap.stuck?_setStuck]

/-- One tick of a forceful move takes a step from what is left if it is made, and the move is stuck
afterwards where its effort holds on. -/
theorem push (heading : Heading) (some_left : 0 < (r.context.remaining key count).toInt)
    (held : r.context.heap.stuck? key = e.held) :
    Leaves key ((r.context.remaining key count).toInt + e.made - (e.next heading r).made)
        (r.move key heading count true) ∧
      (r.move key heading count true).2.context.heap.stuck? key = (e.next heading r).held := by
  obtain ⟨direction, same_body, same_heap⟩ := aim_of_held heading held
  have stepped := step_of_body same_body (e.direction? heading r)
  have leaves := leaves_stride (r := (r.aim key heading).2) key true (r.aim key heading).1 some_left
  rw [direction, stepped] at leaves
  rw [move_of_some_left some_left, stuck?_stride, direction, stepped, same_heap, held,
    Effort.next_eq]
  cases made : (r.step (e.direction? heading r)).1 with
  | true =>
    rw [made] at leaves
    have one_less : (r.context.remaining key count).toInt + e.made - (e.made + 1 : Nat) =
        (r.context.remaining key count).toInt - 1 := by omega
    refine ⟨?_, rfl⟩
    show Leaves key (_ + _ - ((e.made + 1 : Nat) : Int)) _
    rw [one_less]
    exact leaves
  | false =>
    rw [made] at leaves
    refine ⟨?_, rfl⟩
    show Leaves key (_ + _ - (e.made : Int)) _
    rw [Int.add_sub_cancel]
    exact leaves

theorem Alone.heap {command : Command} (alone : Alone key command turn)
    (going : turn.after.context.stored = some key) :
    turn.after.context.heap = (turn.before.execute key command).2.context.heap := by
  rw [alone.after, context_settle] at going ⊢
  cases ended : (turn.before.execute key command).1 with
  | endTick =>
    rw [ended] at going
    cases going
  | proceed =>
    rw [ended] at going
    cases going
  | jumped => rfl
  | again => rfl

theorem Spell.of_no_steps {forceful : Bool} (h : r.context.Coherent)
    (up : r.upNext? = some (key, .move heading count forceful)) (begins : r.context.stored = none)
    (none_left : count.val = 0) (spell : Spell begun r key earlier turn) :
    earlier = [] ∧ turn.before.execute key (.move heading count forceful) =
      (.endTick, turn.before) := by
  have running : r.context.index ≠ none := by simp [(upNext?_eq_some h up).1]
  induction spell with
  | begin rest =>
    refine ⟨rfl, move_of_none_left ?_⟩
    rw [remaining_of_fresh h running begins]
    omega
  | goOn so_far going between unheard ih =>
    have alone := so_far.alone h up rfl
    have after := alone.after
    rw [ih.2] at after
    rw [after] at going
    cases going

/-- What is left of a forceful move are the steps that were not made, and it is stuck where its
effort holds on. -/
structure Pushes (key : Nat) (heading : Heading) (count : Numeral) (earlier : List (Turn β))
    (turn : Turn β) : Prop where
  short : (effort heading earlier).made < count.val
  left : (turn.before.context.remaining key count).toInt =
    count.val - (effort heading earlier).made
  leaves : turn.Leaves key count (count.val - (effort heading (earlier ++ [turn])).made)
  held : turn.before.context.heap.stuck? key = (effort heading earlier).held
  holds : turn.after.context.stored = some key →
    turn.after.context.heap.stuck? key = (effort heading (earlier ++ [turn])).held

theorem Pushes.some_left (pushed : Pushes key heading count earlier turn) :
    0 < (turn.before.context.remaining key count).toInt := by
  have short := pushed.short
  have left := pushed.left
  omega

/-- Each turn makes one step at most, so the last that is left is made in the last turn. -/
theorem Pushes.goes_on_or_ends (pushed : Pushes key heading count earlier turn) :
    ((effort heading (earlier ++ [turn])).made < count.val ∧ turn.events = [⟨key, .again⟩] ∧
        InProgress key turn.after.context ∧
        turn.after.context.heap.stuck? key = (effort heading (earlier ++ [turn])).held) ∨
      ((effort heading (earlier ++ [turn])).made = count.val ∧ turn.events = [⟨key, .endTick⟩] ∧
        IsPast key turn.after.context) := by
  have one_more :
      (effort heading (earlier ++ [turn])).made ≤ (effort heading earlier).made + 1 := by
    rw [effort_append]
    exact Effort.made_next_le
  have short := pushed.short
  rcases pushed.leaves with ⟨more, events, going, -⟩ | ⟨none_left, events, past⟩
  · exact .inl ⟨by omega, events, going, pushed.holds going.stored⟩
  · exact .inr ⟨by omega, events, past⟩

theorem Alone.stuck_tries {d : Direction} (alone : Alone key (.move heading count true) turn)
    (some_left : 0 < (turn.before.context.remaining key count).toInt)
    (stuck : turn.before.context.heap.stuck? key = some d) :
    turn.after.body = (Body.step d turn.before.body).2 ∧
      turn.after.context.generator = turn.before.context.generator ∧
      ∀ other, turn.before.execute key (.move other count true) =
        turn.before.execute key (.move heading count true) := by
  have tries := alone.tries some_left
  rw [aim_of_stuck stuck] at tries
  refine ⟨tries.1, tries.2, fun other => ?_⟩
  show turn.before.move key other count true = turn.before.move key heading count true
  rw [move_of_some_left some_left, move_of_some_left some_left, aim_of_stuck stuck,
    aim_of_stuck stuck]

theorem Alone.pushes (alone : Alone key (.move heading count true) turn)
    (short : (effort heading earlier).made < count.val)
    (left : (turn.before.context.remaining key count).toInt =
      count.val - (effort heading earlier).made)
    (held : turn.before.context.heap.stuck? key = (effort heading earlier).held) :
    Pushes key heading count earlier turn := by
  have some_left : 0 < (turn.before.context.remaining key count).toInt := by omega
  obtain ⟨leaves, stuck⟩ := push heading some_left held
  rw [left, Int.sub_add_cancel, ← effort_append] at leaves
  refine ⟨short, left, alone.leaves count leaves, held, fun going => ?_⟩
  rw [alone.heap going, effort_append]
  exact stuck

theorem Spell.pushes (h : r.context.Coherent)
    (up : r.upNext? = some (key, .move heading count true)) (begins : r.context.stored = none)
    (some_steps : 0 < count.val) (spell : Spell begun r key earlier turn) :
    Pushes key heading count earlier turn := by
  have alone := spell.alone h up rfl
  have running : r.context.index ≠ none := by simp [(upNext?_eq_some h up).1]
  -- A turn finds the heap as the turn before left it, whatever was done in between.
  induction spell with
  | begin rest =>
    refine alone.pushes some_steps ?_ ?_
    · rw [remaining_of_fresh h running begins]
      exact (Int.sub_zero _).symm
    · show r.context.heap.stuck? key = none
      rw [h.heap_eq_empty running begins]
      rfl
  | @goOn earlier last t so_far going between unheard ih =>
    have alone_before := so_far.alone h up rfl
    have pushed := ih alone_before
    obtain ⟨more, left⟩ := pushed.leaves.of_going going
    obtain ⟨-, -, undisturbed⟩ := resumes alone_before going between unheard
    refine alone.pushes (by omega) ?_ ?_
    · rw [← left, Context.remaining, undisturbed.heap]
      rfl
    · rw [undisturbed.heap]
      exact pushed.holds going

/-- A forceful move that begins in a context which a script can come to is done as soon as so many
of its steps are made as it declares, and not before. In each tick it asks the body for one step at
most: after a refused one in the direction of that step, whatever its heading says and without a
draw, and otherwise in the one that its heading comes to. Where that is none the tick leaves it as
it was. A move of no steps is done at once and does nothing. -/
theorem forceful_move_gets_through (name text : String)
    (reachable : Reachable (.ofText name text) begun.context) (underway : Underway begun r)
    (up : r.upNext? = some (key, .move heading count true)) (begins : r.context.stored = none)
    (spell : Spell begun r key earlier turn) :
    let before := effort heading earlier
    let after := effort heading (earlier ++ [turn])
    (count.val = 0 → earlier = [] ∧ turn.events = [⟨key, .endTick⟩] ∧
      IsPast key turn.after.context ∧ turn.after.body = turn.before.body ∧
      turn.after.context.generator = turn.before.context.generator) ∧
    (0 < count.val → before.made < count.val ∧
      ((after.made < count.val ∧ turn.events = [⟨key, .again⟩] ∧
          InProgress key turn.after.context ∧
          turn.after.context.heap.stuck? key = after.held) ∨
        (after.made = count.val ∧ turn.events = [⟨key, .endTick⟩] ∧
          IsPast key turn.after.context)) ∧
      match before.held with
      | some d =>
        turn.after.body = (Body.step d turn.before.body).2 ∧
          turn.after.context.generator = turn.before.context.generator ∧
          ∀ other, turn.before.execute key (.move other count true) =
            turn.before.execute key (.move heading count true)
      | none =>
        let tried := ((turn.before.resolve heading).2.step (turn.before.resolve heading).1).2
        turn.after.body = tried.body ∧
          turn.after.context.generator = tried.context.generator) := by
  have h : r.context.Coherent :=
    underway.coherent (reachable_coherent (Script.labelsWithin_ofText name text) reachable).1
  have alone := spell.alone h up rfl
  intro before after
  constructor
  · intro no_steps
    obtain ⟨first, idle⟩ := spell.of_no_steps h up begins no_steps
    have same := alone.body_generator
    rw [idle] at same
    have done : turn.Leaves key count 0 := by
      refine alone.leaves count ?_
      rw [idle]
      exact leaves_of_none (Int.le_refl 0) turn.before
    rcases done with ⟨more, -⟩ | ⟨-, events, past⟩
    · exact absurd more (Int.lt_irrefl 0)
    · exact ⟨first, events, past, same⟩
  · intro some_steps
    have pushed := spell.pushes h up begins some_steps
    refine ⟨pushed.short, pushed.goes_on_or_ends, ?_⟩
    have held : turn.before.context.heap.stuck? key = before.held := pushed.held
    split
    · rename_i d holding
      rw [holding] at held
      exact alone.stuck_tries pushed.some_left held
    · rename_i free
      rw [free] at held
      have tries := alone.tries pushed.some_left
      rw [aim_of_free heading held] at tries
      exact tries

/-- A ram that is to take two steps along its column, walled in at first. It is refused one, and
gets through once the walls are gone. -/
theorem ram_gets_through :
    let text := "move rndns 2 force"
    let walled : Recorder := { Recorder.named "ram" with blocked := [.north, .south] }
    let begun : Run Recorder := ⟨.start (.ofText "ram" text) (.seeded 42), walled⟩
    let freed : Run Recorder := ⟨begun.tick.context, { begun.tick.body with blocked := [] }⟩
    let r := begun.onContext takeMessage
    let heading : Heading := ⟨.randNorthSouth, []⟩
    r.upNext? = some (0, .move heading ⟨2, by decide⟩ true) ∧ r.context.stored = none ∧
      ∃ first second third, Spell begun r 0 [first, second] third ∧
        (effort heading [first]).held ≠ none ∧ third.after = freed.tick.tick ∧
        (effort heading [first, second, third]).made = 2 ∧ IsPast 0 freed.tick.tick.context := by
  intro text walled begun freed r heading
  have reachable : Reachable (.ofText "ram" text) begun.context := .start 42
  have up : r.upNext? = some (0, .move heading ⟨2, by decide⟩ true) := by decide +kernel
  have begins : r.context.stored = none := by decide +kernel
  have going : begun.tick.context.stored = some 0 := by decide +kernel
  have going_on : freed.tick.context.stored = some 0 := by decide +kernel
  have through : freed.tick.tick.context.stored = none := by decide +kernel
  have unheard (t : Run Recorder) (empty : t.context.inbox = []) :
      ∀ message ∈ t.context.inbox.head?, t.context.jump? message = none := by
    intro message mem
    rw [empty] at mem
    cases mem
  obtain ⟨first, start, at_first, after_first⟩ := Spell.exists_first 0 begun
  rw [← after_first] at going
  obtain ⟨second, so_far, after_second⟩ := start.exists_next (t := freed) going
    (by rw [after_first]) (unheard freed (by decide +kernel))
  rw [← after_second] at going_on
  obtain ⟨third, spell, after_third⟩ := so_far.exists_next (t := freed.tick) going_on
    (by rw [after_second]) (unheard freed.tick (by decide +kernel))
  have refused : (effort heading [first]).held ≠ none := by
    show (Effort.start.next heading first.before).held ≠ none
    rw [at_first]
    decide +kernel
  have pushing := (forceful_move_gets_through "ram" text reachable .begin up begins spell).2
  rcases (pushing (by decide)).2.1 with ⟨-, -, goes_on, -⟩ | ⟨made, -, past⟩
  · have stored := goes_on.stored
    rw [after_third, through] at stored
    cases stored
  · rw [after_third] at past
    exact ⟨up, begins, first, second, third, spell, refused, after_third, made, past⟩

end Run
end ActorScript
