import ActorScript.Context.Tick

/-!
What one command can do to the context that runs it, whatever the body answers: said once for all
commands, so that an invariant of contexts needs a case for each effect and none for each command.
-/
namespace ActorScript

theorem Numeral.toInt_neg_toInt64 (n : Numeral) : (-n.toInt64).toInt = -(n.val : Int) :=
  Int64.toInt_neg_ofNat_of_le (Nat.le_of_lt n.val_lt)

namespace Command

def duration? : Command → Option Numeral
  | .move _ count _ => some count
  | .wait ticks => some ticks
  | _ => none

def isForceful : Command → Bool
  | .move _ _ forceful => forceful
  | _ => false

end Command

namespace Context

@[simp] theorem index_zap (label : String) (c : Context) : (c.zap label).index = c.index := by
  unfold zap
  dsimp only
  split <;> rfl

@[simp] theorem script_zap (label : String) (c : Context) : (c.zap label).script = c.script := by
  unfold zap
  dsimp only
  split <;> rfl

@[simp] theorem index_restore (label : String) (c : Context) :
    (c.restore label).index = c.index := by
  unfold restore
  dsimp only
  split <;> rfl

@[simp] theorem script_restore (label : String) (c : Context) :
    (c.restore label).script = c.script := by
  unfold restore
  dsimp only
  split <;> rfl

@[simp] theorem cursors_dropStored (c : Context) : c.dropStored.cursors = c.cursors := by
  unfold dropStored
  split <;> rfl

@[simp] theorem script_dropStored (c : Context) : c.dropStored.script = c.script := by
  unfold dropStored
  split <;> rfl

@[simp] theorem generator_dropStored (c : Context) : c.dropStored.generator = c.generator := by
  unfold dropStored
  split <;> rfl

theorem jump?_eq_none {label : String} {c : Context} :
    c.jump? label = none ↔ c.index = none ∨ c.target? label = none := by
  unfold jump?
  cases c.index with
  | none => simp
  | some i => cases c.target? label <;> simp

theorem jump?_eq_some {label : String} {c d : Context} :
    c.jump? label = some d ↔ c.index ≠ none ∧ ∃ position, c.target? label = some position ∧
      d = { c.dropStored with index := some (position + 1).toNat } := by
  unfold jump?
  cases c.index with
  | none => simp
  | some i => cases c.target? label <;> simp [eq_comm]

theorem script_jump {label : String} {c d : Context} (made : c.jump? label = some d) :
    d.script = c.script := by
  obtain ⟨-, position, -, rfl⟩ := jump?_eq_some.1 made
  exact script_dropStored c

theorem cursors_jump {label : String} {c d : Context} (made : c.jump? label = some d) :
    d.cursors = c.cursors := by
  obtain ⟨-, position, -, rfl⟩ := jump?_eq_some.1 made
  exact cursors_dropStored c

theorem generator_jump {label : String} {c d : Context} (made : c.jump? label = some d) :
    d.generator = c.generator := by
  obtain ⟨-, position, -, rfl⟩ := jump?_eq_some.1 made
  exact generator_dropStored c

/-- Where a command that ended with an outcome leaves the context. -/
def settle (key : Nat) (outcome : Outcome) (c : Context) : Context :=
  match outcome with
  | .endTick | .proceed => c.finish key
  | .jumped => c
  | .again => { c with stored := some key }

@[simp] theorem cursors_settle (key : Nat) (outcome : Outcome) (c : Context) :
    (c.settle key outcome).cursors = c.cursors := by
  cases outcome <;> rfl

@[simp] theorem script_settle (key : Nat) (outcome : Outcome) (c : Context) :
    (c.settle key outcome).script = c.script := by
  cases outcome <;> rfl

@[simp] theorem generator_settle (key : Nat) (outcome : Outcome) (c : Context) :
    (c.settle key outcome).generator = c.generator := by
  cases outcome <;> rfl

end Context

namespace Run

/-- What a command leaves of its context, and with which outcome. Only a command that declares a
duration touches the heap, at its own key, and only such a command goes on in the next tick. -/
inductive Effect (key : Nat) (command : Command) (c : Context) : Outcome → Context → Prop where
  | pass (generator : Generator) {outcome : Outcome}
      (done : outcome = .endTick ∨ outcome = .proceed) :
      Effect key command c outcome { c with generator }
  | stop : Effect key command c .proceed c.stop
  | post (recipient text : String) : Effect key command c .proceed (c.post recipient text)
  | setLocked (locked : Bool) : Effect key command c .proceed (c.setLocked locked)
  | restore (label : String) (named : command = .restore label) :
      Effect key command c .proceed (c.restore label)
  | zap (label : String) (named : command = .zap label) :
      Effect key command c .proceed (c.zap label)
  | jump (generator : Generator) (label : String) {target : Context}
      (made : Context.jump? label { c with generator } = some target) :
      Effect key command c .jumped target
  | spent (generator : Generator) :
      Effect key command c .endTick { c with generator, heap := c.heap.clearStuck key }
  | hold (generator : Generator) (heap : Heap) (n : Int64) (declared : Numeral)
      (duration : command.duration? = some declared)
      (stuck : heap = c.heap ∨ heap = c.heap.clearStuck key ∨
        command.isForceful = true ∧ ∃ d, heap = c.heap.setStuck key d)
      (pos : 1 ≤ n.toInt)
      (le : n.toInt ≤ ((c.heap.count? key).getD declared.toInt64).toInt) :
      Effect key command c .again { c with generator, heap := heap.setCount key n }

variable {β : Type}

@[simp] theorem context_onBody (f : β → β) (r : Run β) : (r.onBody f).context = r.context := rfl

@[simp] theorem context_onContext (f : Context → Context) (r : Run β) :
    (r.onContext f).context = f r.context := rfl

theorem context_settle (key : Nat) (outcome : Outcome) (r : Run β) :
    (r.settle key outcome).context = r.context.settle key outcome := by
  cases outcome <;> rfl

theorem body_settle (key : Nat) (outcome : Outcome) (r : Run β) :
    (r.settle key outcome).body = r.body := by
  cases outcome <;> rfl

theorem body_jumpOr (label : Option String) (otherwise : Outcome) (r : Run β) :
    (r.jumpOr label otherwise).2.body = r.body := by
  unfold jumpOr
  split <;> rfl

theorem generator_jumpOr (label : Option String) (otherwise : Outcome) (r : Run β) :
    (r.jumpOr label otherwise).2.context.generator = r.context.generator := by
  unfold jumpOr
  split
  · rename_i target made
    obtain ⟨label, -, jumped⟩ := Option.bind_eq_some_iff.1 made
    exact Context.generator_jump jumped
  · rfl

theorem toInt_sub_one {n : Int64} (nonneg : 0 ≤ n.toInt) : (n - 1).toInt = n.toInt - 1 := by
  have one : (1 : Int64).toInt = 1 := rfl
  have below := n.toInt_lt
  rw [Int64.toInt_sub, one, Int.bmod_eq_of_le] <;> omega

variable {key : Nat} {command : Command} {c : Context} {r : Run β}

theorem effect_jumpOr (generator : Generator) (drawn : r.context = { c with generator })
    (label : Option String) {otherwise : Outcome}
    (done : otherwise = .endTick ∨ otherwise = .proceed) :
    Effect key command c (r.jumpOr label otherwise).1 (r.jumpOr label otherwise).2.context := by
  unfold jumpOr
  split
  · rename_i target made
    obtain ⟨label, -, made⟩ := Option.bind_eq_some_iff.1 made
    exact .jump generator label (drawn ▸ made)
  · exact drawn ▸ .pass generator done

theorem effect_wait {ticks : Numeral}
    (positive : ∀ n, r.context.heap.count? key = some n → 0 < n.toInt) :
    Effect key (.wait ticks) r.context (r.wait key ticks).1 (r.wait key ticks).2.context := by
  unfold wait
  dsimp only
  split
  · rename_i left
    have nonneg : 0 ≤ ((r.context.heap.count? key).getD ticks.toInt64).toInt := by
      cases stored : r.context.heap.count? key with
      | some n => exact Int.le_of_lt (positive n stored)
      | none =>
        rw [Option.getD_none, Numeral.toInt_toInt64]
        exact Int.natCast_nonneg _
    rw [Int64.lt_iff_toInt_lt] at left
    have one_less := toInt_sub_one nonneg
    exact .hold r.context.generator r.context.heap _ ticks rfl (.inl rfl) left (by omega)
  · exact .pass r.context.generator (.inl rfl)

variable [Body β]

theorem context_resolve (heading : Heading) (r : Run β) :
    ∃ generator, (r.resolve heading).2.context = { r.context with generator } :=
  ⟨_, rfl⟩

@[simp] theorem context_step (direction : Option Direction) (r : Run β) :
    (r.step direction).2.context = r.context := by
  cases direction <;> rfl

theorem context_act (heading : Heading) (f : Direction → β → β) (r : Run β) :
    ∃ generator, (r.act heading f).context = { r.context with generator } := by
  obtain ⟨generator, drawn⟩ := context_resolve heading r
  refine ⟨generator, ?_⟩
  rw [← drawn, act]
  split <;> rename_i eq <;> simp [eq]

theorem body_step (direction : Option Direction) (r : Run β) :
    (r.step direction).2.body = r.body ∨
      ∃ d, (r.step direction).2.body = (Body.step d r.body).2 := by
  cases direction with
  | none => exact .inl rfl
  | some d => exact .inr ⟨d, rfl⟩

theorem body_act (heading : Heading) (f : Direction → β → β) (r : Run β) :
    (r.act heading f).body = r.body ∨ ∃ d, (r.act heading f).body = f d r.body := by
  have same : (r.resolve heading).2.body = r.body := rfl
  unfold act
  split
  · rename_i s resolved
    rw [resolved] at same
    exact .inl same
  · rename_i d s resolved
    rw [resolved] at same
    exact .inr ⟨d, congrArg (f d) same⟩

/-- The way that a move takes next: the one it is stuck on, or what its heading comes to. -/
def aim (key : Nat) (heading : Heading) (r : Run β) : Option Direction × Run β :=
  match r.context.heap.stuck? key with
  | some d => (some d, r)
  | none => r.resolve heading

/-- One step of a move with so many steps left. -/
def stride (key : Nat) (forceful : Bool) (remaining : Int64) (direction : Option Direction)
    (r : Run β) : Outcome × Run β :=
  let (moved, r) := r.step direction
  if !moved && forceful then
    let hold (h : Heap) : Heap :=
      match direction with
      | some d => h.setStuck key d
      | none => h
    (.again, r.onContext fun c => { c with heap := (hold c.heap).setCount key remaining })
  else
    let r := r.onContext fun c => { c with heap := c.heap.clearStuck key }
    if 0 < remaining - 1 then
      (.again, r.onContext fun c => { c with heap := c.heap.setCount key (remaining - 1) })
    else (.endTick, r)

theorem move_eq (key : Nat) (heading : Heading) (count : Numeral) (forceful : Bool) (r : Run β) :
    r.move key heading count forceful =
      if (r.context.heap.count? key).getD count.toInt64 ≤ 0 then (.endTick, r)
      else (r.aim key heading).2.stride key forceful
        ((r.context.heap.count? key).getD count.toInt64) (r.aim key heading).1 := by
  unfold move aim stride
  cases r.context.heap.stuck? key <;> rfl

theorem context_aim (key : Nat) (heading : Heading) (r : Run β) :
    ∃ generator, (r.aim key heading).2.context = { r.context with generator } := by
  unfold aim
  split
  · exact ⟨r.context.generator, rfl⟩
  · exact context_resolve heading r

theorem body_move (key : Nat) (heading : Heading) (count : Numeral) (forceful : Bool) (r : Run β) :
    (r.move key heading count forceful).2.body = r.body ∨
      ∃ d, (r.move key heading count forceful).2.body = (Body.step d r.body).2 := by
  have aimed : (r.aim key heading).2.body = r.body := by
    unfold aim
    split <;> rfl
  have stepped := body_step (r.aim key heading).1 (r.aim key heading).2
  rw [aimed] at stepped
  rw [move_eq]
  split
  · exact .inl rfl
  · unfold stride
    dsimp only
    split
    · exact stepped
    · split <;> exact stepped

theorem effect_move {heading : Heading} {count : Numeral} {forceful : Bool} :
    Effect key (.move heading count forceful) r.context (r.move key heading count forceful).1
      (r.move key heading count forceful).2.context := by
  rw [move_eq]
  split
  · exact .pass r.context.generator (.inl rfl)
  · rename_i some_left
    obtain ⟨generator, drawn⟩ := context_aim key heading r
    have left : 0 < ((r.context.heap.count? key).getD count.toInt64).toInt := by
      rw [Int64.le_iff_toInt_le] at some_left
      exact Int.not_le.1 some_left
    unfold stride
    dsimp only
    split
    · rename_i blocked
      rw [Bool.and_eq_true] at blocked
      simp only [context_onContext, context_step, drawn]
      refine .hold generator _ _ count rfl ?_ left (Int.le_refl _)
      cases (r.aim key heading).1 with
      | none => exact .inl rfl
      | some d => exact .inr (.inr ⟨blocked.2, d, rfl⟩)
    · have one_less := toInt_sub_one (Int.le_of_lt left)
      split
      · rename_i more
        rw [Int64.lt_iff_toInt_lt] at more
        simp only [context_onContext, context_step, drawn]
        exact .hold generator _ _ count rfl (.inr (.inl rfl)) more (by omega)
      · simp only [context_onContext, context_step, drawn]
        exact .spent generator

/-- Every command has one of the effects. -/
theorem effect_execute (positive : ∀ n, r.context.heap.count? key = some n → 0 < n.toInt) :
    Effect key command r.context (r.execute key command).1 (r.execute key command).2.context := by
  have jumps (label : Option String) {otherwise : Outcome}
      (done : otherwise = .endTick ∨ otherwise = .proceed) :
      Effect key command r.context (r.jumpOr label otherwise).1
        (r.jumpOr label otherwise).2.context :=
    effect_jumpOr r.context.generator rfl label done
  have acts (heading : Heading) (f : Direction → β → β) {outcome : Outcome}
      (done : outcome = .endTick ∨ outcome = .proceed) :
      Effect key command r.context outcome (r.act heading f).context := by
    obtain ⟨generator, drawn⟩ := context_act heading f r
    exact drawn ▸ .pass generator done
  cases command with
  | move heading count forceful => exact effect_move
  | attempt heading otherwise =>
    obtain ⟨generator, drawn⟩ := context_resolve heading r
    simp only [execute]
    split
    · rw [context_step, drawn]
      exact .pass generator (.inl rfl)
    · exact effect_jumpOr generator (by rw [context_step, drawn]) otherwise (.inl rfl)
  | wait ticks => exact effect_wait positive
  | say text => exact .pass r.context.generator (.inl rfl)
  | scroll lines => exact .pass r.context.generator (.inl rfl)
  | finish => exact .stop
  | die => exact .stop
  | jumpIf condition label =>
    simp only [execute]
    split
    · exact effect_jumpOr (condition.holds r.body r.context.generator).2 rfl (some label) (.inr rfl)
    · exact .pass _ (.inr rfl)
  | put heading tile => exact acts heading (fun d b => (Body.put d tile b).2) (.inr rfl)
  | send recipient message =>
    cases recipient with
    | none => exact jumps (some message) (.inr rfl)
    | some name =>
      simp only [execute]
      split
      · exact jumps (some message) (.inr rfl)
      · exact .post name message
  | set counter value => exact .pass r.context.generator (.inr rfl)
  | give counter amount => exact .pass r.context.generator (.inr rfl)
  | take counter amount otherwise =>
    simp only [execute]
    split
    · exact .pass r.context.generator (.inr rfl)
    · exact jumps otherwise (.inr rfl)
  | become tile => exact .stop
  | change source target => exact .pass r.context.generator (.inr rfl)
  | char code => exact .pass r.context.generator (.inr rfl)
  | torch radius => exact .pass r.context.generator (.inr rfl)
  | shoot heading => exact acts heading _ (.inl rfl)
  | throwStar heading => exact acts heading _ (.inl rfl)
  | walk heading =>
    obtain ⟨generator, drawn⟩ := context_resolve heading r
    simp only [execute, context_onBody, drawn]
    exact .pass generator (.inr rfl)
  | stand => exact .pass r.context.generator (.inr rfl)
  | lock => exact .setLocked true
  | unlock => exact .setLocked false
  | restore label => exact .restore label rfl
  | zap label => exact .zap label rfl
  | play tune exclusive => exact .pass r.context.generator (.inr rfl)

theorem next?_eq_some {event : Event} {s : Run β} : r.next? = some (event, s) ↔
    ∃ key command, r.upNext? = some (key, command) ∧
      event = ⟨key, (r.execute key command).1⟩ ∧
      s = (r.execute key command).2.settle key (r.execute key command).1 := by
  unfold next?
  constructor
  · intro ran
    obtain ⟨⟨key, command⟩, up, eq⟩ := Option.map_eq_some_iff.1 ran
    obtain ⟨rfl, rfl⟩ := Prod.mk.inj eq
    exact ⟨key, command, up, rfl, rfl⟩
  · rintro ⟨key, command, up, rfl, rfl⟩
    rw [up]
    rfl

/-- What every command keeps, a tick keeps from its first command on. -/
theorem commands_induction {motive : Run β → Prop}
    (next : ∀ {r s : Run β} {event : Event}, motive r → r.next? = some (event, s) → motive s)
    (budget : Nat) {r : Run β} (holds : motive r) : motive (commands budget r) := by
  induction budget generalizing r with
  | zero => exact holds
  | succ budget ih =>
    unfold commands
    split
    · exact holds
    · rename_i event s ran
      have kept := next holds ran
      split
      · exact kept
      · exact kept
      · exact ih kept
      · exact ih kept

/-- What `commands` does, with a log of the commands that it runs. -/
def logged : Nat → Run β → List Event × Run β
  | 0, r => ([], r)
  | budget + 1, r =>
    match r.next? with
    | none => ([], r)
    | some (event, r) =>
      match event.outcome with
      | .endTick | .again => ([event], r)
      | .proceed | .jumped => (event :: (logged budget r).1, (logged budget r).2)

theorem logged_snd (budget : Nat) (r : Run β) : (logged budget r).2 = commands budget r := by
  induction budget generalizing r with
  | zero => rfl
  | succ budget ih =>
    unfold logged commands
    cases r.next? with
    | none => rfl
    | some next =>
      obtain ⟨⟨key, outcome⟩, s⟩ := next
      cases outcome with
      | endTick => rfl
      | again => rfl
      | proceed => exact ih s
      | jumped => exact ih s

/-- What holds of all that was logged so far holds from each command of a tick to the next. -/
theorem logged_induction {motive : List Event → Run β → Prop}
    (next : ∀ {done : List Event} {r s : Run β} {event : Event}, motive done r →
      r.next? = some (event, s) → motive (done ++ [event]) s)
    (budget : Nat) {done : List Event} {r : Run β} (holds : motive done r) :
    motive (done ++ (logged budget r).1) (logged budget r).2 := by
  induction budget generalizing done r with
  | zero =>
    rw [logged, List.append_nil]
    exact holds
  | succ budget ih =>
    unfold logged
    split
    · rw [List.append_nil]
      exact holds
    · rename_i event s ran
      have kept := next holds ran
      split
      · exact kept
      · exact kept
      · have later := ih kept
        rwa [List.append_assoc] at later
      · have later := ih kept
        rwa [List.append_assoc] at later

/-- The commands that a tick runs, with what came of each. -/
def log (r : Run β) : List Event :=
  let r := r.onContext takeMessage
  (logged (budget r.context) r).1

theorem Effect.script_eq {outcome : Outcome} {d : Context} (h : Effect key command c outcome d) :
    d.script = c.script := by
  cases h with
  | jump generator label made =>
    have same := Context.script_jump made
    exact same
  | restore label => exact Context.script_restore label c
  | zap label => exact Context.script_zap label c
  | _ => rfl

end Run
end ActorScript
