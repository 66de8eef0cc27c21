import ActorScript.Grammar.Node

/-!
What each operation of a construction does to a stack: one equation for an operation, so that a
construction is run by simplification.
-/
namespace ActorScript.Grammar.Construction

variable {α β : Type} (s : List Node)

/-! The library says these with the identity monad around their results. -/

@[simp 1100] theorem run_pure (a : α) : (pure a : Construction α).run s = (a, s) := rfl

@[simp 1100] theorem run_bind (k : Construction α) (h : α → Construction β) :
    (k >>= h).run s = (h (k.run s).1).run (k.run s).2 := rfl

@[simp] theorem run_push (node : Node) : (push node).run s = ((), node :: s) := rfl

@[simp] theorem run_pushCommand (command : Command) :
    (pushCommand command).run s = ((), .line (.command command) :: s) := rfl

theorem run_popIf (select : Node → Option α) : (popIf select).run s =
    match s with
    | [] => (none, [])
    | node :: rest =>
      match select node with
      | some a => (some a, rest)
      | none => (none, node :: rest) := by
  cases s with
  | nil => rfl
  | cons node rest =>
    show (match select node with
      | some a => (do set rest; return some a : Construction (Option α))
      | none => return none).run (node :: rest) = _
    dsimp only
    cases select node <;> rfl

@[simp] theorem run_popToken : popToken.run s =
    match s with
    | .token t :: rest => (some t, rest)
    | _ :: rest => (none, rest)
    | [] => (none, []) := by
  cases s with
  | nil => rfl
  | cons node rest => cases node <;> rfl

@[simp] theorem run_popWordIf (accepts : String → Bool) : (popWordIf accepts).run s =
    match s with
    | .token t :: rest =>
      if t.kind = .word ∧ accepts t.value = true then (some t, rest) else (none, .token t :: rest)
    | s => (none, s) := by
  rw [popWordIf, run_popIf]
  cases s with
  | nil => rfl
  | cons node rest =>
    cases node with
    | token t =>
      by_cases accepted : t.kind = .word ∧ accepts t.value = true <;>
        simp [Token.isWord, accepted]
    | _ => rfl

@[simp] theorem run_popWord : popWord.run s =
    match s with
    | .token t :: rest => if t.kind = .word then (some t, rest) else (none, .token t :: rest)
    | s => (none, s) := by
  rw [popWord, run_popWordIf]
  simp

@[simp] theorem run_popNumeral : popNumeral.run s =
    match s with
    | .token t :: rest => if t.kind = .number then (t.numeral?, rest) else (none, .token t :: rest)
    | s => (none, s) := by
  rw [popNumeral, run_bind, run_popIf]
  cases s with
  | nil => rfl
  | cons node rest =>
    cases node with
    | token t => by_cases number : t.kind = .number <;> simp [Token.isNumber, number]
    | _ => rfl

@[simp] theorem run_popColor : popColor.run s =
    match s with
    | .color color :: rest => (some color, rest)
    | s => (none, s) := by
  rw [popColor, run_popIf]
  cases s with
  | nil => rfl
  | cons node rest => cases node <;> rfl

@[simp] theorem run_popHeading : popHeading.run s =
    match s with
    | .heading h :: rest => (some h, rest)
    | s => (none, s) := by
  rw [popHeading, run_popIf]
  cases s with
  | nil => rfl
  | cons node rest => cases node <;> rfl

@[simp] theorem run_popTile : popTile.run s =
    match s with
    | .tile t :: rest => (some t, rest)
    | s => (none, s) := by
  rw [popTile, run_popIf]
  cases s with
  | nil => rfl
  | cons node rest => cases node <;> rfl

@[simp] theorem run_popCondition : popCondition.run s =
    match s with
    | .condition q :: rest => (some q, rest)
    | s => (none, s) := by
  rw [popCondition, run_popIf]
  cases s with
  | nil => rfl
  | cons node rest => cases node <;> rfl

@[simp] theorem run_popQuotedAll :
    popQuotedAll.run s = ((splitQuoted s).1.reverse, (splitQuoted s).2) := rfl

end ActorScript.Grammar.Construction
