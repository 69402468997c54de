import Postfix.Proofs.Machine

/-! The single moves that a run makes on the working stack.
An operator takes its operands off one by one and puts its results on one by one, so the stack has
states in the middle of an operator that its effect as a whole does not show. Here every action is
given as a tree of moves, each of which takes or puts one value, and is proved to be that tree run
from its root; the states between two moves can then be listed. -/
namespace Postfix

/-- An action as the moves that it makes. What comes after a value has been taken may depend on
it. -/
inductive Moves (α : Type)
  | done (a : α)
  | fail (e : Failure)
  | pop (next : Value → Moves α)
  | push (v : Value) (next : Moves α)

namespace Moves

variable {α β : Type}

def bind : Moves α → (α → Moves β) → Moves β
  | done a, f => f a
  | fail e, _ => fail e
  | pop next, f => pop fun v => (next v).bind f
  | push v next, f => push v (next.bind f)

def action : Moves α → Action α
  | done a => pure a
  | fail e => Action.fail e
  | pop next => Action.pop >>= fun v => (next v).action
  | push v next => Action.push v >>= fun _ => next.action

/-- The stack at the beginning and after each move, as far as the run gets. -/
def moments : Moves α → Stack Value → List (Stack Value)
  | done _, s => [s]
  | fail _, s => [s]
  | pop next, s =>
    match s.pop with
    | (.ok v, t) => s :: (next v).moments t
    | (.error _, t) => [s, t]
  | push v next, s => s :: next.moments (s.push v)

def give : Except Failure Value → Moves Unit
  | .ok v => push v (done ())
  | .error e => fail e

def popTwo (next : Value → Value → Moves α) : Moves α :=
  pop fun right => pop fun left => next left right

end Moves

/-! ### The moves of operators, tokens and runs -/

def FloatOp.moves (dtype : Option DType) : FloatOp → Moves Unit
  | binary op => .popTwo fun left right => .give (Failure.lift (op.combine left right))
  | unary op => .pop fun v => .give (Failure.lift (op.transform v))
  | swap => .popTwo fun left right => .push right (.push left (.done ()))
  | zero => .push (constant dtype 0) (.done ())
  | one => .push (constant dtype 1) (.done ())

def IntegerOp.moves (dtype : Option DType) : IntegerOp → Moves Unit
  | binary op => .popTwo fun left right => .give (combine dtype op left right)
  | neg => .pop fun v => .give (negate dtype v)
  | swap => .popTwo fun left right => .push right (.push left (.done ()))
  | zero => .push (constant dtype 0) (.done ())
  | one => .push (constant dtype 1) (.done ())

def OneTwoOp.moves (op : OneTwoOp) : Moves Unit :=
  .popTwo fun left right => .give (op.combine left right)

namespace TableOp

def takeMoves : Nat → Moves (List Value)
  | 0 => .done []
  | n + 1 => .pop fun v => (takeMoves n).bind fun vs => .done (v :: vs)

def giveMoves (dtype : Option DType) (taken : List Value) : List Nat → Moves Unit
  | [] => .done ()
  | i :: rest =>
    match output dtype taken i with
    | .ok v => .push v (giveMoves dtype taken rest)
    | .error f => .fail (.fault f)

def moves (dtype : Option DType) (op : TableOp) : Moves Unit :=
  (takeMoves op.pops).bind fun taken => giveMoves dtype taken (List.range op.pushes)

end TableOp

def Operator.moves (dtype : Option DType) : Operator → Moves Unit
  | float op => op.moves dtype
  | integer op => op.moves dtype
  | oneTwo op => op.moves
  | table op => op.moves dtype

namespace Expression

def tokenMoves (kind : OperandKind) (c : Container) : Token → Moves Unit
  | .operand value _ => .push value (.done ())
  | .reference v => .give (resolve kind c v)
  | .operator op => op.moves kind.dtype?

def moves (kind : OperandKind) (c : Container) : List Token → Moves Unit
  | [] => .done ()
  | t :: rest => (tokenMoves kind c t).bind fun _ => moves kind c rest

/-- The stacks that an evaluation goes through, those in the middle of an operator among them. -/
def moments (e : Expression) (c : Container) : List (Stack Value) :=
  (moves e.kind c e.tokens).moments (Stack.withCapacity e.maxStack)

end Expression

/-! ### Moves make up the actions -/

namespace Action

variable {α β : Type}

theorem ext {a b : Action α} (same : ∀ s, a.runOn s = b.runOn s) : a = b := funext same

theorem popTwo_bind (f : Value × Value → Action β) :
    (popTwo >>= f) = (pop >>= fun right => pop >>= fun left => f (left, right)) := by
  apply ext
  intro s
  simp only [runOn_bind, runOn_popTwo, runOn_pop, Stack.popTwo]
  rcases s.pop with ⟨_ | right, t⟩
  · rfl
  · simp only
    rcases t.pop with ⟨_ | left, u⟩ <;> rfl

end Action

namespace Moves

variable {α β γ : Type}

theorem bind_bind (m : Moves α) (f : α → Moves β) (g : β → Moves γ) :
    (m.bind f).bind g = m.bind fun a => (f a).bind g := by
  induction m with
  | done a => rfl
  | fail e => rfl
  | pop next ih => exact congrArg pop (funext ih)
  | push v next ih => exact congrArg (push v) ih

theorem action_bind (m : Moves α) (f : α → Moves β) :
    (m.bind f).action = m.action >>= fun a => (f a).action := by
  induction m with
  | done a => rfl
  | fail e => rfl
  | pop next ih =>
    simp only [bind, action, bind_assoc]
    exact congrArg _ (funext ih)
  | push v next ih => simp only [bind, action, bind_assoc, ih]

theorem action_popTwo (next : Value → Value → Moves α) :
    (popTwo next).action = Action.popTwo >>= fun p => (next p.1 p.2).action := by
  rw [Action.popTwo_bind]
  rfl

theorem action_give_lift (r : Except Fault Value) :
    (give (Failure.lift r)).action = Action.ofFault r >>= Action.push := by
  cases r <;> rfl

theorem action_swap :
    (popTwo fun left right => push right (push left (done ()))).action = Action.swap := by
  rw [action_popTwo]
  rfl

end Moves

theorem FloatOp.action_moves (dtype : Option DType) (op : FloatOp) :
    (op.moves dtype).action = op.apply dtype := by
  cases op with
  | binary op =>
    rw [moves, Moves.action_popTwo]
    simp only [Moves.action_give_lift]
    rfl
  | unary op =>
    simp only [moves, Moves.action, Moves.action_give_lift]
    rfl
  | swap => exact Moves.action_swap
  | zero => rfl
  | one => rfl

namespace IntegerOp

theorem action_give_checked (dtype : Option DType) (result : Int) (fault : ArithmeticFault)
    (sample : Int) (operands : List Int) :
    (Moves.give (checked dtype result fault sample operands)).action =
      pushChecked dtype result fault sample operands := by
  unfold checked pushChecked
  cases rangeOf dtype sample with
  | error f => rfl
  | ok t =>
    simp only [Action.ofFault, pure_bind]
    split <;> rfl

theorem action_give_combineInts (dtype : Option DType) (op : IntegerBinary) (l r : Int) :
    (Moves.give (combineInts dtype op l r)).action =
      match op.exact (elementBits dtype) l r with
      | .error e => Action.fail (.arithmetic e [l, r])
      | .ok result => pushChecked dtype result op.overflow l [l, r] := by
  unfold combineInts
  cases op.exact (elementBits dtype) l r with
  | error e => rfl
  | ok result => exact action_give_checked dtype result op.overflow l [l, r]

theorem action_moves (dtype : Option DType) (op : IntegerOp) :
    (op.moves dtype).action = op.apply dtype := by
  cases op with
  | binary op =>
    rw [moves, Moves.action_popTwo]
    refine congrArg (Action.popTwo >>= ·) (funext fun p => ?_)
    simp only [combine]
    cases NumericType.integerPart p.1 with
    | error f => rfl
    | ok l =>
      cases NumericType.integerPart p.2 with
      | error f => rfl
      | ok r => exact action_give_combineInts dtype op l r
  | neg =>
    simp only [moves, Moves.action, apply, applyNeg]
    refine congrArg (Action.pop >>= ·) (funext fun v => ?_)
    simp only [negate]
    cases NumericType.integerPart v with
    | error f => rfl
    | ok n => exact action_give_checked dtype (-n) .negOverflow n [n]
  | swap => exact Moves.action_swap
  | zero => rfl
  | one => rfl

end IntegerOp

theorem OneTwoOp.action_moves (op : OneTwoOp) : op.moves.action = op.apply := by
  rw [moves, Moves.action_popTwo]
  refine congrArg (Action.popTwo >>= ·) (funext fun p => ?_)
  simp only [combine]
  cases op <;> rcases digits? p.1 p.2 with _ | ⟨_ | _, _ | _⟩ <;> rfl

namespace TableOp

theorem action_takeMoves (n : Nat) : (takeMoves n).action = popMany n := by
  induction n with
  | zero => rfl
  | succ n ih =>
    simp only [takeMoves, Moves.action, Moves.action_bind, ih]
    rfl

theorem action_giveMoves (dtype : Option DType) (taken : List Value) (is : List Nat) :
    (giveMoves dtype taken is).action = pushOutputs dtype taken is := by
  induction is with
  | nil => rfl
  | cons i is ih =>
    simp only [giveMoves, pushOutputs]
    cases output dtype taken i with
    | error f => rfl
    | ok v =>
      simp only [Moves.action, ih]
      rfl

theorem action_moves (dtype : Option DType) (op : TableOp) :
    (op.moves dtype).action = op.apply dtype := by
  simp only [moves, Moves.action_bind, action_takeMoves, action_giveMoves]
  rfl

end TableOp

theorem Operator.action_moves (dtype : Option DType) (op : Operator) :
    (op.moves dtype).action = op.apply dtype := by
  cases op with
  | float op => exact op.action_moves dtype
  | integer op => exact op.action_moves dtype
  | oneTwo op => exact op.action_moves
  | table op => exact op.action_moves dtype

namespace Expression

theorem action_tokenMoves (kind : OperandKind) (c : Container) (t : Token) :
    (tokenMoves kind c t).action = perform kind c t := by
  cases t with
  | operand value text => rfl
  | reference v =>
    simp only [tokenMoves, perform]
    cases resolve kind c v <;> rfl
  | operator op => exact op.action_moves kind.dtype?

theorem action_moves (kind : OperandKind) (c : Container) (ts : List Token) :
    (moves kind c ts).action = performAll kind c ts := by
  induction ts with
  | nil => rfl
  | cons t ts ih =>
    simp only [moves, Moves.action_bind, action_tokenMoves, ih]
    rfl

end Expression
end Postfix
