import Postfix.Expression
import Postfix.Proofs.Stack

/-! The working stack as a list of values, the top first.
Every operator and every token is given as a partial function on such lists, and the actions on
the buffered stack are proved to compute it, whatever spare slots the buffer has. What a run does
can then be argued on lists alone; the buffer is not looked at again. -/
namespace Postfix

/-! ### Operators on lists -/

def Failure.lift {α : Type} : Except Fault α → Except Failure α
  | .ok v => .ok v
  | .error f => .error (.fault f)

namespace FloatOp

def onList (dtype : Option DType) : FloatOp → List Value → Except Failure (List Value)
  | binary op, right :: left :: below => (Failure.lift (op.combine left right)).map (· :: below)
  | unary op, v :: below => (Failure.lift (op.transform v)).map (· :: below)
  | swap, right :: left :: below => .ok (left :: right :: below)
  | zero, vs => .ok (constant dtype 0 :: vs)
  | one, vs => .ok (constant dtype 1 :: vs)
  | _, _ => .error (.underflow .pop)

end FloatOp

namespace IntegerOp

def checked (dtype : Option DType) (result : Int) (fault : ArithmeticFault) (sample : Int)
    (operands : List Int) : Except Failure Value :=
  match rangeOf dtype sample with
  | .error f => .error (.fault f)
  | .ok t => if t.holds result then .ok (.word t result) else .error (.arithmetic fault operands)

def combineInts (dtype : Option DType) (op : IntegerBinary) (left right : Int) :
    Except Failure Value :=
  match op.exact (elementBits dtype) left right with
  | .error e => .error (.arithmetic e [left, right])
  | .ok result => checked dtype result op.overflow left [left, right]

def combine (dtype : Option DType) (op : IntegerBinary) (left right : Value) :
    Except Failure Value :=
  match NumericType.integerPart left, NumericType.integerPart right with
  | .error f, _ => .error (.fault f)
  | .ok _, .error f => .error (.fault f)
  | .ok l, .ok r => combineInts dtype op l r

def negate (dtype : Option DType) (v : Value) : Except Failure Value :=
  match NumericType.integerPart v with
  | .error f => .error (.fault f)
  | .ok n => checked dtype (-n) .negOverflow n [n]

def onList (dtype : Option DType) : IntegerOp → List Value → Except Failure (List Value)
  | binary op, right :: left :: below => (combine dtype op left right).map (· :: below)
  | neg, v :: below => (negate dtype v).map (· :: below)
  | swap, right :: left :: below => .ok (left :: right :: below)
  | zero, vs => .ok (constant dtype 0 :: vs)
  | one, vs => .ok (constant dtype 1 :: vs)
  | _, _ => .error (.underflow .pop)

end IntegerOp

namespace OneTwoOp

def combine (op : OneTwoOp) (left right : Value) : Except Failure Value :=
  match op, digits? left right with
  | add, some (.one, .one) => .ok (.oneTwo .two)
  | add, some (l, r) => .error (.cannotAdd l r)
  | add, none => .error (undigited left right)
  | sub, some (.two, .one) => .ok (.oneTwo .one)
  | sub, some (l, r) => .error (.cannotSubtract l r)
  | sub, none => .error (undigited right left)

def onList (op : OneTwoOp) : List Value → Except Failure (List Value)
  | right :: left :: below => (op.combine left right).map (· :: below)
  | _ => .error (.underflow .pop)

end OneTwoOp

namespace TableOp

def withOutputs (dtype : Option DType) (taken : List Value) :
    List Nat → List Value → Except Failure (List Value)
  | [], vs => .ok vs
  | i :: rest, vs =>
    match output dtype taken i with
    | .error f => .error (.fault f)
    | .ok v => withOutputs dtype taken rest (v :: vs)

def onList (dtype : Option DType) (op : TableOp) (vs : List Value) : Except Failure (List Value) :=
  if vs.length < op.pops then .error (.underflow .pop)
  else withOutputs dtype (vs.take op.pops) (List.range op.pushes) (vs.drop op.pops)

end TableOp

def Operator.onList (dtype : Option DType) : Operator → List Value → Except Failure (List Value)
  | float op => op.onList dtype
  | integer op => op.onList dtype
  | oneTwo op => op.onList
  | table op => op.onList dtype

/-! ### Tokens and runs on lists -/

namespace Expression

def onList (kind : OperandKind) (c : Container) : Token → List Value → Except Failure (List Value)
  | .operand value _, vs => .ok (value :: vs)
  | .reference v, vs => (resolve kind c v).map (· :: vs)
  | .operator op, vs => op.onList kind.dtype? vs

def runList (kind : OperandKind) (c : Container) :
    List Token → List Value → Except Failure (List Value)
  | [], vs => .ok vs
  | t :: rest, vs => (onList kind c t vs).bind (runList kind c rest)

end Expression

/-! ### Actions on the buffer -/

namespace Action

variable {α β : Type}

theorem runOn_bind (a : Action α) (f : α → Action β) (s : Stack Value) :
    (a >>= f).runOn s =
      match a.runOn s with
      | (.ok v, t) => (f v).runOn t
      | (.error e, t) => (.error e, t) := by
  change (ExceptT.bind a f).run.run s = _
  simp only [ExceptT.bind, ExceptT.run, ExceptT.mk, StateT.run, runOn]
  change (match a s with | (r, t) => ExceptT.bindCont f r t) = _
  rcases a s with ⟨r, t⟩
  cases r <;> rfl

theorem runOn_pop (s : Stack Value) : pop.runOn s =
    match s.pop with
    | (.ok v, t) => (.ok v, t)
    | (.error u, t) => (.error (.underflow u), t) := rfl

theorem runOn_popTwo (s : Stack Value) : popTwo.runOn s =
    match s.popTwo with
    | (.ok p, t) => (.ok p, t)
    | (.error u, t) => (.error (.underflow u), t) := rfl

/-- On every stack that holds the values, the action has the outcome that is given, and leaves a
stack that holds the values given with it. -/
def Computes (a : Action α) (vs : List Value) : Except Failure (α × List Value) → Prop
  | .ok (v, ws) => ∀ s : Stack Value, s.Holds vs → ∃ t, a.runOn s = (.ok v, t) ∧ t.Holds ws
  | .error e => ∀ s : Stack Value, s.Holds vs → ∃ t, a.runOn s = (.error e, t)

def Effects (a : Action Unit) (vs : List Value) (out : Except Failure (List Value)) : Prop :=
  a.Computes vs (out.map ((), ·))

theorem computes_pure (v : α) (vs : List Value) : (pure v : Action α).Computes vs (.ok (v, vs)) :=
  fun s hs => ⟨s, rfl, hs⟩

theorem computes_fail (e : Failure) (vs : List Value) :
    (fail e : Action α).Computes vs (.error e) :=
  fun s _ => ⟨s, rfl⟩

theorem computes_ofFault (r : Except Fault α) (vs : List Value) :
    (ofFault r).Computes vs ((Failure.lift r).map (·, vs)) := by
  cases r with
  | ok v => exact computes_pure v vs
  | error f => exact computes_fail (.fault f) vs

theorem computes_push (v : Value) (vs : List Value) : (push v).Computes vs (.ok ((), v :: vs)) :=
  fun _ hs => ⟨_, rfl, hs.push v⟩

theorem computes_pop (v : Value) (vs : List Value) : pop.Computes (v :: vs) (.ok (v, vs)) := by
  intro s hs
  obtain ⟨t, popped, ht⟩ := hs.pop_cons
  refine ⟨t, ?_, ht⟩
  rw [runOn_pop, popped]

theorem computes_pop_nil : pop.Computes [] (.error (.underflow .pop)) := by
  intro s hs
  refine ⟨s, ?_⟩
  rw [runOn_pop, hs.pop_nil]

theorem computes_popTwo (left right : Value) (vs : List Value) :
    popTwo.Computes (right :: left :: vs) (.ok ((left, right), vs)) := by
  intro s hs
  obtain ⟨t, popped, ht⟩ := hs.popTwo_cons
  refine ⟨t, ?_, ht⟩
  rw [runOn_popTwo, popped]

theorem computes_popTwo_short (vs : List Value) (short : vs.length < 2) :
    popTwo.Computes vs (.error (.underflow .pop)) := by
  intro s hs
  obtain ⟨t, popped, _⟩ := hs.popTwo_short short
  refine ⟨t, ?_⟩
  rw [runOn_popTwo, popped]

theorem Computes.bind {a : Action α} {f : α → Action β} {vs ws : List Value} {v : α}
    {out : Except Failure (β × List Value)} (first : a.Computes vs (.ok (v, ws)))
    (second : (f v).Computes ws out) : (a >>= f).Computes vs out := by
  cases out with
  | ok p =>
    intro s hs
    obtain ⟨t, ran, ht⟩ := first s hs
    obtain ⟨u, rest, hu⟩ := second t ht
    exact ⟨u, by rw [runOn_bind, ran]; exact rest, hu⟩
  | error e =>
    intro s hs
    obtain ⟨t, ran, ht⟩ := first s hs
    obtain ⟨u, rest⟩ := second t ht
    exact ⟨u, by rw [runOn_bind, ran]; exact rest⟩

theorem Computes.bind_error {a : Action α} {f : α → Action β} {vs : List Value} {e : Failure}
    (first : a.Computes vs (.error e)) : (a >>= f).Computes vs (.error e) := by
  intro s hs
  obtain ⟨t, ran⟩ := first s hs
  exact ⟨t, by rw [runOn_bind, ran]⟩

theorem Effects.runs {a : Action Unit} {vs ws : List Value} {out : Except Failure (List Value)}
    (effects : a.Effects vs out) (ends : out = .ok ws) {s : Stack Value} (holds : s.Holds vs) :
    ∃ t, a.runOn s = (.ok (), t) ∧ t.Holds ws := by
  subst ends
  exact effects s holds

theorem Effects.fails {a : Action Unit} {vs : List Value} {out : Except Failure (List Value)}
    {e : Failure} (effects : a.Effects vs out) (ends : out = .error e) {s : Stack Value}
    (holds : s.Holds vs) : ∃ t, a.runOn s = (.error e, t) := by
  subst ends
  exact effects s holds

theorem effects_push (v : Value) (vs : List Value) : (push v).Effects vs (.ok (v :: vs)) :=
  computes_push v vs

def Gives (a : Action Unit) (vs : List Value) (r : Except Failure Value) : Prop :=
  a.Effects vs (r.map (· :: vs))

theorem gives_push (v : Value) (vs : List Value) : (push v).Gives vs (.ok v) := computes_push v vs

theorem gives_fail (e : Failure) (vs : List Value) : (fail e).Gives vs (.error e) :=
  computes_fail e vs

theorem gives_ofFault (r : Except Fault Value) (vs : List Value) :
    (ofFault r >>= push).Gives vs (Failure.lift r) := by
  have found := computes_ofFault r vs
  cases r with
  | ok v => exact found.bind (computes_push v vs)
  | error f => exact found.bind_error

theorem effects_swap (left right : Value) (below : List Value) :
    swap.Effects (right :: left :: below) (.ok (left :: right :: below)) :=
  (computes_popTwo left right below).bind
    ((computes_push right below).bind (computes_push left (right :: below)))

end Action

open Postfix.Action

/-! ### Every operator computes its list function -/

theorem FloatOp.effects_apply (dtype : Option DType) (op : FloatOp) (vs : List Value) :
    (op.apply dtype).Effects vs (op.onList dtype vs) := by
  cases op with
  | binary op =>
    match vs with
    | right :: left :: below =>
      exact (computes_popTwo left right below).bind (gives_ofFault _ below)
    | [] => exact (computes_popTwo_short [] (by simp)).bind_error
    | [v] => exact (computes_popTwo_short [v] (by simp)).bind_error
  | unary op =>
    match vs with
    | v :: below => exact (computes_pop v below).bind (gives_ofFault _ below)
    | [] => exact computes_pop_nil.bind_error
  | swap =>
    match vs with
    | right :: left :: below => exact effects_swap left right below
    | [] => exact (computes_popTwo_short [] (by simp)).bind_error
    | [v] => exact (computes_popTwo_short [v] (by simp)).bind_error
  | zero => exact effects_push _ vs
  | one => exact effects_push _ vs

namespace IntegerOp

theorem gives_pushChecked (dtype : Option DType) (result : Int) (fault : ArithmeticFault)
    (sample : Int) (operands : List Int) (vs : List Value) :
    (pushChecked dtype result fault sample operands).Gives vs
      (checked dtype result fault sample operands) := by
  unfold pushChecked checked
  cases rangeOf dtype sample with
  | error f => exact (computes_fail (.fault f) vs).bind_error
  | ok t =>
    refine (computes_pure t vs).bind ?_
    dsimp only
    split
    · exact gives_push (.word t result) vs
    · exact gives_fail (.arithmetic fault operands) vs

theorem gives_binary (dtype : Option DType) (op : IntegerBinary) (left right : Value)
    (below : List Value) :
    (do
      let l ← ofFault (NumericType.integerPart left)
      let r ← ofFault (NumericType.integerPart right)
      match op.exact (elementBits dtype) l r with
      | .error e => fail (.arithmetic e [l, r])
      | .ok result => pushChecked dtype result op.overflow l [l, r]).Gives below
        (combine dtype op left right) := by
  unfold combine
  cases NumericType.integerPart left with
  | error f => exact (computes_fail (.fault f) below).bind_error
  | ok l =>
    refine (computes_pure l below).bind ?_
    cases NumericType.integerPart right with
    | error f => exact (computes_fail (.fault f) below).bind_error
    | ok r =>
      refine (computes_pure r below).bind ?_
      dsimp only [combineInts]
      cases op.exact (elementBits dtype) l r with
      | error e => exact gives_fail (.arithmetic e [l, r]) below
      | ok result => exact gives_pushChecked dtype result op.overflow l [l, r] below

theorem gives_neg (dtype : Option DType) (v : Value) (below : List Value) :
    (do
      let n ← ofFault (NumericType.integerPart v)
      pushChecked dtype (-n) .negOverflow n [n]).Gives below (negate dtype v) := by
  unfold negate
  cases NumericType.integerPart v with
  | error f => exact (computes_fail (.fault f) below).bind_error
  | ok n => exact (computes_pure n below).bind (gives_pushChecked dtype (-n) _ n [n] below)

theorem effects_apply (dtype : Option DType) (op : IntegerOp) (vs : List Value) :
    (op.apply dtype).Effects vs (op.onList dtype vs) := by
  cases op with
  | binary op =>
    match vs with
    | right :: left :: below =>
      exact (computes_popTwo left right below).bind (gives_binary dtype op left right below)
    | [] => exact (computes_popTwo_short [] (by simp)).bind_error
    | [v] => exact (computes_popTwo_short [v] (by simp)).bind_error
  | neg =>
    match vs with
    | v :: below => exact (computes_pop v below).bind (gives_neg dtype v below)
    | [] => exact computes_pop_nil.bind_error
  | swap =>
    match vs with
    | right :: left :: below => exact effects_swap left right below
    | [] => exact (computes_popTwo_short [] (by simp)).bind_error
    | [v] => exact (computes_popTwo_short [v] (by simp)).bind_error
  | zero => exact effects_push _ vs
  | one => exact effects_push _ vs

end IntegerOp

theorem OneTwoOp.effects_apply (op : OneTwoOp) (vs : List Value) :
    op.apply.Effects vs (op.onList vs) := by
  match vs with
  | right :: left :: below =>
    refine (computes_popTwo left right below).bind ?_
    simp only [onList, combine]
    -- By the digits: none, then the pairs in order, of which each operator works out one.
    cases op with
    | add =>
      rcases digits? left right with _ | ⟨_ | _, _ | _⟩
      · exact computes_fail _ below
      · exact effects_push _ below
      all_goals exact computes_fail _ below
    | sub =>
      rcases digits? left right with _ | ⟨_ | _, _ | _⟩
      · exact computes_fail _ below
      · exact computes_fail _ below
      · exact computes_fail _ below
      · exact effects_push _ below
      · exact computes_fail _ below
  | [] => exact (computes_popTwo_short [] (by simp)).bind_error
  | [v] => exact (computes_popTwo_short [v] (by simp)).bind_error

theorem TableOp.computes_popMany (n : Nat) (vs : List Value) :
    (popMany n).Computes vs
      (if vs.length < n then .error (.underflow .pop) else .ok (vs.take n, vs.drop n)) := by
  induction n generalizing vs with
  | zero => exact computes_pure [] vs
  | succ n ih =>
    cases vs with
    | nil => exact computes_pop_nil.bind_error
    | cons v vs =>
      refine (computes_pop v vs).bind ?_
      have rest := ih vs
      by_cases short : vs.length < n
      · simp only [short, if_true] at rest
        simp only [List.length_cons, Nat.add_lt_add_iff_right, short, if_true]
        exact rest.bind_error
      · simp only [short, if_false] at rest
        simp only [List.length_cons, Nat.add_lt_add_iff_right, short, if_false]
        exact rest.bind (computes_pure _ _)

theorem TableOp.effects_pushOutputs (dtype : Option DType) (taken : List Value) (is : List Nat)
    (vs : List Value) :
    (pushOutputs dtype taken is).Effects vs (withOutputs dtype taken is vs) := by
  induction is generalizing vs with
  | nil => exact computes_pure () vs
  | cons i is ih =>
    simp only [withOutputs]
    cases found : output dtype taken i with
    | error f =>
      refine Computes.bind_error ?_
      rw [found]
      exact computes_fail (.fault f) vs
    | ok v =>
      have known : (pure v : Action Value).Computes vs (.ok (v, vs)) := computes_pure v vs
      refine Computes.bind ?_ ((computes_push v vs).bind (ih (v :: vs)))
      rw [found]
      exact known

theorem TableOp.effects_apply (dtype : Option DType) (op : TableOp) (vs : List Value) :
    (op.apply dtype).Effects vs (op.onList dtype vs) := by
  have taken := computes_popMany op.pops vs
  unfold onList
  by_cases short : vs.length < op.pops
  · simp only [short, if_true] at taken ⊢
    exact taken.bind_error
  · simp only [short, if_false] at taken ⊢
    exact taken.bind (effects_pushOutputs ..)

theorem Operator.effects_apply (dtype : Option DType) (op : Operator) (vs : List Value) :
    (op.apply dtype).Effects vs (op.onList dtype vs) := by
  cases op with
  | float op => exact op.effects_apply dtype vs
  | integer op => exact op.effects_apply dtype vs
  | oneTwo op => exact op.effects_apply vs
  | table op => exact op.effects_apply dtype vs

/-! ### Runs -/

namespace Expression

theorem runList_append (kind : OperandKind) (c : Container) (done rest : List Token)
    (stack : List Value) :
    runList kind c (done ++ rest) stack =
      (runList kind c done stack).bind (runList kind c rest) := by
  induction done generalizing stack with
  | nil => rfl
  | cons tok done ih =>
    simp only [List.cons_append, runList]
    cases onList kind c tok stack with
    | error f => rfl
    | ok vs => exact ih vs

theorem effects_perform (kind : OperandKind) (c : Container) (t : Token) (vs : List Value) :
    (perform kind c t).Effects vs (onList kind c t vs) := by
  cases t with
  | operand value text => exact effects_push value vs
  | reference v =>
    simp only [perform, onList]
    cases resolve kind c v with
    | ok operand => exact effects_push operand vs
    | error e => exact computes_fail e vs
  | operator op => exact op.effects_apply kind.dtype? vs

theorem effects_performAll (kind : OperandKind) (c : Container) (ts : List Token)
    (vs : List Value) : (performAll kind c ts).Effects vs (runList kind c ts vs) := by
  induction ts generalizing vs with
  | nil => exact computes_pure () vs
  | cons t rest ih =>
    have first := effects_perform kind c t vs
    unfold Effects at first
    simp only [performAll, runList]
    cases step : onList kind c t vs with
    | error e =>
      rw [step] at first
      exact first.bind_error
    | ok us =>
      rw [step] at first
      exact first.bind (ih us)

theorem evaluate_eq_runList (e : Expression) (c : Container) :
    e.evaluate c =
      match runList e.kind c e.tokens [] with
      | .error f => .error f
      | .ok [] => .error (.underflow (.noResult e.text))
      | .ok (v :: _) => .ok v := by
  have whole := effects_performAll e.kind c e.tokens []
  have empty := Stack.holds_withCapacity (α := Value) e.maxStack
  unfold evaluate run
  cases ran : runList e.kind c e.tokens [] with
  | error f =>
    obtain ⟨t, outcome⟩ := whole.fails ran empty
    rw [outcome]
  | ok vs =>
    obtain ⟨t, outcome, ht⟩ := whole.runs ran empty
    rw [outcome]
    simp only [ht.top?]
    cases vs <;> rfl

end Expression
end Postfix
