import Postfix.Proofs.Depth
import Postfix.Proofs.RoundTrip
import Postfix.Proofs.Tree.Evaluation

/-! Expressions run on a stack that is not empty, and the composition of two of them.
A checked sequence of tokens is a program that puts one value onto the stack. It does so above any
values whatever, which it neither reads nor moves at any moment of its run; operators with two
results are no exception, though no tree can be read off a sequence that has them. Two expressions
one after the other are therefore the two operands of the operator that follows. -/
namespace Postfix

/-! ### What lies below -/

/-- On stacks with as many values as are needed on top, the function replaces these values by as
many as it generates, and what lies below makes no difference. -/
structure Exchanges (needed generated : Nat) (f : List Value → Except Failure (List Value)) :
    Prop where
  length_eq : ∀ {taken given : List Value}, taken.length = needed → f taken = .ok given →
    given.length = generated
  above : ∀ taken : List Value, taken.length = needed → ∀ below,
    f (taken ++ below) = (f taken).map (· ++ below)

namespace Exchanges

variable {n m k : Nat} {f g : List Value → Except Failure (List Value)}

/-- It is enough to know the outcome above any values in terms of what is taken alone. -/
theorem of_above (result : List Value → Except Failure (List Value))
    (counts : ∀ taken given : List Value, taken.length = n → result taken = .ok given →
      given.length = m)
    (gives : ∀ taken : List Value, taken.length = n → ∀ below,
      f (taken ++ below) = (result taken).map (· ++ below)) : Exchanges n m f := by
  have alone {taken : List Value} (counted : taken.length = n) : f taken = result taken := by
    have nothing := gives taken counted []
    rw [List.append_nil] at nothing
    rw [nothing]
    cases result taken <;> simp [Except.map]
  constructor
  · intro taken given counted ran
    exact counts taken given counted ((alone counted).symm.trans ran)
  · intro taken counted below
    rw [gives taken counted, alone counted]

theorem of_single (result : List Value → Except Failure Value)
    (gives : ∀ operands : List Value, operands.length = n → ∀ below,
      f (operands.reverse ++ below) = (result operands).map (· :: below)) : Exchanges n 1 f := by
  apply of_above fun taken => (result taken.reverse).map ([·])
  · intro taken given counted ran
    obtain ⟨v, _, rfl⟩ := Except.map_eq_ok.mp ran
    rfl
  · intro taken counted below
    rw [Except.map_map]
    simpa using gives taken.reverse (by simpa using counted) below

theorem weaken (exchanges : Exchanges n m f) (more : Nat) : Exchanges (n + more) (m + more) f := by
  apply of_above fun taken => (f (taken.take n)).map (· ++ taken.drop n)
  · intro taken given counted ran
    obtain ⟨upper, first, rfl⟩ := Except.map_eq_ok.mp ran
    have upperLength : upper.length = m := exchanges.length_eq (by simp [counted]) first
    simp [upperLength, counted]
  · intro taken counted below
    rw [Except.map_map]
    simp only [List.append_assoc]
    rw [← exchanges.above _ (by simp [counted]), ← List.append_assoc, List.take_append_drop]

theorem bind (first : Exchanges n m f) (second : Exchanges m k g) :
    Exchanges n k fun vs => (f vs).bind g := by
  constructor
  · intro taken given counted ran
    obtain ⟨middle, start, rest⟩ := Except.bind_eq_ok.mp ran
    exact second.length_eq (first.length_eq counted start) rest
  · intro taken counted below
    simp only [first.above taken counted]
    cases start : f taken with
    | error e => rfl
    | ok middle => exact second.above middle (first.length_eq counted start) below

end Exchanges

/-! ### Operators -/

theorem TableOp.withOutputs_append (dtype : Option DType) (taken : List Value) (is : List Nat)
    (vs below : List Value) :
    withOutputs dtype taken is (vs ++ below) = (withOutputs dtype taken is vs).map (· ++ below) := by
  induction is generalizing vs with
  | nil => rfl
  | cons i is ih =>
    simp only [withOutputs]
    cases output dtype taken i with
    | error f => rfl
    | ok v => exact ih (v :: vs)

theorem TableOp.length_withOutputs {dtype : Option DType} {taken : List Value} {is : List Nat}
    {vs given : List Value} (ran : withOutputs dtype taken is vs = .ok given) :
    given.length = vs.length + is.length := by
  induction is generalizing vs with
  | nil => cases ran; rfl
  | cons i is ih =>
    simp only [withOutputs] at ran
    split at ran
    · cases ran
    · have length := ih ran
      simp only [List.length_cons] at length ⊢
      omega

theorem TableOp.exchanges {op : TableOp} (keeps : op.KeepsWord) (dtype : Option DType) :
    Exchanges op.needed op.generated (op.onList dtype) := by
  obtain ⟨pops, pushes⟩ := keeps
  apply Exchanges.of_above fun taken => withOutputs dtype taken (List.range op.pushes) []
  · intro taken given counted ran
    simpa [pushes] using length_withOutputs ran
  · intro taken counted below
    have enough : ¬ (taken ++ below).length < op.pops := by simp [pops, counted]
    rw [onList, if_neg enough, pops, ← counted, List.take_left, List.drop_left,
      ← withOutputs_append, List.nil_append]

def Swaps (f : List Value → Except Failure (List Value)) : Prop :=
  ∀ left right below, f (right :: left :: below) = .ok (left :: right :: below)

theorem Swaps.exchanges {f : List Value → Except Failure (List Value)} (swaps : Swaps f) :
    Exchanges 2 2 f := by
  constructor
  · intro taken given counted ran
    obtain ⟨right, left, rfl⟩ := List.length_eq_two.mp counted
    rw [swaps] at ran
    cases ran
    rfl
  · intro taken counted below
    obtain ⟨right, left, rfl⟩ := List.length_eq_two.mp counted
    have alone : f [right, left] = .ok [left, right] := swaps left right []
    rw [alone]
    exact swaps left right below

theorem FloatOp.swaps (dtype : Option DType) : Swaps (FloatOp.swap.onList dtype) :=
  fun _ _ _ => rfl

theorem IntegerOp.swaps (dtype : Option DType) : Swaps (IntegerOp.swap.onList dtype) :=
  fun _ _ _ => rfl

theorem FloatOp.exchanges (op : FloatOp) (dtype : Option DType) :
    Exchanges op.arity.1 op.arity.2 (op.onList dtype) := by
  cases op with
  | swap => exact (FloatOp.swaps dtype).exchanges
  | _ => exact .of_single _ fun operands counted below => FloatOp.onList_result rfl dtype counted below

theorem IntegerOp.exchanges (op : IntegerOp) (dtype : Option DType) :
    Exchanges op.arity.1 op.arity.2 (op.onList dtype) := by
  cases op with
  | swap => exact (IntegerOp.swaps dtype).exchanges
  | _ =>
    exact .of_single _ fun operands counted below => IntegerOp.onList_result rfl dtype counted below

theorem Operator.exchanges {op : Operator} (keeps : op.KeepsWord) (dtype : Option DType) :
    Exchanges op.needed op.generated (op.onList dtype) := by
  cases op with
  | float op => exact op.exchanges dtype
  | integer op => exact op.exchanges dtype
  | oneTwo op =>
    exact .of_single _ fun operands counted below =>
      (oneTwo op).onList_result keeps rfl dtype counted below
  | table op => exact TableOp.exchanges keeps dtype

/-! ### Runs above other values -/

namespace Expression

section

variable {kind : OperandKind} {c : Container}

theorem onList_exchanges {t : Token} (keeps : ∀ op, t = .operator op → op.KeepsWord) {n m : Nat}
    (moved : Arity.step n t = some m) : Exchanges n m (onList kind c t) := by
  -- A token that is no operator takes nothing; the values there are all count as lying below.
  have operand {f : List Value → Except Failure (List Value)} (one : Exchanges 0 1 f) :
      Exchanges n (n + 1) f := by
    simpa [Nat.add_comm] using one.weaken n
  cases t with
  | operator op =>
    obtain ⟨enough, rfl⟩ := Arity.step_operator_eq_some.mp moved
    have own := (op.exchanges (keeps op rfl) kind.dtype?).weaken (n - op.needed)
    rw [Nat.add_sub_cancel' enough, Nat.add_comm] at own
    exact own
  | operand value text =>
    cases moved
    apply operand
    exact .of_single (fun _ => .ok value) fun operands counted below => by
      obtain rfl := List.eq_nil_of_length_eq_zero counted
      rfl
  | reference v =>
    cases moved
    apply operand
    exact .of_single (fun _ => resolve kind c v) fun operands counted below => by
      obtain rfl := List.eq_nil_of_length_eq_zero counted
      rfl

theorem runList_exchanges {ts : List Token} (keeps : ∀ op, .operator op ∈ ts → op.KeepsWord)
    {n m : Nat} (balanced : Arity.stackSizeFrom n ts = some m) :
    Exchanges n m (runList kind c ts) := by
  induction ts generalizing n with
  | nil =>
    cases balanced
    exact ⟨fun counted ran => by cases ran; exact counted, fun _ _ _ => rfl⟩
  | cons t ts ih =>
    simp only [Arity.stackSizeFrom, Option.bind_eq_some_iff] at balanced
    obtain ⟨next, moved, balanced⟩ := balanced
    have first : Exchanges n next (onList kind c t) :=
      onList_exchanges (fun op h => keeps op (by simp [h])) moved
    exact first.bind (ih (fun op h => keeps op (List.mem_cons_of_mem t h)) balanced)

end

section

variable {family : Family} {kind : OperandKind} {vars : VariableKind} {raw : List String}
  {e : Expression} {c : Container}

theorem runList_above (keeps : family.KeepsWord) (built : ofTokens raw family kind vars = .ok e)
    (c : Container) (vs : List Value) :
    runList e.kind c e.tokens vs = (e.evaluate c).map (· :: vs) := by
  have checked := (ofTokens_eq_ok.mp built).2.2.1
  have exchanges : Exchanges 0 1 (runList e.kind c e.tokens) :=
    runList_exchanges (fun op member => keeps.operator (mem_operators built member))
      (Arity.stackSizeFrom_of_checkFrom checked)
  have moved : runList e.kind c e.tokens vs = (runList e.kind c e.tokens []).map (· ++ vs) :=
    exchanges.above [] rfl vs
  rw [moved, evaluate_eq_runList]
  cases out : runList e.kind c e.tokens [] with
  | error f => rfl
  | ok ws =>
    obtain ⟨v, rfl⟩ := List.length_eq_one_iff.mp (exchanges.length_eq rfl out)
    rfl

theorem evaluate_eq_of_runList (keeps : family.KeepsWord)
    (built : ofTokens raw family kind vars = .ok e) {raw' : List String} {vars' : VariableKind}
    {e' : Expression} (built' : ofTokens raw' family kind vars' = .ok e') {c c' : Container}
    (same : runList e.kind c e.tokens [] = runList e'.kind c' e'.tokens []) :
    e.evaluate c = e'.evaluate c' := by
  rw [runList_above keeps built, runList_above keeps built'] at same
  exact Except.map_injective (fun _ _ alike => List.head_eq_of_cons_eq alike) same

end

end Expression

/-- The run of the expression from a stack that holds the values: they stay where they are, with
no more than the planned depth above them in a buffer with room for no more than that, and the run
ends with the value of the expression on top of them, or with its failure. -/
structure Expression.RunsAbove (e : Expression) (c : Container) (s : Stack Value)
    (vs : List Value) : Prop where
  kept : ∀ t ∈ (moves e.kind c e.tokens).moments s,
    (∃ above, above.length ≤ e.maxStack ∧ t.Holds (above ++ vs)) ∧
      t.capacity ≤ max s.capacity (e.maxStack + vs.length)
  value : ∀ v, e.evaluate c = .ok v →
    ∃ t, (performAll e.kind c e.tokens).runOn s = (.ok (), t) ∧ t.Holds (v :: vs)
  failure : ∀ f, e.evaluate c = .error f →
    ∃ t, (performAll e.kind c e.tokens).runOn s = (.error f, t)

namespace Expression

theorem runsAbove {family : Family} {kind : OperandKind} {vars : VariableKind} {raw : List String}
    {e : Expression} (keeps : family.KeepsWord) (built : ofTokens raw family kind vars = .ok e)
    (c : Container) {s : Stack Value} {vs : List Value} (holds : s.Holds vs) :
    e.RunsAbove c s vs := by
  have effects := effects_performAll e.kind c e.tokens vs
  have outcome := runList_above keeps built c vs
  have within := within_built (c := c) keeps built (List.append_nil e.tokens).symm
  have start : s.Holds ([] ++ vs) := holds
  refine ⟨within.moments_above start (Nat.zero_le _), ?_, ?_⟩
  · intro v value
    rw [value] at outcome
    exact effects.runs outcome holds
  · intro f failure
    rw [failure] at outcome
    exact effects.fails outcome holds

end Expression

/-! ### The depth of two sequences and what follows -/

namespace Arity

theorem one_le_of_checkFrom {position balance depth found : Nat} {ts : List Token}
    (checked : checkFrom position balance depth ts = .ok found) (reached : balance ≤ depth) :
    1 ≤ found := by
  induction ts generalizing position balance depth with
  | nil =>
    have last : balance = 1 := Option.some.inj (stackSizeFrom_of_checkFrom checked)
    rw [eq_of_checkFrom_nil checked, ← last]
    exact reached
  | cons t ts ih =>
    obtain ⟨next, _, checked⟩ := checkFrom_cons_eq_ok checked
    exact ih checked (Nat.le_max_right ..)

theorem step_above {balance next : Nat} {t : Token} (moved : step balance t = some next)
    (waiting : Nat) : step (balance + waiting) t = some (next + waiting) := by
  cases t with
  | operator op =>
    rw [step_operator_eq_some] at moved ⊢
    omega
  | operand value text =>
    cases moved
    simp [step, Nat.add_right_comm]
  | reference v =>
    cases moved
    simp [step, Nat.add_right_comm]

/-- With values waiting below, a checked sequence reaches its depth above them and leaves one value
more for what follows. -/
theorem checkFrom_above {position balance depth found : Nat} {ts : List Token}
    (checked : checkFrom position balance depth ts = .ok found) (start waiting reached : Nat)
    (rest : List Token) :
    checkFrom start (balance + waiting) (max reached (depth + waiting)) (ts ++ rest) =
      checkFrom (start + ts.length) (1 + waiting) (max reached (found + waiting)) rest := by
  induction ts generalizing position balance depth start with
  | nil =>
    have last : balance = 1 := Option.some.inj (stackSizeFrom_of_checkFrom checked)
    rw [eq_of_checkFrom_nil checked, last]
    rfl
  | cons t ts ih =>
    obtain ⟨next, moved, checked⟩ := checkFrom_cons_eq_ok checked
    have deeper : max (max reached (depth + waiting)) (next + waiting) =
        max reached (max depth next + waiting) := by omega
    simp only [List.cons_append, checkFrom, step_above moved waiting, deeper]
    rw [ih checked, List.length_cons, Nat.add_right_comm, Nat.add_assoc]

theorem check_two {ss ts : List Token} {m n : Nat} (first : check ss = .ok m)
    (second : check ts = .ok n) (rest : List Token) :
    check (ss ++ ts ++ rest) = checkFrom (ss.length + ts.length) 2 (max m (n + 1)) rest := by
  have some : max m (0 + 1) = m := Nat.max_eq_left (one_le_of_checkFrom first (Nat.le_refl 0))
  have left := checkFrom_above first 0 0 0 (ts ++ rest)
  have right := checkFrom_above second ss.length 1 m rest
  rw [some] at right
  simp only [Nat.add_zero, Nat.zero_add, Nat.max_self, Nat.zero_max] at left right
  rw [check, List.append_assoc, left, right]

end Arity

/-! ### Composition -/

theorem Family.IsStandard.swap {family : Family} (standard : family.IsStandard) :
    ∃ op, family.read "swap" = .ok op ∧ op.needed = 2 ∧ op.generated = 2 ∧
      ∀ dtype, Swaps (op.onList dtype) := by
  rcases standard with rfl | rfl
  · exact ⟨.float .swap, by decide, rfl, rfl, FloatOp.swaps⟩
  · exact ⟨.integer .swap, by decide, rfl, rfl, IntegerOp.swaps⟩

theorem Family.IsStandard.keepsWord {family : Family} (standard : family.IsStandard) :
    family.KeepsWord := by
  rcases standard with rfl | rfl <;> trivial

namespace Expression

/-- The raw tokens build an expression of the same types that has room for the one operand and then
for the other above its value, and gives the result for their values, or the first failure. -/
def Composes (first second : Expression) (raw : List String)
    (result : Value → Value → Except Failure Value) : Prop :=
  ∃ e, ofTokens raw first.family first.kind first.variableKind = .ok e ∧
    e.maxStack = max first.maxStack (second.maxStack + 1) ∧
    ∀ c, e.evaluate c =
      (first.evaluate c).bind fun v => (second.evaluate c).bind fun w => result v w

section

variable {family : Family} {kind : OperandKind} {vars : VariableKind} {raw₁ raw₂ : List String}
  {e₁ e₂ : Expression}

theorem runList_two (keeps : family.KeepsWord) (first : ofTokens raw₁ family kind vars = .ok e₁)
    (second : ofTokens raw₂ family kind vars = .ok e₂) (c : Container) (ts : List Token) :
    runList kind c (e₁.tokens ++ e₂.tokens ++ ts) [] =
      (e₁.evaluate c).bind fun v => (e₂.evaluate c).bind fun w => runList kind c ts [w, v] := by
  have above₁ := runList_above keeps first c
  have above₂ := runList_above keeps second c
  obtain ⟨_, _, _, kind₁, _, _⟩ := ofTokens_eq_ok.mp first
  obtain ⟨_, _, _, kind₂, _, _⟩ := ofTokens_eq_ok.mp second
  rw [kind₁] at above₁
  rw [kind₂] at above₂
  rw [runList_append, runList_append, above₁]
  cases e₁.evaluate c with
  | error f => rfl
  | ok v =>
    change (runList kind c e₂.tokens [v]).bind _ = (e₂.evaluate c).bind _
    rw [above₂]
    cases e₂.evaluate c <;> rfl

theorem composes (keeps : family.KeepsWord) (first : ofTokens raw₁ family kind vars = .ok e₁)
    (second : ofTokens raw₂ family kind vars = .ok e₂) {last : List String} {ts : List Token}
    (classified : List.Forall₂ (fun r t => classify family vars kind r = .ok t) last ts)
    (ends : ∀ position depth, 2 ≤ depth → Arity.checkFrom position 2 depth ts = .ok depth)
    {result : Value → Value → Except Failure Value}
    (gives : ∀ c v w, runList kind c ts [w, v] = (result v w).map fun r => [r]) :
    Composes e₁ e₂ (raw₁ ++ raw₂ ++ last) result := by
  have runs := runList_two keeps first second
  obtain ⟨accepted, classified₁, checked₁, rfl, rfl, rfl⟩ := ofTokens_eq_ok.mp first
  obtain ⟨_, classified₂, checked₂, _, _, _⟩ := ofTokens_eq_ok.mp second
  have deep : 2 ≤ max e₁.maxStack (e₂.maxStack + 1) := by
    have := Arity.one_le_of_checkFrom checked₂ (Nat.le_refl 0)
    omega
  have checked := (Arity.check_two checked₁ checked₂ ts).trans (ends _ _ deep)
  refine ⟨⟨e₁.tokens ++ e₂.tokens ++ ts, max e₁.maxStack (e₂.maxStack + 1), e₁.kind, e₁.family,
    e₁.variableKind⟩, ?_, rfl, fun c => ?_⟩
  · apply ofTokens_eq_ok.mpr
    exact ⟨accepted, List.rel_append (List.rel_append classified₁ classified₂) classified, checked,
      rfl, rfl, rfl⟩
  · rw [evaluate_eq_runList, runs]
    cases e₁.evaluate c with
    | error f => rfl
    | ok v =>
      cases e₂.evaluate c with
      | error f => rfl
      | ok w =>
        simp only [Except.bind, gives]
        cases result v w <;> rfl

theorem classify_symbol {raw : String} {op : Operator} (read : family.read raw = .ok op) :
    classify family vars kind raw = .ok (.operator op) := by
  simp only [classify, read]

theorem runList_operator {op : Operator} (keeps : op.KeepsWord) (two : op.needed = 2)
    (single : op.generated = 1) (c : Container) (v w : Value) :
    runList kind c [.operator op] [w, v] = (op.result kind.dtype? [v, w]).map fun r => [r] := by
  have counted : [v, w].length = op.needed := two.symm
  have worked : op.onList kind.dtype? [w, v] = (op.result kind.dtype? [v, w]).map fun r => [r] :=
    op.onList_result keeps single kind.dtype? counted []
  simp only [runList, onList, worked]
  cases op.result kind.dtype? [v, w] <;> rfl

/-- An expression works above any stack as it works alone, and two of them are the operands of an
operator that comes after them; an exchange before the operator makes the second the first. -/
theorem evaluate_composes (keeps : family.KeepsWord)
    (first : ofTokens raw₁ family kind vars = .ok e₁)
    (second : ofTokens raw₂ family kind vars = .ok e₂) :
    (∀ c s vs, s.Holds vs → e₁.RunsAbove c s vs) ∧
      ∀ symbol op, family.read symbol = .ok op → op.needed = 2 → op.generated = 1 →
        Composes e₁ e₂ (raw₁ ++ raw₂ ++ [symbol]) (fun v w => op.result kind.dtype? [v, w]) ∧
        (family.IsStandard →
          Composes e₁ e₂ (raw₁ ++ raw₂ ++ ["swap", symbol])
            fun v w => op.result kind.dtype? [w, v]) := by
  refine ⟨fun c s vs holds => runsAbove keeps first c holds, ?_⟩
  intro symbol op read two single
  have keepsOp : op.KeepsWord := keeps.operator (Family.mem_of_read read).1
  have moves : Arity.step 2 (.operator op) = some 1 :=
    Arity.step_operator_eq_some.mpr ⟨Nat.le_of_eq two, by rw [two, single]⟩
  constructor
  · apply composes keeps first second (.cons (classify_symbol read) .nil)
    · intro position depth deep
      have reached : max depth 1 = depth := by omega
      simp only [Arity.checkFrom, moves, reached]
      rfl
    · intro c v w
      exact runList_operator keepsOp two single c v w
  · intro standard
    obtain ⟨swap, swapRead, swapTwo, swapBoth, swaps⟩ := standard.swap
    have stays : Arity.step 2 (.operator swap) = some 2 :=
      Arity.step_operator_eq_some.mpr ⟨Nat.le_of_eq swapTwo, by rw [swapTwo, swapBoth]⟩
    apply composes keeps first second
      (.cons (classify_symbol swapRead) (.cons (classify_symbol read) .nil))
    · intro position depth deep
      have first : max depth 2 = depth := Nat.max_eq_left deep
      have reached : max depth 1 = depth := by omega
      simp only [Arity.checkFrom, stays, moves, first, reached]
      rfl
    · intro c v w
      have exchanged : onList kind c (.operator swap) [w, v] = .ok [v, w] := swaps _ v w []
      rw [runList, exchanged]
      exact runList_operator keepsOp two single c w v

end

/-- The values are minus four and one, and the exchange takes the first from the second. -/
theorem evaluate_composes_difference :
    Family.integer.KeepsWord ∧
      ∃ e₁ e₂, ofTokens ["9", "$0", "swap", "-"] .integer (.numeric .int8) .index = .ok e₁ ∧
        ofTokens ["one"] .integer (.numeric .int8) .index = .ok e₂ ∧
        (∀ c s vs, s.Holds vs → e₁.RunsAbove c s vs) ∧
        e₁.evaluate (.positional [.int 5]) = .ok (.word .int8 (-4)) ∧
        ∃ e, ofTokens ["9", "$0", "swap", "-", "one", "swap", "-"] .integer (.numeric .int8)
            .index = .ok e ∧
          e.maxStack = 2 ∧ e.evaluate (.positional [.int 5]) = .ok (.word .int8 5) := by
  let e₁ : Expression :=
    ⟨[.operand (.word .int8 9) "9", .reference (.index 0), .operator (.integer .swap),
      .operator (.integer (.binary .sub))], 2, .numeric .int8, .integer, .index⟩
  let e₂ : Expression := ⟨[.operator (.integer .one)], 1, .numeric .int8, .integer, .index⟩
  have first :
      ofTokens ["9", "$0", "swap", "-"] .integer (.numeric .int8) .index = .ok e₁ := by
    with_unfolding_all rfl
  have second : ofTokens ["one"] .integer (.numeric .int8) .index = .ok e₂ := by
    with_unfolding_all rfl
  have minus : Family.integer.read "-" = .ok (.integer (.binary .sub)) := by decide
  have keeps : Family.integer.KeepsWord := trivial
  have value₁ : e₁.evaluate (.positional [.int 5]) = .ok (.word .int8 (-4)) := by
    rw [evaluate_eq_runList]
    with_unfolding_all rfl
  have value₂ : e₂.evaluate (.positional [.int 5]) = .ok (.word .int8 1) := by
    rw [evaluate_eq_runList]
    with_unfolding_all rfl
  obtain ⟨above, composed⟩ := evaluate_composes keeps first second
  obtain ⟨e, built, depth, values⟩ := (composed "-" _ minus rfl rfl).2 (.inr rfl)
  refine ⟨keeps, e₁, e₂, first, second, above, value₁, e, built, depth, ?_⟩
  rw [values, value₁, value₂]
  with_unfolding_all rfl

end Expression
end Postfix
