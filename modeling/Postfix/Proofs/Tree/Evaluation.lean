import Postfix.Proofs.Tree.Spelling

/-! The value of a tree, and the run of its spelling.
The value is given by recursion on the tree: the operands are worked out from left to right, the
first failure among them is the failure of the tree, and otherwise the operator is applied to the
values of its children in their order. No stack is mentioned. The run of the spelling comes to the
same, above whatever the stack holds already. -/
namespace Postfix

/-! ### Operators on their operands -/

def FloatOp.result (dtype : Option DType) : FloatOp → List Value → Except Failure Value
  | binary op, [left, right] => Failure.lift (op.combine left right)
  | unary op, [v] => Failure.lift (op.transform v)
  | zero, [] => .ok (constant dtype 0)
  | one, [] => .ok (constant dtype 1)
  | _, _ => .error (.underflow .pop)

def IntegerOp.result (dtype : Option DType) : IntegerOp → List Value → Except Failure Value
  | binary op, [left, right] => combine dtype op left right
  | neg, [v] => negate dtype v
  | zero, [] => .ok (constant dtype 0)
  | one, [] => .ok (constant dtype 1)
  | _, _ => .error (.underflow .pop)

def OneTwoOp.result (op : OneTwoOp) : List Value → Except Failure Value
  | [left, right] => op.combine left right
  | _ => .error (.underflow .pop)

/-- A row of a table gives back the operand that it takes first, which is the last one. -/
def TableOp.result (dtype : Option DType) (_ : TableOp) (operands : List Value) :
    Except Failure Value :=
  Failure.lift (output dtype operands.reverse 0)

def Operator.result (dtype : Option DType) : Operator → List Value → Except Failure Value
  | float op => op.result dtype
  | integer op => op.result dtype
  | oneTwo op => op.result
  | table op => op.result dtype

theorem FloatOp.onList_result {op : FloatOp} (single : op.arity.2 = 1) (dtype : Option DType)
    {operands : List Value} (counted : operands.length = op.arity.1) (below : List Value) :
    op.onList dtype (operands.reverse ++ below) = (op.result dtype operands).map (· :: below) := by
  cases op with
  | binary op => match operands, counted with | [left, right], _ => rfl
  | unary op => match operands, counted with | [v], _ => rfl
  | swap => cases single
  | zero => match operands, counted with | [], _ => rfl
  | one => match operands, counted with | [], _ => rfl

theorem IntegerOp.onList_result {op : IntegerOp} (single : op.arity.2 = 1) (dtype : Option DType)
    {operands : List Value} (counted : operands.length = op.arity.1) (below : List Value) :
    op.onList dtype (operands.reverse ++ below) = (op.result dtype operands).map (· :: below) := by
  cases op with
  | binary op => match operands, counted with | [left, right], _ => rfl
  | neg => match operands, counted with | [v], _ => rfl
  | swap => cases single
  | zero => match operands, counted with | [], _ => rfl
  | one => match operands, counted with | [], _ => rfl

theorem TableOp.onList_result {op : TableOp} (keeps : op.KeepsWord) (single : op.generated = 1)
    (dtype : Option DType) {operands : List Value} (counted : operands.length = op.needed)
    (below : List Value) :
    op.onList dtype (operands.reverse ++ below) = (op.result dtype operands).map (· :: below) := by
  have taken : operands.reverse.length = op.pops := by simp [counted, keeps.1]
  have pushed : List.range op.pushes = [0] := by simp [keeps.2, single]
  have enough : ¬ (operands.reverse ++ below).length < op.pops := by simp [← taken]
  rw [onList, if_neg enough, ← taken, List.take_left, List.drop_left, pushed, withOutputs, result]
  cases output dtype operands.reverse 0 <;> rfl

theorem Operator.onList_result {op : Operator} (keeps : op.KeepsWord) (single : op.generated = 1)
    (dtype : Option DType) {operands : List Value} (counted : operands.length = op.needed)
    (below : List Value) :
    op.onList dtype (operands.reverse ++ below) = (op.result dtype operands).map (· :: below) := by
  cases op with
  | float op => exact op.onList_result single dtype counted below
  | integer op => exact op.onList_result single dtype counted below
  | oneTwo op => match operands, counted with | [left, right], _ => rfl
  | table row => exact row.onList_result keeps single dtype counted below

/-! ### The value of a tree -/

def Token.result (kind : OperandKind) (c : Container) : Token → List Value → Except Failure Value
  | .operand value _, _ => .ok value
  | .reference v, _ => Expression.resolve kind c v
  | .operator op, operands => op.result kind.dtype? operands

namespace Tree

def inOrder : List (Except Failure Value) → Except Failure (List Value)
  | [] => .ok []
  | .error e :: _ => .error e
  | .ok v :: rest => (inOrder rest).map (v :: ·)

def value (kind : OperandKind) (c : Container) : Tree → Except Failure Value
  | node t cs => (inOrder (List.ofFn fun i => (cs i).value kind c)).bind (t.result kind c)

theorem value_eq (kind : OperandKind) (c : Container) (T : Tree) :
    T.value kind c = (inOrder (T.children.map (value kind c))).bind (T.root.result kind c) := by
  cases T with
  | node t cs => simp [value, children, root, List.map_ofFn, Function.comp_def]

theorem length_inOrder {rs : List (Except Failure Value)} {vs : List Value}
    (ok : inOrder rs = .ok vs) : vs.length = rs.length := by
  induction rs generalizing vs with
  | nil => cases ok; rfl
  | cons r rs ih =>
    cases r with
    | error e => cases ok
    | ok v =>
      rw [inOrder] at ok
      cases rest : inOrder rs with
      | error e => rw [rest] at ok; cases ok
      | ok us =>
        rw [rest] at ok
        cases ok
        simp [ih rest]

/-! ### The run of a spelling -/

section

variable {kind : OperandKind} {c : Container}

open Expression

/-- The run of the spelling puts the value of the tree onto the stack, or ends with its failure. -/
def Runs (kind : OperandKind) (c : Container) (T : Tree) : Prop :=
  ∀ rest vs, runList kind c (T.postorder ++ rest) vs =
    (T.value kind c).bind fun v => runList kind c rest (v :: vs)

theorem runList_spelling {Ts : List Tree} (each : ∀ T ∈ Ts, Runs kind c T) (rest : List Token)
    (vs : List Value) :
    runList kind c (spelling Ts ++ rest) vs =
      (inOrder (Ts.map (value kind c))).bind fun us => runList kind c rest (us.reverse ++ vs) := by
  induction Ts generalizing vs with
  | nil => rfl
  | cons T Ts ih =>
    have later := ih fun U member => each U (List.mem_cons_of_mem T member)
    rw [spelling_cons, List.append_assoc, each T List.mem_cons_self, List.map_cons]
    cases T.value kind c with
    | error e => rfl
    | ok v =>
      simp only [Except.bind, inOrder, later]
      cases inOrder (Ts.map (value kind c)) with
      | error e => rfl
      | ok us => simp [Except.map]

theorem onList_result {t : Token} (keeps : ∀ op, t = .operator op → op.KeepsWord)
    (single : SingleValued [t]) {operands : List Value} (counted : operands.length = t.needed)
    (vs : List Value) :
    onList kind c t (operands.reverse ++ vs) = (t.result kind c operands).map (· :: vs) := by
  cases t with
  | operator op =>
    exact op.onList_result (keeps op rfl) (single op (by simp)) kind.dtype? counted vs
  | operand value text => match operands, counted with | [], _ => rfl
  | reference v => match operands, counted with | [], _ => rfl

theorem runs (T : Tree) (keeps : ∀ op, .operator op ∈ T.postorder → op.KeepsWord)
    (single : SingleValued T.postorder) : Runs kind c T := by
  induction T using children_induction with
  | step T ih =>
    rw [postorder_eq] at keeps single
    have each : ∀ C ∈ T.children, Runs kind c C := fun C member =>
      ih C member
        (fun op h => keeps op (List.mem_append_left _ (List.mem_flatMap.mpr ⟨C, member, h⟩)))
        (singleValued_of_mem single.left member)
    intro rest vs
    rw [postorder_eq, List.append_assoc, runList_spelling each, value_eq]
    cases worked : inOrder (T.children.map (value kind c)) with
    | error e => rfl
    | ok us =>
      have counted : us.length = T.root.needed := by simp [length_inOrder worked]
      have keepsRoot : ∀ op, T.root = .operator op → op.KeepsWord :=
        fun op h => keeps op (by simp [h])
      simp only [Except.bind, List.singleton_append, runList]
      rw [onList_result keepsRoot single.right counted]
      cases T.root.result kind c us <;> rfl

end

theorem evaluate_eq_value {family : Family} {kind : OperandKind} {vars : VariableKind}
    (keeps : family.KeepsWord) {raw : List String} {e : Expression}
    (built : Expression.ofTokens raw family kind vars = .ok e) {T : Tree}
    (spelled : T.postorder = e.tokens) (single : SingleValued e.tokens) (c : Container) :
    e.evaluate c = T.value kind c := by
  have kept : ∀ op, .operator op ∈ T.postorder → op.KeepsWord := by
    intro op member
    rw [spelled] at member
    exact keeps.operator (Expression.mem_operators built member)
  have runs : Runs kind c T := T.runs kept (spelled ▸ single)
  have ran := runs [] []
  rw [List.append_nil, spelled] at ran
  obtain ⟨_, _, _, sameKind, _, _⟩ := Expression.ofTokens_eq_ok.mp built
  rw [Expression.evaluate_eq_runList, sameKind, ran]
  cases T.value kind c <;> rfl

/-- The check accepts exactly the spellings of trees, each of one tree only. Its depth is that of
the tree, and an evaluation gives the value of the tree or its first failure from the left. -/
theorem postfix_notation (ts : List Token) (single : SingleValued ts) :
    ((∃ depth, Arity.check ts = .ok depth) ↔ ∃ T : Tree, T.postorder = ts) ∧
      (∀ T U : Tree, T.postorder = ts → U.postorder = ts → T = U) ∧
      ∀ T : Tree, T.postorder = ts →
        Arity.check ts = .ok T.depth ∧
          ∀ (family : Family) (kind : OperandKind) (vars : VariableKind) (raw : List String)
            (e : Expression), family.KeepsWord →
            Expression.ofTokens raw family kind vars = .ok e → e.tokens = ts →
            ∀ c, e.evaluate c = T.value kind c := by
  refine ⟨⟨?_, ?_⟩, ?_, ?_⟩
  · rintro ⟨depth, checked⟩
    exact exists_postorder single checked
  · rintro ⟨T, rfl⟩
    exact ⟨T.depth, T.check_postorder single⟩
  · intro T U spelled alike
    exact postorder_injective (spelled.trans alike.symm)
  · rintro T rfl
    refine ⟨T.check_postorder single, fun family kind vars raw e keeps built tokens c => ?_⟩
    exact evaluate_eq_value keeps built tokens.symm (tokens ▸ single) c

/-- The earlier operand is the left one, and the product is worked out before the difference. -/
theorem postfix_notation_left_operand :
    ∃ e, Expression.ofTokens ["7", "$0", "2", "*", "-"] .integer (.numeric .int8) .index = .ok e ∧
      SingleValued e.tokens ∧
      ∃ T : Tree, T.postorder = e.tokens ∧ T.depth = 3 ∧
        (∀ c, e.evaluate c = T.value (.numeric .int8) c) ∧
        e.evaluate (.positional [.int 3]) = .ok (.word .int8 1) := by
  let e : Expression :=
    ⟨[.operand (.word .int8 7) "7", .reference (.index 0), .operand (.word .int8 2) "2",
      .operator (.integer (.binary .mul)), .operator (.integer (.binary .sub))], 3,
      .numeric .int8, .integer, .index⟩
  have built :
      Expression.ofTokens ["7", "$0", "2", "*", "-"] .integer (.numeric .int8) .index = .ok e := by
    with_unfolding_all rfl
  have checked : Arity.check e.tokens = .ok 3 := (Expression.ofTokens_eq_ok.mp built).2.2.1
  have single : SingleValued e.tokens := by
    intro op member
    simp only [e, List.mem_cons, Token.operator.injEq, reduceCtorEq, List.not_mem_nil, or_false,
      false_or] at member
    rcases member with rfl | rfl <;> rfl
  obtain ⟨accepts, _, readings⟩ := postfix_notation e.tokens single
  obtain ⟨T, spelled⟩ := accepts.mp ⟨3, checked⟩
  obtain ⟨depth, values⟩ := readings T spelled
  have values := values .integer (.numeric .int8) .index _ e trivial built rfl
  refine ⟨e, built, single, T, spelled, ?_, values, ?_⟩
  · rw [checked] at depth
    exact (Except.ok.inj depth).symm
  · rw [Expression.evaluate_eq_runList]
    with_unfolding_all rfl

end Tree
end Postfix
