import Postfix.Proofs.Balance
import Postfix.Proofs.Coercion
import Postfix.Proofs.Formula.Rows
import Postfix.Proofs.References

/-! How an evaluation ends, for the families that work on numbers.
The value is of the operand type. A failure comes from an operator of checked arithmetic or from a
variable: nothing is found for it, or what is found is refused. Only a value that escapes the
refusal ends the evaluation with a fault, and then it ends a run over the rows of a frame too. -/
namespace Postfix

/-! ### Operators on their operands -/

theorem FloatOp.onList_owned (op : FloatOp) {f : Format} {taken : List Value}
    (counted : taken.length = op.arity.1)
    (owned : ∀ v ∈ taken, (OperandKind.numeric (.float f)).owns v) (below : List Value) :
    ∃ vs, op.onList (some (.float f)) (taken ++ below) = .ok vs := by
  cases op with
  | binary op =>
    obtain ⟨right, left, rfl⟩ := List.length_eq_two.mp counted
    obtain ⟨y, rfl⟩ := NumericType.owns_float (owned right (by simp))
    obtain ⟨x, rfl⟩ := NumericType.owns_float (owned left (by simp))
    refine ⟨.float f (op.eval f x y) :: below, ?_⟩
    simp only [List.cons_append, List.nil_append, onList, FloatBinary.combine_float]
    rfl
  | unary op =>
    obtain ⟨v, rfl⟩ := List.length_eq_one_iff.mp counted
    obtain ⟨x, rfl⟩ := NumericType.owns_float (owned v (by simp))
    exact ⟨.float f (op.eval f x) :: below, rfl⟩
  | swap =>
    obtain ⟨right, left, rfl⟩ := List.length_eq_two.mp counted
    exact ⟨left :: right :: below, rfl⟩
  | zero => exact ⟨_, rfl⟩
  | one => exact ⟨_, rfl⟩

theorem IntegerOp.checked_eq_error {t : WordType} {result : Int} {fault : ArithmeticFault}
    (sample : Int) {operands : List Int} {below : List Value} {failure : Failure}
    (failed : (checked (some (.word t)) result fault sample operands).map (· :: below) =
      .error failure) : ∃ a ns, failure = .arithmetic a ns := by
  rw [checked_word] at failed
  split at failed <;> cases failed
  exact ⟨fault, operands, rfl⟩

theorem IntegerOp.onList_eq_error (op : IntegerOp) {t : WordType} {taken : List Value}
    (counted : taken.length = op.arity.1)
    (owned : ∀ v ∈ taken, (OperandKind.numeric (.word t)).owns v) {below : List Value}
    {failure : Failure} (failed : op.onList (some (.word t)) (taken ++ below) = .error failure) :
    ∃ a ns, failure = .arithmetic a ns := by
  cases op with
  | binary op =>
    obtain ⟨right, left, rfl⟩ := List.length_eq_two.mp counted
    obtain ⟨r, rfl⟩ := NumericType.owns_word (owned right (by simp))
    obtain ⟨l, rfl⟩ := NumericType.owns_word (owned left (by simp))
    simp only [List.cons_append, List.nil_append, onList, combine_word, combineInts] at failed
    cases exact : op.exact (elementBits (some (.word t))) l r with
    | error e =>
      rw [exact] at failed
      cases failed
      exact ⟨e, [l, r], rfl⟩
    | ok result =>
      rw [exact] at failed
      exact checked_eq_error l failed
  | neg =>
    obtain ⟨v, rfl⟩ := List.length_eq_one_iff.mp counted
    obtain ⟨n, rfl⟩ := NumericType.owns_word (owned v (by simp))
    exact checked_eq_error n failed
  | swap =>
    obtain ⟨right, left, rfl⟩ := List.length_eq_two.mp counted
    cases failed
  | zero => cases failed
  | one => cases failed

theorem Operator.onList_eq_error {family : Family} {t : NumericType} {vars : VariableKind}
    (paired : Paired family (.numeric t) vars) {op : Operator} (member : op ∈ family.operators)
    {taken : List Value} (counted : taken.length = op.needed)
    (owned : ∀ v ∈ taken, (OperandKind.numeric t).owns v) {below : List Value} {failure : Failure}
    (failed : op.onList (some t.dtype) (taken ++ below) = .error failure) :
    family = .integer ∧ ∃ a ns, failure = .arithmetic a ns := by
  cases paired with
  | float vars accepted =>
    obtain ⟨f, rfl⟩ := Family.accepts_float accepted
    obtain ⟨op, _, rfl⟩ := List.mem_map.mp member
    obtain ⟨vs, ran⟩ := op.onList_owned counted owned below
    cases ran.symm.trans failed
  | integer vars accepted =>
    obtain ⟨w, rfl⟩ := Family.accepts_integer accepted
    obtain ⟨op, _, rfl⟩ := List.mem_map.mp member
    exact ⟨rfl, op.onList_eq_error counted owned failed⟩

namespace Expression

/-! ### Runs -/

section

variable {family : Family} {t : NumericType} {vars : VariableKind} {c : Container}

theorem onList_eq_error (paired : Paired family (.numeric t) vars) {raw : String} {tok : Token}
    (classified : classify family vars (.numeric t) raw = .ok tok) {stack : List Value}
    (owned : ∀ v ∈ stack, (OperandKind.numeric t).owns v) {balance : Nat}
    (moved : Arity.step stack.length tok = some balance) {failure : Failure}
    (failed : onList (.numeric t) c tok stack = .error failure) :
    (family = .integer ∧ ∃ a ns, failure = .arithmetic a ns) ∨
      ∃ v, tok = .reference v ∧ resolve (.numeric t) c v = .error failure := by
  rcases classify_eq_ok classified with ⟨op, rfl, read⟩ | ⟨v, rfl, _⟩ | ⟨value, rfl, _⟩
  · obtain ⟨enough, _⟩ := Arity.step_operator_eq_some.mp moved
    have counted : (stack.take op.needed).length = op.needed := by simp; omega
    rw [onList, ← List.take_append_drop op.needed stack] at failed
    exact .inl (op.onList_eq_error paired (Family.mem_of_read read).1 counted
      (fun v hv => owned v (List.mem_of_mem_take hv)) failed)
  · refine .inr ⟨v, rfl, ?_⟩
    rw [onList] at failed
    cases found : resolve (.numeric t) c v with
    | ok x => rw [found] at failed; cases failed
    | error f => rw [found] at failed; cases failed; rfl
  · cases failed

/-- A run that fails does so in an operator, or at a variable that it has got to. -/
theorem runList_eq_error (paired : Paired family (.numeric t) vars) {ts : List Token}
    (classified : ∀ s ∈ ts, ∃ raw, classify family vars (.numeric t) raw = .ok s)
    {stack : List Value} (owned : ∀ v ∈ stack, (OperandKind.numeric t).owns v) {balance : Nat}
    (balanced : Arity.stackSizeFrom stack.length ts = some balance) {failure : Failure}
    (failed : runList (.numeric t) c ts stack = .error failure) :
    (family = .integer ∧ ∃ a ns, failure = .arithmetic a ns) ∨
      ∃ done v rest vs, ts = done ++ .reference v :: rest ∧
        runList (.numeric t) c done stack = .ok vs ∧
        resolve (.numeric t) c v = .error failure := by
  induction ts generalizing stack with
  | nil => cases failed
  | cons tok ts ih =>
    simp only [Arity.stackSizeFrom, Option.bind_eq_some_iff] at balanced
    obtain ⟨next, moved, balanced⟩ := balanced
    obtain ⟨raw, first⟩ := classified tok List.mem_cons_self
    simp only [runList] at failed
    have step := onList_follows paired c first owned moved
    cases out : onList (.numeric t) c tok stack with
    | error f =>
      rw [out] at failed
      cases failed
      rcases onList_eq_error paired first owned moved out with arithmetic | ⟨v, rfl, refused⟩
      · exact .inl arithmetic
      · exact .inr ⟨[], v, ts, stack, rfl, rfl, refused⟩
    | ok vs =>
      rw [out] at failed step
      obtain ⟨rfl, owned⟩ := step
      rcases ih (fun s hs => classified s (List.mem_cons_of_mem tok hs)) owned balanced failed with
        arithmetic | ⟨done, v, rest, us, rfl, ran, refused⟩
      · exact .inl arithmetic
      · refine .inr ⟨tok :: done, v, rest, us, rfl, ?_, refused⟩
        rw [runList, out]
        exact ran

end

def Reaches (e : Expression) (c : Container) (v : Variable) : Prop :=
  ∃ done rest s, e.tokens = done ++ .reference v :: rest ∧
    (performAll e.kind c done).runOn (Stack.withCapacity e.maxStack) = (.ok (), s)

theorem reaches_iff {e : Expression} {c : Container} {v : Variable} :
    e.Reaches c v ↔ ∃ done rest vs, e.tokens = done ++ .reference v :: rest ∧
      runList e.kind c done [] = .ok vs := by
  constructor
  · rintro ⟨done, rest, s, split, ran⟩
    obtain ⟨vs, ran, _⟩ := performAll_runOn e.kind c done e.maxStack ran
    exact ⟨done, rest, vs, split, ran⟩
  · rintro ⟨done, rest, vs, split, ran⟩
    have effects := effects_performAll e.kind c done []
    obtain ⟨s, outcome, _⟩ := effects.runs ran (Stack.holds_withCapacity e.maxStack)
    exact ⟨done, rest, s, split, outcome⟩

theorem Reaches.mem_references {e : Expression} {c : Container} {v : Variable}
    (reaches : e.Reaches c v) : v ∈ e.references := by
  obtain ⟨done, rest, _, split, _⟩ := reaches
  exact Expression.mem_references (by rw [split]; simp)

theorem Reaches.evaluate_eq_error {e : Expression} {c : Container} {v : Variable}
    (reaches : e.Reaches c v) {failure : Failure} (failed : resolve e.kind c v = .error failure) :
    e.evaluate c = .error failure := by
  obtain ⟨done, rest, vs, split, ran⟩ := reaches_iff.mp reaches
  have whole : runList e.kind c e.tokens [] = .error failure := by
    rw [split, runList_append, ran]
    simp only [Except.bind, runList, onList, failed]
    rfl
  rw [evaluate_eq_runList, whole]

/-! ### Evaluations -/

section

variable {family : Family} {t : NumericType} {vars : VariableKind} {raw : List String}
  {e : Expression} {c : Container}

/-- A value for one of the variables that is neither taken in nor refused. -/
def HoldsEscaping (e : Expression) (t : NumericType) (c : Container) : Prop :=
  ∃ v ∈ e.references, ∃ value f, c.lookup v.key = .ok (some value) ∧ Escapes t value f

inductive EndsWith (e : Expression) (family : Family) (t : NumericType) (c : Container) :
    Failure → Prop
  | arithmetic (checked : family = .integer) (a : ArithmeticFault) (operands : List Int) :
    EndsWith e family t c (.arithmetic a operands)
  | notFound {v : Variable} (reached : e.Reaches c v) (missing : c.lookup v.key = .ok none) :
    EndsWith e family t c (.notFound v.text)
  | unfit {v : Variable} {value : Value} {cause : Refusal} (reached : e.Reaches c v)
    (found : c.lookup v.key = .ok (some value)) (refused : t.coerce value = .error cause) :
    EndsWith e family t c (.unfit v.text value t.name cause)
  | escaped {v : Variable} {value : Value} {f : Fault} (reached : e.Reaches c v)
    (found : c.lookup v.key = .ok (some value)) (escapes : Escapes t value f) :
    EndsWith e family t c (.fault f)

theorem EndsWith.isEvaluation {failure : Failure} (ends : EndsWith e family t c failure)
    (contained : ¬ e.HoldsEscaping t c) : failure.isEvaluation := by
  cases ends with
  | escaped reached found escapes =>
    exact absurd ⟨_, reached.mem_references, _, _, found, escapes⟩ contained
  | _ => rfl

theorem balanced_built (built : ofTokens raw family (.numeric t) vars = .ok e) :
    Arity.stackSizeFrom ([] : List Value).length e.tokens = some 1 := by
  obtain ⟨_, _, checked, _⟩ := ofTokens_eq_ok.mp built
  exact Arity.stackSizeFrom_of_checkFrom checked

theorem runList_built (paired : Paired family (.numeric t) vars)
    (built : ofTokens raw family (.numeric t) vars = .ok e) :
    Follows (.numeric t) 1 (runList (.numeric t) c e.tokens []) :=
  runList_follows paired c (fun _ => exists_classified built) (List.forall_mem_nil _)
    (balanced_built built)

theorem evaluate_endsWith (paired : Paired family (.numeric t) vars)
    (built : ofTokens raw family (.numeric t) vars = .ok e)
    (supported : ∀ name, c ≠ .unsupported name) {failure : Failure}
    (failed : e.evaluate c = .error failure) : EndsWith e family t c failure := by
  obtain ⟨_, _, _, kind, _⟩ := ofTokens_eq_ok.mp built
  rw [evaluate_eq_runList, kind] at failed
  cases ran : runList (.numeric t) c e.tokens [] with
  | ok vs =>
    have whole := runList_built (c := c) paired built
    rw [ran] at failed whole
    obtain ⟨v, rfl⟩ := List.length_eq_one_iff.mp whole.1
    cases failed
  | error f =>
    rw [ran] at failed
    cases failed
    rcases runList_eq_error paired (fun _ => exists_classified built) (List.forall_mem_nil _)
      (balanced_built built) ran with
      ⟨checked, a, ns, rfl⟩ | ⟨done, v, rest, vs, split, before, refused⟩
    · exact .arithmetic checked a ns
    · have reached : e.Reaches c v := by
        rw [reaches_iff, kind]
        exact ⟨done, rest, vs, split, before⟩
      rcases resolve_eq_error supported refused with
        ⟨missing, rfl⟩ | ⟨value, found, ⟨cause, unheld, rfl⟩ | ⟨f, escapes, rfl⟩⟩
      · exact .notFound reached missing
      · exact .unfit reached found unheld
      · exact .escaped reached found escapes

end

/-! ### Frames -/

open Formula

section

variable {family : Family} {t : NumericType} {vars : VariableKind} {raw : List String}
  {e : Expression}

theorem row_supported (frame : Frame) (i : Nat) (name : String) :
    frame.row i ≠ .unsupported name := by
  intro h
  cases h

theorem row_contained (paired : Paired family (.numeric t) vars)
    (built : ofTokens raw family (.numeric t) vars = .ok e) {frame : Frame} {i : Nat}
    (contained : ¬ e.HoldsEscaping t (frame.row i)) (failure : Failure)
    (failed : e.evaluate (frame.row i) = .error failure) : failure.isEvaluation :=
  (evaluate_endsWith paired built (row_supported frame i) failed).isEvaluation contained

end

end Expression
end Postfix
