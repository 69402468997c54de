import Postfix.Proofs.Building

/-! The static balance and the working stack move in lock step.
An operator that keeps its word is called honest. For families of honest operators the number of
values on the stack after each token of a run is the number that the arity check computed, so a
checked expression never finds its stack empty and leaves one value, its result. The engine itself
looks neither at the counts nor for values left over. -/
namespace Postfix

def Token.needed : Token → Nat
  | .operator op => op.needed
  | _ => 0

def Token.generated : Token → Nat
  | .operator op => op.generated
  | _ => 1

namespace Arity

theorem step_eq (balance : Nat) (t : Token) :
    step balance t =
      if balance < t.needed then none else some (balance - t.needed + t.generated) := by
  cases t <;> rfl

theorem step_eq_some {balance next : Nat} {t : Token} :
    step balance t = some next ↔
      t.needed ≤ balance ∧ balance - t.needed + t.generated = next := by
  rw [step_eq]
  by_cases short : balance < t.needed
  · simp [if_pos short]; omega
  · simp [if_neg short]; omega

theorem step_operator_eq_some {balance next : Nat} {op : Operator} :
    step balance (.operator op) = some next ↔
      op.needed ≤ balance ∧ balance - op.needed + op.generated = next := step_eq_some

theorem stackSizeFrom_append (balance : Nat) (ss ts : List Token) :
    stackSizeFrom balance (ss ++ ts) = (stackSizeFrom balance ss).bind (stackSizeFrom · ts) := by
  induction ss generalizing balance with
  | nil => rfl
  | cons s ss ih =>
    simp only [List.cons_append, stackSizeFrom, Option.bind_assoc]
    exact congrArg _ (funext ih)

theorem stackSizeFrom_of_checkFrom {position balance depth found : Nat} {ts : List Token}
    (checked : checkFrom position balance depth ts = .ok found) :
    stackSizeFrom balance ts = some 1 := by
  induction ts generalizing position balance depth with
  | nil =>
    simp only [checkFrom, finish] at checked
    split at checked
    · cases checked
    · split at checked
      · cases checked
      · have : balance = 1 := by omega
        rw [this]
        rfl
  | cons t ts ih =>
    simp only [checkFrom] at checked
    split at checked
    · cases checked
    · rename_i next moved
      simp only [stackSizeFrom, moved]
      exact ih checked

theorem exists_balance {done rest : List Token} {found : Nat}
    (checked : check (done ++ rest) = .ok found) :
    ∃ balance, stackSize done = some balance ∧ stackSizeFrom balance rest = some 1 := by
  have whole := stackSizeFrom_of_checkFrom checked
  rw [stackSizeFrom_append] at whole
  exact Option.bind_eq_some_iff.mp whole

end Arity

/-- An operator does to every stack of operands of the kind what it declares, or ends with a
failure of evaluation: it replaces the values it needs by the values it generates, and leaves
everything below untouched. -/
def Honest (kind : OperandKind) (op : Operator) : Prop :=
  ∀ (s : Stack Value) (taken below : List Value),
    s.Holds (taken ++ below) → taken.length = op.needed → (∀ v ∈ taken ++ below, kind.owns v) →
    match (op.apply kind.dtype?).runOn s with
    | (.ok (), t) => ∃ given, given.length = op.generated ∧ t.Holds (given ++ below)
    | (.error e, _) => e.isEvaluation

theorem honest_of_paired {family : Family} {kind : OperandKind} {vars : VariableKind}
    (paired : Paired family kind vars) {op : Operator} (member : op ∈ family.operators) :
    Honest kind op := by
  intro s taken below holds counted owned
  have replaces := op.replaces paired member taken below counted
    fun v hv => owned v (List.mem_append_left below hv)
  have effects := op.effects_apply kind.dtype? (taken ++ below)
  cases out : op.onList kind.dtype? (taken ++ below) with
  | ok vs =>
    rw [out] at replaces
    obtain ⟨given, rfl, generated, _⟩ := replaces
    obtain ⟨t, ran, ht⟩ := effects.runs out holds
    rw [ran]
    exact ⟨given, generated, ht⟩
  | error e =>
    rw [out] at replaces
    obtain ⟨t, ran⟩ := effects.fails out holds
    rw [ran]
    exact replaces

namespace Expression

/-- A stack of the computed size whose values are of the kind, or a failure that is no lack of
values. -/
def Follows (kind : OperandKind) (balance : Nat) : Except Failure (List Value) → Prop
  | .ok vs => vs.length = balance ∧ ∀ v ∈ vs, kind.owns v
  | .error e => ∀ u, e ≠ .underflow u

section

variable {family : Family} {kind : OperandKind} {vars : VariableKind}

theorem onList_follows (paired : Paired family kind vars) (c : Container) {raw : String}
    {t : Token} (classified : classify family vars kind raw = .ok t) {stack : List Value}
    (owned : ∀ v ∈ stack, kind.owns v) {balance : Nat}
    (moved : Arity.step stack.length t = some balance) :
    Follows kind balance (onList kind c t stack) := by
  rcases classify_eq_ok classified with ⟨op, rfl, read⟩ | ⟨v, rfl, read⟩ | ⟨value, rfl, read⟩
  · obtain ⟨enough, rfl⟩ := Arity.step_operator_eq_some.mp moved
    have counted : (stack.take op.needed).length = op.needed := by simp; omega
    have replaces := op.replaces paired (Family.mem_of_read read).1 (stack.take op.needed)
      (stack.drop op.needed) counted fun v hv => owned v (List.mem_of_mem_take hv)
    rw [List.take_append_drop] at replaces
    simp only [onList]
    cases out : op.onList kind.dtype? stack with
    | ok vs =>
      rw [out] at replaces
      obtain ⟨given, rfl, generated, news⟩ := replaces
      refine ⟨by simp [generated]; omega, fun v hv => ?_⟩
      rcases List.mem_append.mp hv with hv | hv
      · exact news v hv
      · exact owned v (List.mem_of_mem_drop hv)
    | error e =>
      rw [out] at replaces
      rintro u rfl
      cases replaces
  · cases moved
    simp only [onList]
    cases found : resolve kind c v with
    | ok x =>
      have own : kind.owns x := by
        cases paired with
        | float _ _ => exact owns_of_resolve found
        | integer _ _ => exact owns_of_resolve found
        -- The words one and two have no variables.
        | oneTwo => cases read
      exact ⟨rfl, by simpa [own] using owned⟩
    | error e =>
      rintro u rfl
      exact resolve_ne_underflow kind c v u found
  · cases moved
    exact ⟨rfl, by simpa [OperandKind.owns_of_read read] using owned⟩

theorem runList_follows (paired : Paired family kind vars) (c : Container) {ts : List Token}
    (classified : ∀ t ∈ ts, ∃ raw, classify family vars kind raw = .ok t) {stack : List Value}
    (owned : ∀ v ∈ stack, kind.owns v) {balance : Nat}
    (balanced : Arity.stackSizeFrom stack.length ts = some balance) :
    Follows kind balance (runList kind c ts stack) := by
  induction ts generalizing stack with
  | nil =>
    cases balanced
    exact ⟨rfl, owned⟩
  | cons t ts ih =>
    simp only [Arity.stackSizeFrom, Option.bind_eq_some_iff] at balanced
    obtain ⟨next, moved, balanced⟩ := balanced
    obtain ⟨raw, first⟩ := classified t List.mem_cons_self
    have step := onList_follows paired c first owned moved
    simp only [runList]
    cases out : onList kind c t stack with
    | ok vs =>
      rw [out] at step
      obtain ⟨rfl, owned⟩ := step
      exact ih (fun s hs => classified s (List.mem_cons_of_mem t hs)) owned balanced
    | error e =>
      rw [out] at step
      exact step

theorem performAll_runOn (kind : OperandKind) (c : Container) (ts : List Token) (capacity : Nat)
    {s : Stack Value}
    (ran : (performAll kind c ts).runOn (Stack.withCapacity capacity) = (.ok (), s)) :
    ∃ vs, runList kind c ts [] = .ok vs ∧ s.Holds vs := by
  have effects := effects_performAll kind c ts []
  have empty := Stack.holds_withCapacity (α := Value) capacity
  cases out : runList kind c ts [] with
  | ok vs =>
    obtain ⟨t, ran', ht⟩ := effects.runs out empty
    cases ran.symm.trans ran'
    exact ⟨vs, rfl, ht⟩
  | error e =>
    obtain ⟨t, ran'⟩ := effects.fails out empty
    cases ran.symm.trans ran'

/-- Soundness of the arity check. The last two parts say that an evaluation never lacks a value
and that one that no token ends early leaves exactly its result. -/
theorem arity_sound (paired : Paired family kind vars) {raw : List String} {e : Expression}
    (built : ofTokens raw family kind vars = .ok e) (c : Container) :
    (∀ op ∈ family.operators, Honest kind op) ∧
      (∀ done rest s, e.tokens = done ++ rest →
        (performAll kind c done).runOn (Stack.withCapacity e.maxStack) = (.ok (), s) →
        Arity.stackSize done = some s.size ∧ s.toList.length = s.size) ∧
      (∀ u, e.evaluate c ≠ .error (.underflow u)) ∧
      ((e.run c).1 = .ok () → ∃ v, (e.run c).2.toList = [v] ∧ e.evaluate c = .ok v) := by
  obtain ⟨_, _, checked, rfl, rfl, rfl⟩ := ofTokens_eq_ok.mp built
  have classified : ∀ t ∈ e.tokens,
      ∃ r, classify e.family e.variableKind e.kind r = .ok t := by
    intro t ht
    obtain ⟨r, _, h⟩ := classified_of_mem built ht
    exact ⟨r, h⟩
  have whole : Follows e.kind 1 (runList e.kind c e.tokens []) :=
    runList_follows paired c classified (by simp) (Arity.stackSizeFrom_of_checkFrom checked)
  refine ⟨fun op member => honest_of_paired paired member, ?_, ?_, ?_⟩
  · intro done rest s split ran
    rw [split] at checked classified
    obtain ⟨balance, size, _⟩ := Arity.exists_balance checked
    obtain ⟨vs, out, holds⟩ := performAll_runOn e.kind c done e.maxStack ran
    have follows : Follows e.kind balance (runList e.kind c done []) :=
      runList_follows paired c (fun t ht => classified t (List.mem_append_left rest ht))
        (by simp) size
    rw [out] at follows
    rw [size, holds.toList, holds.1, List.length_reverse, follows.1]
    exact ⟨rfl, rfl⟩
  · intro u
    rw [evaluate_eq_runList]
    cases out : runList e.kind c e.tokens [] with
    | error f =>
      rw [out] at whole
      intro h
      exact whole u (by cases h; rfl)
    | ok vs =>
      rw [out] at whole
      match vs, whole.1 with
      | [v], _ => intro h; cases h
  · intro ok
    have ran : (performAll e.kind c e.tokens).runOn (Stack.withCapacity e.maxStack)
        = (.ok (), (e.run c).2) := by rw [← ok]; rfl
    obtain ⟨vs, out, holds⟩ := performAll_runOn e.kind c e.tokens e.maxStack ran
    rw [out] at whole
    match vs, whole.1 with
    | [v], _ =>
      refine ⟨v, holds.toList, ?_⟩
      rw [evaluate_eq_runList, out]

end

theorem arity_sound_with_swap :
    Paired .integer (.numeric .int8) .index ∧
      ∃ e, ofTokens ["3", "$0", "swap", "-"] .integer (.numeric .int8) .index = .ok e ∧
        ∀ c, (∀ u, e.evaluate c ≠ .error (.underflow u)) ∧
          ((e.run c).1 = .ok () → ∃ v, (e.run c).2.toList = [v] ∧ e.evaluate c = .ok v) := by
  have paired : Paired .integer (.numeric .int8) .index := .integer .index rfl
  have ok : (ofTokens ["3", "$0", "swap", "-"] .integer (.numeric .int8) .index).isOk := by
    decide +kernel
  cases built : ofTokens ["3", "$0", "swap", "-"] .integer (.numeric .int8) .index with
  | error f => rw [built] at ok; cases ok
  | ok e => exact ⟨paired, e, rfl, fun c => (arity_sound paired built c).2.2⟩

end Expression
end Postfix
