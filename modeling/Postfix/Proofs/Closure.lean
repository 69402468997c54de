import Postfix.Proofs.Depth
import Postfix.Proofs.Members
import Postfix.Proofs.RoundTrip

/-! The type of every value that is ever on the stack of a run over a numeric type.
A value gets there by one of four moves: a literal or a value taken in is put, a constant is put, or
an operator puts its result. A property that these four keep is kept by the run at every moment,
also in the middle of an operator and up to the move that fails. Being of the type is such a
property, and so is being in its range. -/
namespace Postfix

/-! ### Moves -/

theorem Stack.Holds.forall_toList {α : Type} {s : Stack α} {vs : List α} (holds : s.Holds vs)
    {P : α → Prop} : (∀ v ∈ s.toList, P v) ↔ ∀ v ∈ vs, P v := by
  simp only [holds.toList, List.mem_reverse]

namespace Moves

variable {α β : Type} {P : Value → Prop}

/-- Every value that is put has the property, if those that are taken have it. -/
def Keeps (P : Value → Prop) : Moves α → Prop
  | done _ => True
  | fail _ => True
  | pop next => ∀ v, P v → (next v).Keeps P
  | push v next => P v ∧ next.Keeps P

theorem keeps_give {r : Except Failure Value} (given : ∀ v, r = .ok v → P v) :
    (give r).Keeps P := by
  cases r with
  | ok v => exact ⟨given v rfl, trivial⟩
  | error e => trivial

theorem keeps_popTwo {next : Value → Value → Moves α}
    (after : ∀ left right, P left → P right → (next left right).Keeps P) :
    (popTwo next).Keeps P :=
  fun right hright left hleft => after left right hleft hright

theorem Keeps.bind {m : Moves α} {f : α → Moves β} (first : m.Keeps P)
    (second : ∀ a, (f a).Keeps P) : (m.bind f).Keeps P := by
  induction m with
  | done a => exact second a
  | fail e => trivial
  | pop next ih => exact fun v hv => ih v (first v hv)
  | push v next ih => exact ⟨first.1, ih first.2⟩

theorem Keeps.moments {m : Moves α} {s : Stack Value} {vs : List Value} (keeps : m.Keeps P)
    (holds : s.Holds vs) (start : ∀ v ∈ vs, P v) :
    ∀ t ∈ m.moments s, ∀ v ∈ t.toList, P v := by
  induction m generalizing s vs with
  | done a => exact List.forall_mem_singleton.mpr (holds.forall_toList.mpr start)
  | fail e => exact List.forall_mem_singleton.mpr (holds.forall_toList.mpr start)
  | pop next ih =>
    cases vs with
    | nil =>
      have here := holds.forall_toList.mpr start
      simp only [Moves.moments, holds.pop_nil]
      exact List.forall_mem_cons.mpr ⟨here, List.forall_mem_singleton.mpr here⟩
    | cons top below =>
      obtain ⟨t, popped, ht⟩ := holds.pop_cons
      obtain ⟨hTop, hBelow⟩ := List.forall_mem_cons.mp start
      simp only [Moves.moments, popped]
      exact List.forall_mem_cons.mpr
        ⟨holds.forall_toList.mpr start, ih top (keeps top hTop) ht hBelow⟩
  | push v next ih =>
    have more : ∀ w ∈ v :: vs, P w := List.forall_mem_cons.mpr ⟨keeps.1, start⟩
    exact List.forall_mem_cons.mpr
      ⟨holds.forall_toList.mpr start, ih keeps.2 (holds.push v) more⟩

end Moves

/-! ### Operators -/

/-- From operands with the property, as many as it needs, an operator makes results with it. -/
def Operator.Closed (P : Value → Prop) (dtype : Option DType) (op : Operator) : Prop :=
  ∀ taken given, taken.length = op.needed → (∀ v ∈ taken, P v) →
    op.onList dtype taken = .ok given → ∀ v ∈ given, P v

section

variable {P : Value → Prop} {dtype : Option DType}

open Moves

theorem Operator.Closed.result {op : Operator} (closed : op.Closed P dtype) {taken : List Value}
    (counted : taken.length = op.needed) (operands : ∀ v ∈ taken, P v) {v : Value}
    (made : op.onList dtype taken = .ok [v]) : P v :=
  closed taken [v] counted operands made v List.mem_cons_self

theorem Operator.Closed.constant {op : Operator} (closed : op.Closed P dtype)
    (takesNone : op.needed = 0) {v : Value} (made : op.onList dtype [] = .ok [v]) : P v := by
  have counted : ([] : List Value).length = op.needed := takesNone.symm
  exact closed.result counted (List.forall_mem_nil _) made

theorem Moves.keeps_swap : (popTwo fun left right => push right (push left (done ()))).Keeps P :=
  keeps_popTwo fun _ _ hleft hright => ⟨hright, hleft, trivial⟩

theorem Moves.keeps_combine {combine : Value → Value → Except Failure Value}
    (closed : ∀ left right v, P left → P right → combine left right = .ok v → P v) :
    (popTwo fun left right => give (combine left right)).Keeps P :=
  keeps_popTwo fun left right hleft hright =>
    keeps_give fun v made => closed left right v hleft hright made

theorem FloatOp.keeps_moves {op : FloatOp} (closed : (Operator.float op).Closed P dtype) :
    (op.moves dtype).Keeps P := by
  cases op with
  | binary op =>
    apply keeps_combine
    intro left right v hleft hright made
    have gives : (Operator.float (.binary op)).onList dtype [right, left] = .ok [v] := by
      simp only [Operator.onList, onList, made]
      rfl
    exact closed.result rfl (by simp [hleft, hright]) gives
  | unary op =>
    intro operand hoperand
    apply keeps_give
    intro v made
    have gives : (Operator.float (.unary op)).onList dtype [operand] = .ok [v] := by
      simp only [Operator.onList, onList, made]
      rfl
    exact closed.result rfl (by simp [hoperand]) gives
  | swap => exact keeps_swap
  | zero => exact ⟨closed.constant rfl rfl, trivial⟩
  | one => exact ⟨closed.constant rfl rfl, trivial⟩

theorem IntegerOp.keeps_moves {op : IntegerOp} (closed : (Operator.integer op).Closed P dtype) :
    (op.moves dtype).Keeps P := by
  cases op with
  | binary op =>
    apply keeps_combine
    intro left right v hleft hright made
    have gives : (Operator.integer (.binary op)).onList dtype [right, left] = .ok [v] := by
      simp only [Operator.onList, onList, made]
      rfl
    exact closed.result rfl (by simp [hleft, hright]) gives
  | neg =>
    intro operand hoperand
    apply keeps_give
    intro v made
    have gives : (Operator.integer .neg).onList dtype [operand] = .ok [v] := by
      simp only [Operator.onList, onList, made]
      rfl
    exact closed.result rfl (by simp [hoperand]) gives
  | swap => exact keeps_swap
  | zero => exact ⟨closed.constant rfl rfl, trivial⟩
  | one => exact ⟨closed.constant rfl rfl, trivial⟩

theorem Family.IsStandard.keeps_moves {family : Family} (standard : family.IsStandard)
    {op : Operator} (member : op ∈ family.operators) (closed : op.Closed P dtype) :
    (op.moves dtype).Keeps P := by
  rcases standard with rfl | rfl
  · obtain ⟨op, _, rfl⟩ := List.mem_map.mp member
    exact op.keeps_moves closed
  · obtain ⟨op, _, rfl⟩ := List.mem_map.mp member
    exact op.keeps_moves closed

end

theorem Family.IsStandard.paired {family : Family} (standard : family.IsStandard)
    {t : NumericType} (works : family.accepts (.numeric t)) (vars : VariableKind) :
    Paired family (.numeric t) vars := by
  rcases standard with rfl | rfl
  · exact .float vars works
  · exact .integer vars works

theorem Operator.closed_owns {family : Family} {t : NumericType} {vars : VariableKind}
    (paired : Paired family (.numeric t) vars) {op : Operator} (member : op ∈ family.operators) :
    op.Closed (t.owns ·) (some t.dtype) := by
  intro taken given counted owned ran
  have replaces := op.replaces paired member taken [] counted owned
  rw [List.append_nil, show (OperandKind.numeric t).dtype? = some t.dtype from rfl, ran] at replaces
  obtain ⟨made, rfl, _, owns⟩ := replaces
  rw [List.append_nil]
  exact owns

theorem Operator.closed_member {family : Family} {t : NumericType}
    (works : family.accepts (.numeric t)) {op : Operator} (member : op ∈ family.operators) :
    op.Closed t.Member (some t.dtype) :=
  fun _ _ _ members ran => op.onList_members works member members ran

/-! ### Runs -/

namespace Expression

variable {family : Family} {t : NumericType} {vars : VariableKind} {c : Container}
  {P : Value → Prop}

theorem keeps_tokenMoves (standard : family.IsStandard) {raw : String} {tok : Token}
    (classified : classify family vars (.numeric t) raw = .ok tok)
    (literals : ∀ v, t.read raw = .ok v → P v)
    (taken : ∀ v x, tok = .reference v → resolve (.numeric t) c v = .ok x → P x)
    (closed : ∀ op ∈ family.operators, op.Closed P (some t.dtype)) :
    (tokenMoves (.numeric t) c tok).Keeps P := by
  rcases classify_eq_ok classified with ⟨op, rfl, read⟩ | ⟨v, rfl, _⟩ | ⟨value, rfl, read⟩
  · have member := (Family.mem_of_read read).1
    exact standard.keeps_moves member (closed op member)
  · exact Moves.keeps_give fun x found => taken v x rfl found
  · exact ⟨literals value read, trivial⟩

theorem keeps_moves (standard : family.IsStandard) {ts : List Token}
    (classified : ∀ tok ∈ ts, ∃ raw, classify family vars (.numeric t) raw = .ok tok)
    (literals : ∀ raw v, t.read raw = .ok v → P v)
    (taken : ∀ v x, .reference v ∈ ts → resolve (.numeric t) c v = .ok x → P x)
    (closed : ∀ op ∈ family.operators, op.Closed P (some t.dtype)) :
    (moves (.numeric t) c ts).Keeps P := by
  induction ts with
  | nil => trivial
  | cons tok ts ih =>
    obtain ⟨raw, read⟩ := classified tok List.mem_cons_self
    have first : (tokenMoves (.numeric t) c tok).Keeps P :=
      keeps_tokenMoves standard read (literals raw)
        (fun v x same => taken v x (same ▸ List.mem_cons_self)) closed
    have rest := ih (fun s hs => classified s (List.mem_cons_of_mem tok hs))
      (fun v x occurs => taken v x (List.mem_cons_of_mem tok occurs))
    exact first.bind fun _ => rest

theorem mem_of_evaluate {e : Expression} {x : Value} (evaluated : e.evaluate c = .ok x) :
    x ∈ (e.run c).2.toList := by
  obtain ⟨s, ran⟩ := runs_of_evaluate evaluated e.maxStack
  obtain ⟨vs, listed, holds⟩ := performAll_runOn e.kind c e.tokens e.maxStack ran
  rw [evaluate_eq_runList, listed] at evaluated
  have last : (e.run c).2 = s := by rw [run, ran]
  rw [last, holds.toList, List.mem_reverse]
  cases vs with
  | nil => cases evaluated
  | cons v vs =>
    cases evaluated
    exact List.mem_cons_self

section

variable {raw : List String} {e : Expression}

theorem moments_keep (standard : family.IsStandard)
    (built : ofTokens raw family (.numeric t) vars = .ok e)
    (literals : ∀ raw v, t.read raw = .ok v → P v)
    (taken : ∀ v x, v ∈ e.references → resolve (.numeric t) c v = .ok x → P x)
    (closed : ∀ op ∈ family.operators, op.Closed P (some t.dtype)) :
    (∀ s ∈ e.moments c, ∀ v ∈ s.toList, P v) ∧ ∀ x, e.evaluate c = .ok x → P x := by
  obtain ⟨_, _, _, kind, _, _⟩ := ofTokens_eq_ok.mp built
  have keeps : (moves e.kind c e.tokens).Keeps P := by
    rw [kind]
    exact keeps_moves standard (fun _ => exists_classified built) literals
      (fun v x occurs => taken v x (mem_references occurs)) closed
  have always := keeps.moments (Stack.holds_withCapacity e.maxStack) (List.forall_mem_nil _)
  refine ⟨always, fun x evaluated => ?_⟩
  have last := Moves.mem_moments_end (moves e.kind c e.tokens) (Stack.withCapacity e.maxStack)
  rw [action_moves] at last
  exact always _ last x (mem_of_evaluate evaluated)

/-- A numeric type is closed under evaluation. Whatever a container holds, every value that is on
the stack at any moment is of the type, and so is the result; they are in its range too, if the
machine values looked up are in the ranges of their own types. -/
theorem evaluation_closed (standard : family.IsStandard)
    (built : ofTokens raw family (.numeric t) vars = .ok e) (c : Container) :
    (moves e.kind c e.tokens).action = performAll e.kind c e.tokens ∧
      ((∀ s ∈ e.moments c, ∀ v ∈ s.toList, t.owns v) ∧ ∀ x, e.evaluate c = .ok x → t.owns x) ∧
      ((∀ v ∈ e.references, ∀ value, c.lookup v.key = .ok (some value) → value.IsWellFormed) →
        (∀ s ∈ e.moments c, ∀ v ∈ s.toList, t.Member v) ∧
          ∀ x, e.evaluate c = .ok x → t.Member x) := by
  have works := (ofTokens_eq_ok.mp built).1
  refine ⟨action_moves e.kind c e.tokens, ?_, fun formed => ?_⟩
  · apply moments_keep standard built
    · intro raw v read
      exact NumericType.owns_of_read read
    · intro v x _ found
      exact owns_of_resolve found
    · intro op member
      exact op.closed_owns (standard.paired works vars) member
  · apply moments_keep standard built
    · intro raw v read
      exact NumericType.member_of_read read
    · intro v x listed found
      obtain ⟨value, held, taken⟩ := resolve_eq_ok found
      exact NumericType.member_of_coerce (formed v listed value held) taken
    · intro op member
      exact op.closed_member works member

end

/-- A word, a fraction and a literal, raised to a power and rounded. -/
theorem evaluation_closed_of_row :
    Family.float.IsStandard ∧
      ∃ e c, ofTokens ["$0", "2", "pow", "$1", "round", "swap", "-"] .float (.numeric .float32)
          .index = .ok e ∧
        c = .positional [.word .int8 3, .fraction 5 2] ∧
        e.evaluate c = .ok (.float .single (.finite true 12582912 (-21))) ∧
        (∀ v ∈ e.references, ∀ value, c.lookup v.key = .ok (some value) → value.IsWellFormed) ∧
        (∀ d, ∀ s ∈ e.moments d, ∀ v ∈ s.toList, NumericType.float32.owns v) ∧
        ∀ s ∈ e.moments c, ∀ v ∈ s.toList, NumericType.float32.Member v := by
  have standard : Family.float.IsStandard := .inl rfl
  let c : Container := .positional [.word .int8 3, .fraction 5 2]
  let e : Expression :=
    ⟨[.reference (.index 0), .operand (.float .single (.finite false 8388608 (-22))) "2",
      .operator (.float (.binary .pow)), .reference (.index 1), .operator (.float (.unary .round)),
      .operator (.float .swap), .operator (.float (.binary .sub))], 2, .numeric .float32, .float,
      .index⟩
  have built : ofTokens ["$0", "2", "pow", "$1", "round", "swap", "-"] .float (.numeric .float32)
      .index = .ok e := by
    with_unfolding_all rfl
  have value : e.evaluate c = .ok (.float .single (.finite true 12582912 (-21))) := by
    rw [evaluate_eq_runList]
    with_unfolding_all rfl
  have references : e.references = [.index 0, .index 1] := by decide
  have formed : ∀ v ∈ e.references, ∀ value, c.lookup v.key = .ok (some value) →
      value.IsWellFormed := by
    rw [references]
    simp only [List.forall_mem_cons, List.not_mem_nil, IsEmpty.forall_iff, implies_true, and_true]
    constructor
    · rintro _ ⟨⟩
      exact (by decide : WordType.int8.holds 3)
    · rintro _ ⟨⟩
      trivial
  refine ⟨standard, e, c, built, rfl, value, formed, fun d => ?_, ?_⟩
  · exact (evaluation_closed standard built d).2.1.1
  · exact ((evaluation_closed standard built c).2.2 formed).1

end Expression
end Postfix
