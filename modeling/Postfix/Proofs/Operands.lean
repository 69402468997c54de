import Postfix.Proofs.Machine

/-! Operators on operands of the kind that their family works on.
Each operator takes as many values as it declares, gives back as many as it declares, all of the
same kind, and does not touch what lies below; if it refuses its operands, it does so with a
failure of evaluation. Rows of a table are left out there, since what they declare need not be what
they do; a row for which it is keeps its word. -/
namespace Postfix

def OperandKind.owns : OperandKind → Value → Bool
  | numeric t, v => t.owns v
  | oneTwo, .oneTwo _ => true
  | letters, .text _ => true
  | _, _ => false

/-- The families with operators of their own, each with the kinds that it works on. The sample
arithmetic takes its operands as they come, so it goes without variables. -/
inductive Paired : Family → OperandKind → VariableKind → Prop
  | float {t : NumericType} (vars : VariableKind) (accepted : Family.float.accepts (.numeric t)) :
    Paired .float (.numeric t) vars
  | integer {t : NumericType} (vars : VariableKind)
    (accepted : Family.integer.accepts (.numeric t)) : Paired .integer (.numeric t) vars
  | oneTwo : Paired .oneTwo .oneTwo .none

/-! ### Operators that keep their word -/

def TableOp.KeepsWord (op : TableOp) : Prop := op.pops = op.needed ∧ op.pushes = op.generated

/-- The operators do what they declare. Only those of a table may fail to, since there the counts
are given apart. -/
def Family.KeepsWord : Family → Prop
  | table t => ∀ row ∈ t.rows, row.KeepsWord
  | _ => True

def Operator.KeepsWord : Operator → Prop
  | table row => row.KeepsWord
  | _ => True

theorem Family.KeepsWord.operator {family : Family} (keeps : family.KeepsWord) {op : Operator}
    (member : op ∈ family.operators) : op.KeepsWord := by
  cases family with
  | undefined => cases member
  | float => obtain ⟨op, _, rfl⟩ := List.mem_map.mp member; trivial
  | integer => obtain ⟨op, _, rfl⟩ := List.mem_map.mp member; trivial
  | oneTwo => obtain ⟨op, _, rfl⟩ := List.mem_map.mp member; trivial
  | table t =>
    obtain ⟨row, inTable, rfl⟩ := List.mem_map.mp member
    exact keeps row inTable

/-! ### Operands of one type -/

theorem NumericType.owns_float {f : Format} {v : Value} (h : (NumericType.float f).owns v) :
    ∃ x, v = .float f x := by
  cases v with
  | float g x =>
    have same : f = g := by simpa [owns] using h
    exact ⟨x, same ▸ rfl⟩
  | _ => simp [owns] at h

theorem NumericType.owns_word {t : WordType} {v : Value} (h : (NumericType.word t).owns v) :
    ∃ n, v = .word t n := by
  cases v with
  | word u n =>
    have same : t = u := by simpa [owns] using h
    exact ⟨n, same ▸ rfl⟩
  | _ => simp [owns] at h

theorem OperandKind.owns_oneTwo {v : Value} (h : OperandKind.oneTwo.owns v) :
    ∃ d, v = .oneTwo d := by
  cases v with
  | oneTwo d => exact ⟨d, rfl⟩
  | _ => simp [owns] at h

theorem OperandKind.owns_letters {v : Value} (h : OperandKind.letters.owns v) :
    ∃ s, v = .text s := by
  cases v with
  | text s => exact ⟨s, rfl⟩
  | _ => simp [owns] at h

theorem Family.accepts_float {t : NumericType} (h : Family.float.accepts (.numeric t)) :
    ∃ f, t = .float f := by
  cases t with
  | word t => simp [accepts, NumericType.isInteger] at h
  | float f => exact ⟨f, rfl⟩

theorem Family.accepts_integer {t : NumericType} (h : Family.integer.accepts (.numeric t)) :
    ∃ w, t = .word ⟨true, w⟩ := by
  cases t with
  | float f => simp [accepts, NumericType.isSigned] at h
  | word t =>
    obtain ⟨signed, w⟩ := t
    have : signed = true := by simpa [accepts, NumericType.isSigned] using h
    exact ⟨w, by rw [this]⟩

@[simp] theorem FloatBinary.combine_float (op : FloatBinary) (f : Format) (x y : Binary) :
    op.combine (.float f x) (.float f y) = .ok (.float f (op.eval f x y)) := by
  have join : f.max f = f := by cases f <;> rfl
  have runs : op.runsIn (.float f) = .float f := by cases op <;> rfl
  simp [combine, Value.operandSort, OperandSort.common?, MachineType.join, join, runs, onMachine,
    Value.asBinary]
  rfl

@[simp] theorem IntegerOp.checked_word (t : WordType) (result : Int) (fault : ArithmeticFault)
    (sample : Int) (operands : List Int) :
    checked (some (.word t)) result fault sample operands =
      if t.holds result then .ok (.word t result) else .error (.arithmetic fault operands) := rfl

@[simp] theorem IntegerOp.combine_word (dtype : Option DType) (op : IntegerBinary) (t : WordType)
    (l r : Int) : combine dtype op (.word t l) (.word t r) = combineInts dtype op l r := rfl

/-! ### What an operator keeps -/

/-- A stack with new values in the place of old ones, or a failure that evaluation may end with. -/
def Replaces (kind : OperandKind) (count : Nat) (below : List Value) :
    Except Failure (List Value) → Prop
  | .ok vs => ∃ given, vs = given ++ below ∧ given.length = count ∧ ∀ v ∈ given, kind.owns v
  | .error e => e.isEvaluation

theorem replaces_one {kind : OperandKind} {v : Value} (owned : kind.owns v) (below : List Value) :
    Replaces kind 1 below (.ok (v :: below)) :=
  ⟨[v], rfl, rfl, by simpa using owned⟩

theorem replaces_swap {kind : OperandKind} {taken : List Value} {dtype : Option DType}
    (two : taken.length = 2) (owned : ∀ v ∈ taken, kind.owns v) (below : List Value) :
    Replaces kind 2 below (FloatOp.swap.onList dtype (taken ++ below)) ∧
      Replaces kind 2 below (IntegerOp.swap.onList dtype (taken ++ below)) := by
  match taken, two with
  | [right, left], _ =>
    have both : ∀ v ∈ [left, right], kind.owns v := by
      intro v hv
      exact owned v (by simpa [or_comm] using hv)
    exact ⟨⟨[left, right], rfl, rfl, both⟩, ⟨[left, right], rfl, rfl, both⟩⟩

theorem FloatOp.replaces (op : FloatOp) (f : Format) (taken below : List Value)
    (counted : taken.length = op.arity.1)
    (owned : ∀ v ∈ taken, (OperandKind.numeric (.float f)).owns v) :
    Replaces (.numeric (.float f)) op.arity.2 below
      (op.onList (some (.float f)) (taken ++ below)) := by
  have own (x : Binary) : (OperandKind.numeric (.float f)).owns (.float f x) := by
    simp [OperandKind.owns, NumericType.owns]
  cases op with
  | binary op =>
    match taken, counted with
    | [right, left], _ =>
      obtain ⟨y, rfl⟩ := NumericType.owns_float (owned right (by simp))
      obtain ⟨x, rfl⟩ := NumericType.owns_float (owned left (by simp))
      simp only [List.cons_append, List.nil_append, onList, FloatBinary.combine_float]
      exact replaces_one (own (op.eval f x y)) below
  | unary op =>
    match taken, counted with
    | [v], _ =>
      obtain ⟨x, rfl⟩ := NumericType.owns_float (owned v (by simp))
      exact replaces_one (own (op.eval f x)) below
  | swap => exact (replaces_swap counted owned below).1
  | zero =>
    obtain rfl : taken = [] := List.eq_nil_of_length_eq_zero counted
    exact replaces_one (own (f.ofInt 0)) below
  | one =>
    obtain rfl : taken = [] := List.eq_nil_of_length_eq_zero counted
    exact replaces_one (own (f.ofInt 1)) below

theorem IntegerOp.replaces_checked (t : WordType) (result : Int) (fault : ArithmeticFault)
    (sample : Int) (operands : List Int) (below : List Value) :
    Replaces (.numeric (.word t)) 1 below
      ((checked (some (.word t)) result fault sample operands).map (· :: below)) := by
  rw [checked_word]
  split
  · exact replaces_one (by simp [OperandKind.owns, NumericType.owns]) below
  · rfl

theorem IntegerOp.replaces (op : IntegerOp) (t : WordType) (taken below : List Value)
    (counted : taken.length = op.arity.1)
    (owned : ∀ v ∈ taken, (OperandKind.numeric (.word t)).owns v) :
    Replaces (.numeric (.word t)) op.arity.2 below
      (op.onList (some (.word t)) (taken ++ below)) := by
  have own (n : Int) : (OperandKind.numeric (.word t)).owns (.word t n) := by
    simp [OperandKind.owns, NumericType.owns]
  cases op with
  | binary op =>
    match taken, counted with
    | [right, left], _ =>
      obtain ⟨r, rfl⟩ := NumericType.owns_word (owned right (by simp))
      obtain ⟨l, rfl⟩ := NumericType.owns_word (owned left (by simp))
      simp only [List.cons_append, List.nil_append, onList, combine_word, combineInts]
      cases op.exact (elementBits (some (.word t))) l r with
      | error e => rfl
      | ok result => exact replaces_checked t result op.overflow l [l, r] below
  | neg =>
    match taken, counted with
    | [v], _ =>
      obtain ⟨n, rfl⟩ := NumericType.owns_word (owned v (by simp))
      exact replaces_checked t (-n) .negOverflow n [n] below
  | swap => exact (replaces_swap counted owned below).2
  | zero =>
    obtain rfl : taken = [] := List.eq_nil_of_length_eq_zero counted
    exact replaces_one (own 0) below
  | one =>
    obtain rfl : taken = [] := List.eq_nil_of_length_eq_zero counted
    exact replaces_one (own 1) below

theorem OneTwoOp.replaces (op : OneTwoOp) (taken below : List Value)
    (counted : taken.length = op.arity.1) (owned : ∀ v ∈ taken, OperandKind.oneTwo.owns v) :
    Replaces .oneTwo op.arity.2 below (op.onList (taken ++ below)) := by
  match taken, counted with
  | [right, left], _ =>
    obtain ⟨r, rfl⟩ := OperandKind.owns_oneTwo (owned right (by simp))
    obtain ⟨l, rfl⟩ := OperandKind.owns_oneTwo (owned left (by simp))
    cases op <;> cases l <;> cases r
    case add.one.one => exact replaces_one (v := .oneTwo .two) rfl below
    case sub.two.one => exact replaces_one (v := .oneTwo .one) rfl below
    all_goals rfl

theorem Operator.replaces {family : Family} {kind : OperandKind} {vars : VariableKind}
    (paired : Paired family kind vars) {op : Operator} (member : op ∈ family.operators)
    (taken below : List Value) (counted : taken.length = op.needed)
    (owned : ∀ v ∈ taken, kind.owns v) :
    Replaces kind op.generated below (op.onList kind.dtype? (taken ++ below)) := by
  cases paired with
  | float vars accepted =>
    obtain ⟨f, rfl⟩ := Family.accepts_float accepted
    obtain ⟨op, _, rfl⟩ := List.mem_map.mp member
    exact op.replaces f taken below counted owned
  | integer vars accepted =>
    obtain ⟨w, rfl⟩ := Family.accepts_integer accepted
    obtain ⟨op, _, rfl⟩ := List.mem_map.mp member
    exact op.replaces ⟨true, w⟩ taken below counted owned
  | oneTwo =>
    obtain ⟨op, _, rfl⟩ := List.mem_map.mp member
    exact op.replaces taken below counted owned

end Postfix
