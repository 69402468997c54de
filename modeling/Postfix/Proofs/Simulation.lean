import Postfix.Plan
import Postfix.Proofs.Depth

/-! The readings of the static simulation against each other.
All of them follow the balance, which is what the tokens generate less what they need. They differ
in what they do about an operator that needs more than is there: the check reports it, the size is
missing, the greatest depth goes on with what there is and the depths of a plan go below zero. So
they agree up to the first such operator, and altogether where there is none. -/
namespace Postfix

namespace Arity

def balance : List Token → Int
  | [] => 0
  | t :: ts => t.generated - t.needed + balance ts

/-- The first operator that needs more values than the tokens before it leave, and its position. -/
structure FirstLack (ts : List Token) (p : Nat) (op : Operator) : Prop where
  at_position : ts[p]? = some (.operator op)
  lacks : balance (ts.take p) < op.needed
  first : ∀ q < p, ∀ o, ts[q]? = some (.operator o) → o.needed ≤ balance (ts.take q)

/-! ### The balance -/

@[simp] theorem balance_nil : balance [] = 0 := rfl

@[simp] theorem balance_cons (t : Token) (ts : List Token) :
    balance (t :: ts) = t.generated - t.needed + balance ts := rfl

theorem stackSizeFrom_cons_eq_some {b final : Nat} {t : Token} {ts : List Token} :
    stackSizeFrom b (t :: ts) = some final ↔
      ∃ next, step b t = some next ∧ stackSizeFrom next ts = some final :=
  Option.bind_eq_some_iff

theorem eq_balance_of_stackSizeFrom {b final : Nat} {ts : List Token}
    (size : stackSizeFrom b ts = some final) : (final : Int) = b + balance ts := by
  induction ts generalizing b with
  | nil =>
    cases size
    simp
  | cons t ts ih =>
    obtain ⟨next, moved, size⟩ := stackSizeFrom_cons_eq_some.mp size
    obtain ⟨enough, rfl⟩ := step_eq_some.mp moved
    rw [ih size, balance_cons]
    omega

theorem eq_balance_of_stackSize {final : Nat} {ts : List Token}
    (size : stackSize ts = some final) : (final : Int) = balance ts := by
  simpa using eq_balance_of_stackSizeFrom size

/-! ### Up to a token -/

theorem stackSizeFrom_cases (b : Nat) (ts : List Token) :
    (∃ final, stackSizeFrom b ts = some final) ∨
      ∃ done op rest short, ts = done ++ .operator op :: rest ∧
        stackSizeFrom b done = some short ∧ short < op.needed := by
  induction ts generalizing b with
  | nil => exact .inl ⟨b, rfl⟩
  | cons t ts ih =>
    cases moved : step b t with
    | none =>
      cases t with
      | operator op =>
        have short : b < op.needed := by
          simpa [step] using moved
        exact .inr ⟨[], op, ts, b, rfl, rfl, short⟩
      | operand value text => cases moved
      | reference v => cases moved
    | some next =>
      rcases ih next with ⟨final, size⟩ | ⟨done, op, rest, short, rfl, size, lacks⟩
      · exact .inl ⟨final, stackSizeFrom_cons_eq_some.mpr ⟨next, moved, size⟩⟩
      · exact .inr ⟨t :: done, op, rest, short, rfl,
          stackSizeFrom_cons_eq_some.mpr ⟨next, moved, size⟩, lacks⟩

theorem maxDepthFrom_cons (b depth : Nat) (t : Token) (ts : List Token) :
    maxDepthFrom b depth (t :: ts) =
      maxDepthFrom (b - t.needed + t.generated) (max depth (b - t.needed + t.generated)) ts := by
  cases t <;> rfl

/-- As long as no operator lacks a value the check keeps the balance and the greatest depth. -/
theorem checkFrom_append {position b depth short : Nat} {done : List Token} (rest : List Token)
    (size : stackSizeFrom b done = some short) :
    checkFrom position b depth (done ++ rest) =
      checkFrom (position + done.length) short (maxDepthFrom b depth done) rest := by
  induction done generalizing position b depth with
  | nil =>
    cases size
    rfl
  | cons t done ih =>
    obtain ⟨next, moved, size⟩ := stackSizeFrom_cons_eq_some.mp size
    obtain ⟨_, rfl⟩ := step_eq_some.mp moved
    have along : position + (t :: done).length = position + 1 + done.length := by
      rw [List.length_cons]
      omega
    rw [List.cons_append, checkFrom, moved, maxDepthFrom_cons, along]
    exact ih size

theorem check_of_stackSize {b : Nat} {ts : List Token} (size : stackSize ts = some b) :
    check ts = finish b (maxDepth ts) := by
  have passed : check (ts ++ []) = checkFrom (0 + ts.length) b (maxDepth ts) [] :=
    checkFrom_append [] size
  rwa [List.append_nil] at passed

section

variable {done rest : List Token} {op : Operator} {short : Nat}

theorem check_of_short (size : stackSize done = some short) (lacks : short < op.needed) :
    check (done ++ .operator op :: rest) = .error (.notEnough done.length op.symbol) := by
  rw [check, checkFrom_append _ size, checkFrom]
  simp [step, lacks, Token.text]

theorem stackSize_of_short (size : stackSize done = some short) (lacks : short < op.needed) :
    stackSize (done ++ .operator op :: rest) = none := by
  rw [stackSize, stackSizeFrom_append, show stackSizeFrom 0 done = some short from size]
  simp [stackSizeFrom, step, lacks]

end

theorem needed_le_balance {ts : List Token} {b q : Nat} (size : stackSize ts = some b)
    {op : Operator} (found : ts[q]? = some (.operator op)) :
    op.needed ≤ balance (ts.take q) := by
  obtain ⟨inside, same⟩ := List.getElem?_eq_some_iff.mp found
  rw [← List.take_append_drop q ts, List.drop_eq_getElem_cons inside, same, stackSize,
    stackSizeFrom_append] at size
  obtain ⟨before, reached, size⟩ := Option.bind_eq_some_iff.mp size
  obtain ⟨_, moved, _⟩ := stackSizeFrom_cons_eq_some.mp size
  rw [← eq_balance_of_stackSize reached]
  exact_mod_cast (step_eq_some.mp moved).1

theorem firstLack_of_short {done rest : List Token} {op : Operator} {short : Nat}
    (size : stackSize done = some short) (lacks : short < op.needed) :
    FirstLack (done ++ .operator op :: rest) done.length op := by
  refine ⟨by simp, ?_, ?_⟩
  · rw [List.take_left, ← eq_balance_of_stackSize size]
    exact_mod_cast lacks
  · intro q before o found
    rw [List.getElem?_append_left before] at found
    rw [List.take_append_of_le_length (Nat.le_of_lt before)]
    exact needed_le_balance size found

theorem FirstLack.unique {ts : List Token} {p q : Nat} {op o : Operator}
    (one : FirstLack ts p op) (other : FirstLack ts q o) : p = q ∧ op = o := by
  obtain rfl : p = q := by
    rcases Nat.lt_trichotomy p q with before | same | after
    · exact absurd one.lacks (Int.not_lt.mpr (other.first p before op one.at_position))
    · exact same
    · exact absurd other.lacks (Int.not_lt.mpr (one.first q after o other.at_position))
  have same := one.at_position.symm.trans other.at_position
  cases same
  exact ⟨rfl, rfl⟩

theorem simulation_cases (ts : List Token) :
    (∃ b, stackSize ts = some b ∧ check ts = finish b (maxDepth ts) ∧
        ∀ p op, ¬ FirstLack ts p op) ∨
      ∃ p op, FirstLack ts p op ∧ check ts = .error (.notEnough p op.symbol) ∧
        stackSize ts = none := by
  rcases stackSizeFrom_cases 0 ts with ⟨b, size⟩ | ⟨done, op, rest, short, rfl, size, lacks⟩
  · refine .inl ⟨b, size, check_of_stackSize size, fun p op lack => ?_⟩
    exact absurd lack.lacks (Int.not_lt.mpr (needed_le_balance size lack.at_position))
  · exact .inr ⟨done.length, op, firstLack_of_short size lacks, check_of_short size lacks,
      stackSize_of_short size lacks⟩

/-! ### The greatest depth and the depths -/

theorem le_maxDepthFrom (b depth : Nat) (ts : List Token) : depth ≤ maxDepthFrom b depth ts := by
  induction ts generalizing b depth with
  | nil => exact Nat.le_refl depth
  | cons t ts ih =>
    rw [maxDepthFrom_cons]
    exact Nat.le_trans (Nat.le_max_left ..) (ih _ _)

/-- The clamped balance is never below the other one, so the bound holds even beyond an operator
that lacks values. -/
theorem balance_le_maxDepthFrom {b depth : Nat} (reached : b ≤ depth) (done rest : List Token) :
    b + balance done ≤ maxDepthFrom b depth (done ++ rest) := by
  induction done generalizing b depth with
  | nil =>
    have kept := le_maxDepthFrom b depth rest
    simp only [balance_nil, List.nil_append]
    omega
  | cons t done ih =>
    rw [List.cons_append, maxDepthFrom_cons, balance_cons]
    have later := ih (Nat.le_max_right depth (b - t.needed + t.generated))
    omega

theorem balance_take_le (ts : List Token) (k : Nat) : balance (ts.take k) ≤ maxDepth ts := by
  have bound := balance_le_maxDepthFrom (Nat.le_refl 0) (ts.take k) (ts.drop k)
  rw [List.take_append_drop] at bound
  simpa [maxDepth] using bound

theorem depthsFrom_eq (start : Int) (ts : List Token) :
    depthsFrom start ts =
      (List.range ts.length).map fun i => start + balance (ts.take (i + 1)) := by
  induction ts generalizing start with
  | nil => rfl
  | cons t ts ih =>
    have cons : depthsFrom start (t :: ts) =
        (start - t.needed + t.generated) :: depthsFrom (start - t.needed + t.generated) ts := by
      cases t <;> simp [depthsFrom, Token.needed, Token.generated]
    rw [cons, ih, List.length_cons, List.range_succ_eq_map, List.map_cons, List.map_map]
    congr 1
    · simp only [List.take_succ_cons, List.take_zero, balance_cons, balance_nil]
      omega
    · apply List.map_congr_left
      intro i _
      simp only [Function.comp, List.take_succ_cons, balance_cons]
      omega

theorem depths_eq (ts : List Token) :
    depths ts = (List.range ts.length).map fun i => balance (ts.take (i + 1)) := by
  simpa [depths] using depthsFrom_eq 0 ts

/-! ### What the readings report -/

theorem finish_eq_iff (b depth : Nat) :
    (∀ d, finish b depth = .ok d ↔ b = 1 ∧ d = depth) ∧
      (finish b depth = .error .noResult ↔ b = 0) ∧
      (∀ n, finish b depth = .error (.tooMany n) ↔ n = b ∧ 1 < b) ∧
      ∀ p text, finish b depth ≠ .error (.notEnough p text) := by
  match b with
  | 0 => simp [finish]
  | 1 => simp [finish, eq_comm]
  | b + 2 => simp [finish, eq_comm]

theorem lacking_iff (ts : List Token) :
    (∀ p text, check ts = .error (.notEnough p text) ↔
        ∃ op, FirstLack ts p op ∧ op.symbol = text) ∧
      (stackSize ts = none ↔ ∃ p op, FirstLack ts p op) := by
  rcases simulation_cases ts with ⟨b, size, checked, none⟩ | ⟨p, op, lack, checked, missing⟩
  · constructor
    · intro p text
      rw [checked]
      refine iff_of_false ((finish_eq_iff b _).2.2.2 p text) ?_
      rintro ⟨op, lack, _⟩
      exact none p op lack
    · refine iff_of_false (by simp [size]) ?_
      rintro ⟨p, op, lack⟩
      exact none p op lack
  · constructor
    · intro q text
      rw [checked]
      constructor
      · intro same
        cases same
        exact ⟨op, lack, rfl⟩
      · rintro ⟨o, other, rfl⟩
        obtain ⟨rfl, rfl⟩ := lack.unique other
        rfl
    · exact iff_of_true missing ⟨p, op, lack⟩

theorem check_iff_of_stackSize {ts : List Token} {b : Nat} (size : stackSize ts = some b) :
    (b : Int) = balance ts ∧ ((∃ d, check ts = .ok d) ↔ b = 1) ∧
      (check ts = .error .noResult ↔ b = 0) ∧
      ∀ n, check ts = .error (.tooMany n) ↔ n = b ∧ 1 < b := by
  obtain ⟨ok, noResult, tooMany, _⟩ := finish_eq_iff b (maxDepth ts)
  rw [check_of_stackSize size]
  refine ⟨eq_balance_of_stackSize size, ?_, noResult, tooMany⟩
  simp only [ok]
  exact ⟨fun ⟨_, one, _⟩ => one, fun one => ⟨_, one, rfl⟩⟩

theorem isValid_iff (ts : List Token) : isValid ts ↔ ∃ d, check ts = .ok d := by
  unfold isValid
  cases check ts <;> simp

theorem maxDepth_of_check {ts : List Token} {d : Nat} (checked : check ts = .ok d) :
    maxDepth ts = d := by
  have size : stackSize ts = some 1 := stackSizeFrom_of_checkFrom checked
  rw [check_of_stackSize size] at checked
  exact Except.ok.inj checked

end Arity

/-! ### Plans -/

namespace Expression

section

variable {raw : List String} {family : Family} {kind : OperandKind} {vars : VariableKind}
  {e : Expression}

theorem getElem?_planRows (e : Expression) (i : Nat) :
    e.planRows[i]? =
      e.tokens[i]?.map fun t => ⟨t.text, t.role, Arity.balance (e.tokens.take (i + 1))⟩ := by
  rw [planRows, List.getElem?_zipWith, Arity.depths_eq, List.getElem?_map]
  cases found : e.tokens[i]? with
  | none => rfl
  | some t =>
    obtain ⟨inside, _⟩ := List.getElem?_eq_some_iff.mp found
    rw [List.getElem?_range inside]
    rfl

theorem length_planRows (e : Expression) : e.planRows.length = e.tokens.length := by
  simp [planRows, Arity.depths_eq]

theorem exists_planRow {e : Expression} {i : Nat} (inside : i < e.tokens.length) :
    ∃ row ∈ e.planRows, row.depth = Arity.balance (e.tokens.take (i + 1)) := by
  have found := e.getElem?_planRows i
  rw [List.getElem?_eq_getElem inside] at found
  exact ⟨_, List.mem_of_getElem? found, rfl⟩

/-- No depth of a plan is above the one that the expression is built with, one of them reaches it,
and the last one is the result alone. -/
theorem planRows_of_built (built : ofTokens raw family kind vars = .ok e) :
    (∀ row ∈ e.planRows, row.depth ≤ e.maxStack) ∧
      (∃ row ∈ e.planRows, row.depth = e.maxStack) ∧
      e.planRows.getLast?.map (·.depth) = some 1 := by
  have checked := (ofTokens_eq_ok.mp built).2.2.1
  have deepest : Arity.maxDepth e.tokens = e.maxStack := Arity.maxDepth_of_check checked
  have whole : Arity.balance e.tokens = 1 := by
    rw [← Arity.eq_balance_of_stackSize (Arity.stackSizeFrom_of_checkFrom checked)]
    rfl
  have below (k : Nat) : Arity.balance (e.tokens.take k) ≤ e.maxStack := by
    rw [← deepest]
    exact Arity.balance_take_le e.tokens k
  have positive : (1 : Int) ≤ e.maxStack := by
    have atEnd := below e.tokens.length
    rwa [List.take_length, whole] at atEnd
  refine ⟨?_, ?_, ?_⟩
  · intro row listed
    obtain ⟨i, found⟩ := List.mem_iff_getElem?.mp listed
    rw [getElem?_planRows, Option.map_eq_some_iff] at found
    obtain ⟨t, _, rfl⟩ := found
    exact below (i + 1)
  · rcases Arity.exists_deepest checked with none | ⟨done, rest, split, size⟩
    · omega
    · have reached := Arity.eq_balance_of_stackSize size
      cases done with
      | nil =>
        rw [reached] at positive
        cases positive
      | cons t done =>
        have inside : done.length < e.tokens.length := by
          rw [split, List.length_append, List.length_cons]
          omega
        have upTo : e.tokens.take (done.length + 1) = t :: done := by simp [split]
        rw [reached, ← upTo]
        exact exists_planRow inside
  · cases tokens : e.tokens with
    | nil =>
      rw [tokens] at whole
      cases whole
    | cons t ts =>
      rw [List.getLast?_eq_getElem?, getElem?_planRows, length_planRows, tokens]
      rw [tokens] at whole
      simp [whole]

/-- The readings of a sequence agree, and the depths of a plan are the balances. An operator that
lacks values is reported exactly if it is the first; without one, the balance at the end decides
what the check says. -/
theorem simulations_agree :
    (∀ ts : List Token,
      (∀ p text, Arity.check ts = .error (.notEnough p text) ↔
        ∃ op, Arity.FirstLack ts p op ∧ op.symbol = text) ∧
      (Arity.stackSize ts = none ↔ ∃ p op, Arity.FirstLack ts p op) ∧
      (∀ b, Arity.stackSize ts = some b →
        (b : Int) = Arity.balance ts ∧ ((∃ d, Arity.check ts = .ok d) ↔ b = 1) ∧
          (Arity.check ts = .error .noResult ↔ b = 0) ∧
          ∀ n, Arity.check ts = .error (.tooMany n) ↔ n = b ∧ 1 < b) ∧
      (Arity.isValid ts ↔ ∃ d, Arity.check ts = .ok d) ∧
      (∀ d, Arity.check ts = .ok d → Arity.maxDepth ts = d) ∧
      ∀ k, Arity.balance (ts.take k) ≤ Arity.maxDepth ts) ∧
    ∀ raw family kind vars e, ofTokens raw family kind vars = .ok e →
      (∀ i : Nat, e.planRows[i]? = e.tokens[i]?.map fun t =>
        ⟨t.text, t.role, Arity.balance (e.tokens.take (i + 1))⟩) ∧
      (∀ row ∈ e.planRows, row.depth ≤ e.maxStack) ∧
      (∃ row ∈ e.planRows, row.depth = e.maxStack) ∧
      e.planRows.getLast?.map (·.depth) = some 1 := by
  constructor
  · intro ts
    obtain ⟨reported, missing⟩ := Arity.lacking_iff ts
    exact ⟨reported, missing, fun _ size => Arity.check_iff_of_stackSize size, Arity.isValid_iff ts,
      fun _ checked => Arity.maxDepth_of_check checked, Arity.balance_take_le ts⟩
  · intro raw family kind vars e built
    exact ⟨e.getElem?_planRows, planRows_of_built built⟩

end

/-- Without its first token the expression lacks a value at its end. -/
theorem simulations_agree_of_difference :
    ∃ e, ofTokens ["$0", "1", "2", "swap", "-", "+"] .integer (.numeric .int8) .index = .ok e ∧
      e.planRows.map (·.depth) = [1, 2, 3, 3, 2, 1] ∧ (∀ row ∈ e.planRows, row.depth ≤ 3) ∧
      ∃ op, Arity.FirstLack (e.tokens.drop 1) 4 op ∧ op.symbol = "+" := by
  let e : Expression :=
    ⟨[.reference (.index 0), .operand (.word .int8 1) "1", .operand (.word .int8 2) "2",
      .operator (.integer .swap), .operator (.integer (.binary .sub)),
      .operator (.integer (.binary .add))], 3, .numeric .int8, .integer, .index⟩
  have built :
      ofTokens ["$0", "1", "2", "swap", "-", "+"] .integer (.numeric .int8) .index = .ok e := by
    with_unfolding_all rfl
  refine ⟨e, built, rfl, (simulations_agree.2 _ _ _ _ e built).2.1, ?_⟩
  exact ((simulations_agree.1 (e.tokens.drop 1)).1 4 "+").mp rfl

end Expression
end Postfix
