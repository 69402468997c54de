import Mathlib.Algebra.Order.Ring.Int
import Postfix.Proofs.Balance
import Postfix.Proofs.References

/-! Checked integer arithmetic against arithmetic on unbounded integers.
The ideal run has no range: it stops only where a division by zero or a negative exponent leaves no
integer at all. The machine follows it as long as no operation offends against the range of the
element type, and ends at the first one that does with that operation's own fault and operands.
Division and remainder truncate, so the least word divided by minus one offends and its remainder
does not. -/
namespace Postfix.Ideal

/-! ### The ideal run -/

def combine : IntegerBinary → Int → Int → Option Int
  | .add, l, r => some (l + r)
  | .sub, l, r => some (l - r)
  | .mul, l, r => some (l * r)
  | .div, l, r => if r = 0 then none else some (l.tdiv r)
  | .rem, l, r => if r = 0 then none else some (l.tmod r)
  | .pow, l, r => if r < 0 then none else some (l ^ r.toNat)

def operate : IntegerOp → List Int → Option (List Int)
  | .binary op, r :: l :: below => (combine op l r).map (· :: below)
  | .neg, n :: below => some (-n :: below)
  | .swap, r :: l :: below => some (l :: r :: below)
  | .zero, ns => some (0 :: ns)
  | .one, ns => some (1 :: ns)
  | _, _ => none

def step (env : Variable → Option Int) : Token → List Int → Option (List Int)
  | .operand (.word _ n) _, ns => some (n :: ns)
  | .reference v, ns => (env v).map (· :: ns)
  | .operator (.integer op), ns => operate op ns
  | _, _ => none

def run (env : Variable → Option Int) : List Token → List Int → Option (List Int)
  | [], ns => some ns
  | t :: rest, ns => (step env t ns).bind (run env rest)

def environment (kind : OperandKind) (c : Container) (v : Variable) : Option Int :=
  match Expression.resolve kind c v with
  | .ok (.word _ n) => some n
  | _ => none

/-- An operation that the range does not allow on a stack of exact operands, with its fault and
the operands that it reports, left before right. -/
inductive Offends (t : WordType) : IntegerOp → List Int → ArithmeticFault → List Int → Prop
  | add {l r : Int} {below : List Int} (out : ¬ t.holds (l + r)) :
    Offends t (.binary .add) (r :: l :: below) .addOverflow [l, r]
  | sub {l r : Int} {below : List Int} (out : ¬ t.holds (l - r)) :
    Offends t (.binary .sub) (r :: l :: below) .subUnderflow [l, r]
  | mul {l r : Int} {below : List Int} (out : ¬ t.holds (l * r)) :
    Offends t (.binary .mul) (r :: l :: below) .mulOverflow [l, r]
  | div {l r : Int} {below : List Int} (out : r = 0 ∨ ¬ t.holds (l.tdiv r)) :
    Offends t (.binary .div) (r :: l :: below) .invalidDiv [l, r]
  | rem {l r : Int} {below : List Int} (out : r = 0 ∨ ¬ t.holds (l.tmod r)) :
    Offends t (.binary .rem) (r :: l :: below) .invalidRem [l, r]
  | neg {n : Int} {below : List Int} (out : ¬ t.holds (-n)) :
    Offends t .neg (n :: below) .negOverflow [n]
  | exponent {l r : Int} {below : List Int} (out : r < 0) :
    Offends t (.binary .pow) (r :: l :: below) .invalidExponent [l, r]
  | pow {l r : Int} {below : List Int} (whole : 0 ≤ r) (out : ¬ t.holds (l ^ r.toNat)) :
    Offends t (.binary .pow) (r :: l :: below) .powOverflow [l, r]

def Clean (t : WordType) (env : Variable → Option Int) (ts : List Token) (ns : List Int) : Prop :=
  ∀ done op rest ms, ts = done ++ .operator (.integer op) :: rest → run env done ns = some ms →
    ∀ fault operands, ¬ Offends t op ms fault operands

/-! ### Powers -/

theorem power_eq (base : Int) (n : Nat) : IntegerBinary.power base n = base ^ n := by
  unfold IntegerBinary.power
  split
  · rename_i zero
    subst zero
    split
    · rename_i none; simp [none]
    · rename_i some; exact (zero_pow some).symm
  · split
    · rename_i one; simp [one]
    · split
      · rename_i minus
        subst minus
        split
        · rename_i even; exact ((Nat.even_iff.mpr even).neg_one_pow).symm
        · rename_i odd
          exact ((Nat.odd_iff.mpr (by omega)).neg_one_pow).symm
      · rfl

theorem natAbs_le_of_holds {w : Width} {n : Int} (h : WordType.holds ⟨true, w⟩ n) :
    n.natAbs ≤ 2 ^ (w.bits - 1) := by
  simp only [WordType.holds, WordType.minimum, WordType.maximum, if_true, Bool.and_eq_true,
    decide_eq_true_eq] at h
  have : (0 : Int) < (2 ^ (w.bits - 1) : Nat) := Int.natCast_pos.mpr (Nat.two_pow_pos _)
  omega

/-- An exponent as large as the width is refused rightly: no word holds such a power. -/
theorem not_holds_pow {w : Width} {base : Int} {n : Nat} (magnitude : 2 ≤ base.natAbs)
    (large : w.bits ≤ n) : ¬ WordType.holds ⟨true, w⟩ (base ^ n) := by
  intro h
  have bound := natAbs_le_of_holds h
  rw [Int.natAbs_pow] at bound
  have least : 2 ^ w.bits ≤ base.natAbs ^ n :=
    calc 2 ^ w.bits ≤ 2 ^ n := Nat.pow_le_pow_right (by decide) large
      _ ≤ base.natAbs ^ n := Nat.pow_le_pow_left magnitude n
  have : 2 ^ (w.bits - 1) < 2 ^ w.bits :=
    Nat.pow_lt_pow_right (by decide) (by cases w <;> decide)
  omega

/-! ### One operation -/

def Matches (t : WordType) (op : IntegerOp) (ns : List Int) : Except Failure (List Value) → Prop
  | .ok vs => (∃ ms, operate op ns = some ms ∧ vs = ms.map (.word t)) ∧
      ∀ fault operands, ¬ Offends t op ns fault operands
  | .error e => ∃ fault operands, Offends t op ns fault operands ∧ e = .arithmetic fault operands

theorem matches_checked {t : WordType} {op : IntegerOp} {ns below operands : List Int}
    {result : Int} {fault : ArithmeticFault} (sample : Int)
    (operated : operate op ns = some (result :: below))
    (offends : ∀ f os, Offends t op ns f os ↔ f = fault ∧ os = operands ∧ ¬ t.holds result) :
    Matches t op ns ((IntegerOp.checked (some (.word t)) result fault sample operands).map
      (· :: below.map (.word t))) := by
  rw [IntegerOp.checked_word]
  split
  · rename_i inside
    refine ⟨⟨_, operated, rfl⟩, fun f os h => ?_⟩
    exact ((offends f os).mp h).2.2 inside
  · rename_i out
    exact ⟨fault, operands, (offends fault operands).mpr ⟨rfl, rfl, out⟩, rfl⟩

theorem matches_binary (w : Width) (op : IntegerBinary) (l r : Int) (below : List Int) :
    Matches ⟨true, w⟩ (.binary op) (r :: l :: below)
      ((IntegerOp.combineInts (some (.word ⟨true, w⟩)) op l r).map
        (· :: below.map (.word ⟨true, w⟩))) := by
  cases op with
  | add =>
    refine matches_checked l rfl fun f os => ⟨?_, ?_⟩
    · rintro ⟨⟩; exact ⟨rfl, rfl, by assumption⟩
    · rintro ⟨rfl, rfl, out⟩; exact .add out
  | sub =>
    refine matches_checked l rfl fun f os => ⟨?_, ?_⟩
    · rintro ⟨⟩; exact ⟨rfl, rfl, by assumption⟩
    · rintro ⟨rfl, rfl, out⟩; exact .sub out
  | mul =>
    refine matches_checked l rfl fun f os => ⟨?_, ?_⟩
    · rintro ⟨⟩; exact ⟨rfl, rfl, by assumption⟩
    · rintro ⟨rfl, rfl, out⟩; exact .mul out
  | div =>
    by_cases zero : r = 0
    · simp only [IntegerOp.combineInts, IntegerBinary.exact, zero, if_true]
      exact ⟨.invalidDiv, [l, 0], .div (.inl rfl), rfl⟩
    · simp only [IntegerOp.combineInts, IntegerBinary.exact,
        IntegerBinary.truncatedQuotient_eq_tdiv, zero, if_false]
      refine matches_checked l (by simp [operate, combine, zero]) fun f os => ⟨?_, ?_⟩
      · rintro (_ | _ | _ | out); exact ⟨rfl, rfl, out.resolve_left zero⟩
      · rintro ⟨rfl, rfl, out⟩; exact .div (.inr out)
  | rem =>
    by_cases zero : r = 0
    · simp only [IntegerOp.combineInts, IntegerBinary.exact, zero, if_true]
      exact ⟨.invalidRem, [l, 0], .rem (.inl rfl), rfl⟩
    · simp only [IntegerOp.combineInts, IntegerBinary.exact,
        IntegerBinary.truncatedQuotient_eq_tdiv, zero, if_false, ← Int.tmod_def]
      refine matches_checked l (by simp [operate, combine, zero]) fun f os => ⟨?_, ?_⟩
      · rintro (_ | _ | _ | _ | out); exact ⟨rfl, rfl, out.resolve_left zero⟩
      · rintro ⟨rfl, rfl, out⟩; exact .rem (.inr out)
  | pow =>
    simp only [IntegerOp.combineInts, IntegerBinary.exact, power_eq]
    by_cases negative : r < 0
    · simp only [negative, if_true]
      exact ⟨.invalidExponent, [l, r], .exponent negative, rfl⟩
    · simp only [negative, if_false]
      have whole : 0 ≤ r := Int.not_lt.mp negative
      have offends : ∀ f os, Offends ⟨true, w⟩ (.binary .pow) (r :: l :: below) f os ↔
          f = .powOverflow ∧ os = [l, r] ∧ ¬ WordType.holds ⟨true, w⟩ (l ^ r.toNat) := by
        intro f os
        constructor
        · rintro (_ | _ | _ | _ | _ | _ | out | ⟨_, out⟩)
          · exact absurd out negative
          · exact ⟨rfl, rfl, out⟩
        · rintro ⟨rfl, rfl, out⟩; exact .pow whole out
      -- Long exponents are refused unseen: no word holds such a power.
      by_cases shortcut : 2 ≤ l.natAbs ∧ (w.bits : Int) ≤ r
      · have large : w.bits ≤ r.toNat := by omega
        simp only [IntegerOp.elementBits, shortcut, and_self, if_true]
        exact ⟨.powOverflow, [l, r],
          (offends _ _).mpr ⟨rfl, rfl, not_holds_pow shortcut.1 large⟩, rfl⟩
      · simp only [IntegerOp.elementBits, shortcut, if_false]
        exact matches_checked l (by simp [operate, combine, negative]) offends

theorem matches_operator (w : Width) (op : IntegerOp) (ns : List Int)
    (enough : op.arity.1 ≤ ns.length) :
    Matches ⟨true, w⟩ op ns
      (op.onList (some (.word ⟨true, w⟩)) (ns.map (.word ⟨true, w⟩))) := by
  cases op with
  | binary op =>
    match ns, enough with
    | r :: l :: below, _ => exact matches_binary w op l r below
  | neg =>
    match ns, enough with
    | n :: below, _ =>
      refine matches_checked n rfl fun f os => ⟨?_, ?_⟩
      · rintro ⟨⟩; exact ⟨rfl, rfl, by assumption⟩
      · rintro ⟨rfl, rfl, out⟩; exact .neg out
  | swap =>
    match ns, enough with
    | r :: l :: below, _ => exact ⟨⟨_, rfl, rfl⟩, fun f os h => by cases h⟩
  | zero => exact ⟨⟨_, rfl, rfl⟩, fun f os h => by cases h⟩
  | one => exact ⟨⟨_, rfl, rfl⟩, fun f os h => by cases h⟩

theorem length_operate {op : IntegerOp} {ns ms : List Int} (operated : operate op ns = some ms) :
    ms.length = ns.length - op.arity.1 + op.arity.2 := by
  unfold operate at operated
  split at operated
  · obtain ⟨n, _, rfl⟩ := Option.map_eq_some_iff.mp operated
    simp [IntegerOp.arity]
  all_goals first
    | (cases operated; simp [IntegerOp.arity])
    | cases operated

/-! ### Runs -/

section

variable {w : Width} {c : Container} {vars : VariableKind} {env : Variable → Option Int}

/-- A run of the machine beside the ideal one: both go through, or the machine ends at the first
operation that offends. -/
def Simulates (t : WordType) (env : Variable → Option Int) (ts : List Token) (ns : List Int) :
    Except Failure (List Value) → Prop
  | .ok vs => Clean t env ts ns ∧ ∃ ms, run env ts ns = some ms ∧ vs = ms.map (.word t)
  | .error e => ∃ done op rest ms fault operands,
      ts = done ++ .operator (.integer op) :: rest ∧ Clean t env done ns ∧
        run env done ns = some ms ∧ Offends t op ms fault operands ∧ e = .arithmetic fault operands

theorem clean_nil (t : WordType) (env : Variable → Option Int) (ns : List Int) :
    Clean t env [] ns := by
  intro done op rest ms split
  exact absurd split.symm (by simp)

theorem clean_cons {t : WordType} {tok : Token} {ts : List Token} {ns ms : List Int}
    (moved : step env tok ns = some ms)
    (sound : ∀ op, tok = .operator (.integer op) → ∀ f os, ¬ Offends t op ns f os)
    (clean : Clean t env ts ms) : Clean t env (tok :: ts) ns := by
  intro done op rest ks split ran
  cases done with
  | nil =>
    cases ran
    exact sound op (List.cons.inj split).1
  | cons d done =>
    obtain ⟨rfl, later⟩ := List.cons.inj split
    simp only [run, moved, Option.bind_some] at ran
    exact clean done op rest ks later ran

theorem Simulates.cons {t : WordType} {tok : Token} {ts : List Token} {ns ms : List Int}
    {out : Except Failure (List Value)} (moved : step env tok ns = some ms)
    (sound : ∀ op, tok = .operator (.integer op) → ∀ f os, ¬ Offends t op ns f os)
    (rest : Simulates t env ts ms out) : Simulates t env (tok :: ts) ns out := by
  cases out with
  | ok vs =>
    obtain ⟨clean, ks, ran, rfl⟩ := rest
    exact ⟨clean_cons moved sound clean, ks, by simp [run, moved, ran], rfl⟩
  | error e =>
    obtain ⟨done, op, after, ks, f, os, rfl, clean, ran, offends, rfl⟩ := rest
    exact ⟨tok :: done, op, after, ks, f, os, rfl, clean_cons moved sound clean,
      by simp [run, moved, ran], offends, rfl⟩

theorem runList_simulates {ts : List Token}
    (classified : ∀ t ∈ ts, ∃ raw,
      classify .integer vars (.numeric (.word ⟨true, w⟩)) raw = .ok t)
    (resolves : ∀ v, .reference v ∈ ts →
      ∃ x, Expression.resolve (.numeric (.word ⟨true, w⟩)) c v = .ok x)
    (ns : List Int) {balance : Nat} (balanced : Arity.stackSizeFrom ns.length ts = some balance) :
    Simulates ⟨true, w⟩ (environment (.numeric (.word ⟨true, w⟩)) c) ts ns
      (Expression.runList (.numeric (.word ⟨true, w⟩)) c ts (ns.map (.word ⟨true, w⟩))) := by
  -- A returned stack holds words only, those of the ideal run's integers.
  induction ts generalizing ns with
  | nil => exact ⟨clean_nil _ _ ns, ns, rfl, rfl⟩
  | cons tok ts ih =>
    simp only [Arity.stackSizeFrom, Option.bind_eq_some_iff] at balanced
    obtain ⟨next, moved, balanced⟩ := balanced
    have later := ih (fun t ht => classified t (List.mem_cons_of_mem tok ht))
      (fun v hv => resolves v (List.mem_cons_of_mem tok hv))
    obtain ⟨raw, first⟩ := classified tok List.mem_cons_self
    simp only [Expression.runList]
    rcases classify_eq_ok first with ⟨op, rfl, read⟩ | ⟨v, rfl, read⟩ | ⟨value, rfl, read⟩
    · obtain ⟨op, _, rfl⟩ := List.mem_map.mp (Family.mem_of_read read).1
      obtain ⟨enough, rfl⟩ := Arity.step_operator_eq_some.mp moved
      have operation := matches_operator w op ns enough
      simp only [Expression.onList, Operator.onList, OperandKind.dtype?, NumericType.dtype]
      cases out : op.onList (some (.word ⟨true, w⟩)) (ns.map (.word ⟨true, w⟩)) with
      | ok vs =>
        rw [out] at operation
        obtain ⟨⟨ms, operated, rfl⟩, sound⟩ := operation
        have moves : step (environment (.numeric (.word ⟨true, w⟩)) c)
            (.operator (.integer op)) ns = some ms := operated
        refine Simulates.cons moves (fun op' same => by cases same; exact sound) ?_
        exact later ms (by rw [length_operate operated]; exact balanced)
      | error e =>
        rw [out] at operation
        obtain ⟨f, os, offends, rfl⟩ := operation
        exact ⟨[], op, ts, ns, f, os, rfl, clean_nil _ _ ns, rfl, offends, rfl⟩
    · cases moved
      obtain ⟨x, found⟩ := resolves v List.mem_cons_self
      obtain ⟨n, rfl⟩ := NumericType.owns_word (Expression.owns_of_resolve found)
      simp only [Expression.onList, found]
      have moves : step (environment (.numeric (.word ⟨true, w⟩)) c) (.reference v) ns =
          some (n :: ns) := by simp [step, environment, found]
      exact Simulates.cons moves (fun op h => by cases h) (later (n :: ns) balanced)
    · cases moved
      obtain ⟨n, rfl⟩ := NumericType.owns_word (OperandKind.owns_of_read read)
      have moves (text : String) : step (environment (.numeric (.word ⟨true, w⟩)) c)
          (.operand (.word ⟨true, w⟩ n) text) ns = some (n :: ns) := rfl
      exact Simulates.cons (moves _) (fun op h => by cases h) (later (n :: ns) balanced)

/-! ### The range along a clean run -/

theorem Clean.tail {t : WordType} {tok : Token} {ts : List Token} {ns ms : List Int}
    (clean : Clean t env (tok :: ts) ns) (moved : step env tok ns = some ms) :
    Clean t env ts ms := by
  intro done op rest ks split ran
  exact clean (tok :: done) op rest ks (by rw [split]; rfl) (by simp [run, moved, ran])

theorem holds_operate {op : IntegerOp} {ns ms : List Int} (operated : operate op ns = some ms)
    (inside : ∀ n ∈ ns, WordType.holds ⟨true, w⟩ n)
    (sound : ∀ f os, ¬ Offends ⟨true, w⟩ op ns f os) :
    ∀ m ∈ ms, WordType.holds ⟨true, w⟩ m := by
  have tops (v : Int) (hv : WordType.holds ⟨true, w⟩ v) {below : List Int}
      (h : ∀ n ∈ below, WordType.holds ⟨true, w⟩ n) :
      ∀ m ∈ v :: below, WordType.holds ⟨true, w⟩ m := by
    simpa [hv] using h
  unfold operate at operated
  split at operated
  · rename_i op r l below
    obtain ⟨n, exact, rfl⟩ := Option.map_eq_some_iff.mp operated
    refine tops n ?_ fun m hm => inside m (by simp [hm])
    by_contra out
    cases op with
    | add => cases exact; exact sound _ _ (.add out)
    | sub => cases exact; exact sound _ _ (.sub out)
    | mul => cases exact; exact sound _ _ (.mul out)
    | div =>
      simp only [combine] at exact
      split at exact <;> cases exact
      exact sound _ _ (.div (.inr out))
    | rem =>
      simp only [combine] at exact
      split at exact <;> cases exact
      exact sound _ _ (.rem (.inr out))
    | pow =>
      simp only [combine] at exact
      split at exact <;> cases exact
      exact sound _ _ (.pow (by omega) out)
  · rename_i n below
    cases operated
    refine tops (-n) ?_ fun m hm => inside m (by simp [hm])
    by_contra out
    exact sound _ _ (.neg out)
  · rename_i r l below
    cases operated
    refine tops l (inside l (by simp)) (tops r (inside r (by simp)) ?_)
    exact fun m hm => inside m (by simp [hm])
  · cases operated
    exact tops 0 (by cases w <;> decide) inside
  · cases operated
    exact tops 1 (by cases w <;> decide) inside
  · cases operated

theorem holds_run {ts : List Token}
    (classified : ∀ t ∈ ts, ∃ raw,
      classify .integer vars (.numeric (.word ⟨true, w⟩)) raw = .ok t)
    (given : ∀ v, .reference v ∈ ts → ∀ m, env v = some m → WordType.holds ⟨true, w⟩ m)
    {ns ms : List Int} (inside : ∀ n ∈ ns, WordType.holds ⟨true, w⟩ n)
    (clean : Clean ⟨true, w⟩ env ts ns) (ran : run env ts ns = some ms) :
    ∀ m ∈ ms, WordType.holds ⟨true, w⟩ m := by
  induction ts generalizing ns with
  | nil => cases ran; exact inside
  | cons tok ts ih =>
    obtain ⟨ks, moved, ran⟩ := Option.bind_eq_some_iff.mp ran
    refine ih (fun t ht => classified t (List.mem_cons_of_mem tok ht))
      (fun v hv => given v (List.mem_cons_of_mem tok hv)) ?_ (clean.tail moved) ran
    obtain ⟨raw, first⟩ := classified tok List.mem_cons_self
    rcases classify_eq_ok first with ⟨op, rfl, read⟩ | ⟨v, rfl, read⟩ | ⟨value, rfl, read⟩
    · obtain ⟨op, _, rfl⟩ := List.mem_map.mp (Family.mem_of_read read).1
      exact holds_operate moved inside (clean [] op ts ns rfl rfl)
    · obtain ⟨n, known, rfl⟩ := Option.map_eq_some_iff.mp moved
      simpa [given v List.mem_cons_self n known] using inside
    · obtain ⟨n, rfl, held⟩ := NumericType.readWord_eq_ok read
      cases moved
      simpa [held] using inside

end

/-- Checked arithmetic refines exact arithmetic. If no operation of the ideal run offends, the
evaluation gives its result as a word, in range as soon as the values of the variables are; and
otherwise it ends with the fault and the operands of the first operation that does. -/
theorem evaluate_refines {w : Width} {vars : VariableKind} {raw : List String} {e : Expression}
    (built : Expression.ofTokens raw .integer (.numeric (.signed w)) vars = .ok e) (c : Container)
    (resolves : ∀ v ∈ e.references, ∃ x, Expression.resolve e.kind c v = .ok x) :
    (Clean ⟨true, w⟩ (environment e.kind c) e.tokens [] →
      ∃ n, run (environment e.kind c) e.tokens [] = some [n] ∧
        e.evaluate c = .ok (.word ⟨true, w⟩ n) ∧
        ((∀ v ∈ e.references, ∀ m, environment e.kind c v = some m →
          WordType.holds ⟨true, w⟩ m) → WordType.holds ⟨true, w⟩ n)) ∧
      (¬ Clean ⟨true, w⟩ (environment e.kind c) e.tokens [] →
        ∃ done op rest ms fault operands,
          e.tokens = done ++ .operator (.integer op) :: rest ∧
            Clean ⟨true, w⟩ (environment e.kind c) done [] ∧
            run (environment e.kind c) done [] = some ms ∧
            Offends ⟨true, w⟩ op ms fault operands ∧
            e.evaluate c = .error (.arithmetic fault operands)) := by
  obtain ⟨_, _, checked, kind, _, _⟩ := Expression.ofTokens_eq_ok.mp built
  have classified : ∀ t ∈ e.tokens, ∃ r,
      classify .integer vars (.numeric (.word ⟨true, w⟩)) r = .ok t := by
    intro t ht
    obtain ⟨r, _, h⟩ := Expression.classified_of_mem built ht
    exact ⟨r, h⟩
  have balanced := Arity.stackSizeFrom_of_checkFrom checked
  have paired : Paired .integer (.numeric (.signed w)) vars := .integer vars rfl
  have follows := @Expression.runList_follows _ _ _ paired c _ classified [] (by simp) _ balanced
  rw [kind] at resolves ⊢
  have whole := runList_simulates classified
    (fun v hv => resolves v (Expression.mem_references hv)) [] balanced
  rw [Expression.evaluate_eq_runList, kind]
  simp only [NumericType.signed, List.map_nil] at follows whole ⊢
  cases out : Expression.runList (.numeric (.word ⟨true, w⟩)) c e.tokens [] with
  | ok vs =>
    rw [out] at whole follows
    obtain ⟨clean, ms, ran, rfl⟩ := whole
    refine ⟨fun _ => ?_, fun unclean => absurd clean unclean⟩
    obtain ⟨n, rfl⟩ := List.length_eq_one_iff.mp ((List.length_map _).symm.trans follows.1)
    refine ⟨n, ran, rfl, fun given => ?_⟩
    exact holds_run classified (fun v hv => given v (Expression.mem_references hv)) (by simp)
      clean ran n (by simp)
  | error failure =>
    rw [out] at whole
    obtain ⟨done, op, rest, ms, f, os, split, clean, ran, offends, rfl⟩ := whole
    refine ⟨fun all => ?_, fun _ => ⟨done, op, rest, ms, f, os, split, clean, ran, offends, rfl⟩⟩
    exact absurd offends (all done op rest ms split ran f os)

theorem evaluate_refines_least_remainder :
    ∃ e, Expression.ofTokens ["-128", "$0", "%"] .integer (.numeric (.signed .w8)) .index = .ok e ∧
      (∀ v ∈ e.references, ∃ x, Expression.resolve e.kind (.positional [.int (-1)]) v = .ok x) ∧
      Clean ⟨true, .w8⟩ (environment e.kind (.positional [.int (-1)])) e.tokens [] ∧
      ∃ n, run (environment e.kind (.positional [.int (-1)])) e.tokens [] = some [n] ∧
        e.evaluate (.positional [.int (-1)]) = .ok (.word ⟨true, .w8⟩ n) := by
  have ok : (Expression.ofTokens ["-128", "$0", "%"] .integer (.numeric (.signed .w8))
      .index).toOption.any fun e => (e.evaluate (.positional [.int (-1)])).isOk &&
        e.references.all fun v =>
          (Expression.resolve e.kind (.positional [.int (-1)]) v).isOk := by decide +kernel
  cases built : Expression.ofTokens ["-128", "$0", "%"] .integer (.numeric (.signed .w8)) .index with
  | error f => rw [built] at ok; cases ok
  | ok e =>
    rw [built] at ok
    obtain ⟨evaluated, found⟩ := (Bool.and_eq_true _ _).mp ok
    have resolves : ∀ v ∈ e.references,
        ∃ x, Expression.resolve e.kind (.positional [.int (-1)]) v = .ok x := by
      intro v occurs
      have found := List.all_eq_true.mp found v occurs
      cases resolved : Expression.resolve e.kind (.positional [.int (-1)]) v with
      | error f => rw [resolved] at found; cases found
      | ok x => exact ⟨x, rfl⟩
    obtain ⟨exact, refused⟩ := evaluate_refines built (.positional [.int (-1)]) resolves
    have clean : Clean ⟨true, .w8⟩ (environment e.kind (.positional [.int (-1)])) e.tokens [] := by
      by_contra unclean
      obtain ⟨_, _, _, _, _, _, _, _, _, _, failed⟩ := refused unclean
      rw [failed] at evaluated
      cases evaluated
    obtain ⟨n, ran, value, _⟩ := exact clean
    exact ⟨e, rfl, resolves, clean, n, ran, value⟩

end Postfix.Ideal
