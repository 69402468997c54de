import Postfix.CommandLine.Evaluate
import Postfix.Failure.Kind
import Postfix.Proofs.Reading

/-! How the building of an expression fails.
Every failure is one that building is documented to end with, except where a token has the form of
an index or of a literal and denotes none: the fault of reading it ends the building, and the
command line does not report it. Only the two families whose symbols are fixed words are looked at.
-/
namespace Postfix

/-! ### Tokens that are accepted, and tokens that are not -/

def Accepted (family : Family) (vars : VariableKind) (t : NumericType) (raw : String) : Prop :=
  (∃ op, family.read raw = .ok op) ∨ (∃ v, vars.read raw = .ok v) ∨ ∃ value, t.read raw = .ok value

def RefusedFor (family : Family) (vars : VariableKind) (t : NumericType) (raw : String)
    (noOperator noVariable noOperand : TokenFault) : Prop :=
  family.read raw = .error (.token noOperator) ∧ vars.read raw = .error (.token noVariable) ∧
    t.read raw = .error (.token noOperand)

section

variable {family : Family} {vars : VariableKind} {t : NumericType} {raw : String}

theorem classify_unreadable (standard : family.IsStandard) {f : Fault}
    (unreadable : Unreadable vars raw t f) :
    classify family vars (.numeric t) raw = .error (.fault f) := by
  unfold classify
  rcases unreadable_iff.mp unreadable with noVariable | noOperand
  · obtain ⟨_, noIndex⟩ := VariableKind.read_eq_fault.mp noVariable
    obtain ⟨digits, form, _⟩ := readIndex_eq_fault.mp noIndex
    have noSymbol : IsNoSymbol raw.toList := .inr (by rw [form]; rfl)
    obtain ⟨_, noOperator⟩ := Family.read_refuses standard noSymbol
    rw [noOperator, noVariable]
  · obtain ⟨⟨_, noOperator⟩, _, noVariable⟩ := read_literal_eq_fault standard vars noOperand
    rw [noOperator, noVariable, OperandKind.read, noOperand]

theorem classify_accepted (standard : family.IsStandard) (accepted : Accepted family vars t raw) :
    ∃ token, classify family vars (.numeric t) raw = .ok token := by
  unfold classify
  rcases Family.read_cases standard raw with ⟨op, symbol⟩ | ⟨_, noOperator⟩
  · exact ⟨_, by rw [symbol]⟩
  · rw [noOperator]
    have rest := accepted.resolve_left (by rw [noOperator]; exact nofun)
    cases reads : vars.read raw with
    | ok v => exact ⟨_, rfl⟩
    | error refusal =>
      obtain ⟨value, literal⟩ := rest.resolve_left (by rw [reads]; exact nofun)
      cases refusal with
      | token _ => exact ⟨_, by rw [OperandKind.read, literal]⟩
      | fault f =>
        obtain ⟨_, noIndex⟩ := VariableKind.read_eq_fault.mp reads
        obtain ⟨digits, form, _⟩ := readIndex_eq_fault.mp noIndex
        exact absurd literal (NumericType.read_marked form (.inl rfl))

theorem classify_refused (standard : family.IsStandard) (refused : ¬ Accepted family vars t raw)
    (readable : ∀ f, ¬ Unreadable vars raw t f) :
    ∃ noOperator noVariable noOperand,
      RefusedFor family vars t raw noOperator noVariable noOperand ∧
        classify family vars (.numeric t) raw =
          .error (.unclassified raw noOperator noVariable noOperand) := by
  obtain ⟨noOperator, operator⟩ := (Family.read_cases standard raw).resolve_left
    fun symbol => refused (.inl symbol)
  cases reads : vars.read raw with
  | ok v => exact absurd (.inr (.inl ⟨v, reads⟩)) refused
  | error refusal =>
    cases refusal with
    | fault f => exact absurd (unreadable_iff.mpr (.inl reads)) (readable f)
    | token noVariable =>
      cases literal : t.read raw with
      | ok value => exact absurd (.inr (.inr ⟨value, literal⟩)) refused
      | error refusal =>
        cases refusal with
        | fault f => exact absurd (unreadable_iff.mpr (.inr literal)) (readable f)
        | token noOperand =>
          refine ⟨_, _, _, ⟨operator, reads, literal⟩, ?_⟩
          rw [classify, operator]
          simp only
          rw [reads]
          simp only
          rw [OperandKind.read, literal]

/-- A token that ends the classification is not accepted, and has the form of something it is not
or is refused by all three types. -/
theorem classify_eq_error (standard : family.IsStandard) {failure : Failure}
    (failed : classify family vars (.numeric t) raw = .error failure) :
    (∃ f, Unreadable vars raw t f ∧ failure = .fault f) ∨
      ∃ noOperator noVariable noOperand,
        RefusedFor family vars t raw noOperator noVariable noOperand ∧
          failure = .unclassified raw noOperator noVariable noOperand := by
  by_cases unreadable : ∃ f, Unreadable vars raw t f
  · obtain ⟨f, unreadable⟩ := unreadable
    rw [classify_unreadable standard unreadable] at failed
    cases failed
    exact .inl ⟨f, unreadable, rfl⟩
  · have refused : ¬ Accepted family vars t raw := by
      intro accepted
      obtain ⟨token, ok⟩ := classify_accepted standard accepted
      rw [ok] at failed
      cases failed
    obtain ⟨o, v, w, reasons, ended⟩ :=
      classify_refused standard refused (not_exists.mp unreadable)
    rw [ended] at failed
    cases failed
    exact .inr ⟨o, v, w, reasons, rfl⟩

end

/-! ### Expressions -/

def Failure.IsArity (failure : Failure) : Prop :=
  failure.kind? = some .notEnough ∨ failure.kind? = some .tooMany

theorem Failure.IsArity.isConstruction {failure : Failure} (arity : failure.IsArity) :
    failure.isConstruction := by
  cases failure with
  | notEnough _ _ => rfl
  | noResult => rfl
  | tooMany _ => rfl
  | unclassified _ _ _ _ => rfl
  | incompatible _ _ => rfl
  | token e => cases e <;> rcases arity with h | h <;> cases h
  | _ => rcases arity with h | h <;> cases h

theorem Arity.checkFrom_eq_error {position balance depth : ℕ} {ts : List Token} {failure : Failure}
    (failed : checkFrom position balance depth ts = .error failure) : failure.IsArity := by
  induction ts generalizing position balance depth with
  | nil =>
    rw [checkFrom, finish] at failed
    split at failed
    · cases failed; exact .inl rfl
    · split at failed <;> cases failed
      exact .inr rfl
  | cons t ts ih =>
    rw [checkFrom] at failed
    split at failed
    · cases failed; exact .inl rfl
    · exact ih failed

namespace Expression

variable {family : Family} {vars : VariableKind} {t : NumericType}

theorem ofTokens_incompatible {raw : List String} (apart : family.accepts (.numeric t) = false) :
    ofTokens raw family (.numeric t) vars = .error (.incompatible family.className t.name) := by
  simp [ofTokens, apart, OperandKind.label]

theorem ofTokens_accepted (standard : family.IsStandard) (works : family.accepts (.numeric t))
    {raw : List String} (accepted : ∀ r ∈ raw, Accepted family vars t r) :
    (∃ e, ofTokens raw family (.numeric t) vars = .ok e) ∨
      ∃ failure, ofTokens raw family (.numeric t) vars = .error failure ∧ failure.IsArity := by
  obtain ⟨ts, classified⟩ := Except.exists_mapM_eq_ok fun r hr =>
    classify_accepted standard (accepted r hr)
  rw [ofTokens, if_pos works, classified]
  cases checked : Arity.check ts with
  | ok depth => exact .inl ⟨_, by change (Arity.check ts >>= _) = _; rw [checked]; rfl⟩
  | error failure =>
    refine .inr ⟨failure, ?_, Arity.checkFrom_eq_error checked⟩
    change (Arity.check ts >>= _) = _
    rw [checked]
    rfl

theorem ofTokens_stopped (standard : family.IsStandard) (works : family.accepts (.numeric t))
    {done rest : List String} {r : String} (accepted : ∀ s ∈ done, Accepted family vars t s)
    {failure : Failure} (stopped : classify family vars (.numeric t) r = .error failure) :
    ofTokens (done ++ r :: rest) family (.numeric t) vars = .error failure := by
  rw [ofTokens, if_pos works, Except.mapM_eq_error
    (fun s hs => classify_accepted standard (accepted s hs)) stopped]
  rfl

theorem ofTokens_documented (standard : family.IsStandard) {raw : List String} {failure : Failure}
    (failed : ofTokens raw family (.numeric t) vars = .error failure) :
    failure.isConstruction ∨ ∃ r ∈ raw, ∃ f, Unreadable vars r t f ∧ failure = .fault f := by
  cases works : family.accepts (.numeric t) with
  | false =>
    rw [ofTokens_incompatible works] at failed
    cases failed
    exact .inl rfl
  | true =>
    rw [ofTokens, if_pos works] at failed
    cases classified : raw.mapM (classify family vars (.numeric t)) with
    | error e =>
      rw [classified] at failed
      cases failed
      obtain ⟨r, member, stopped⟩ := Except.exists_of_mapM_eq_error classified
      rcases classify_eq_error standard stopped with ⟨f, unreadable, rfl⟩ | ⟨o, v, w, _, rfl⟩
      · exact .inr ⟨r, member, f, unreadable, rfl⟩
      · exact .inl rfl
    | ok ts =>
      rw [classified] at failed
      change (Arity.check ts >>= _) = _ at failed
      cases checked : Arity.check ts with
      | ok depth => rw [checked] at failed; cases failed
      | error e =>
        rw [checked] at failed
        cases failed
        exact .inl (Arity.checkFrom_eq_error checked).isConstruction

end Expression

/-! ### The command line -/

namespace CommandLine

/-- The arguments go together, and ask for an expression of the family and the operand type, with
variables of the kind. -/
structure Asks (s : Settings) (arguments : List String) (p : Parsed) (family : Family)
    (t : NumericType) (vars : VariableKind) : Prop where
  parsed : read specs arguments = .parsed p
  valid : s.validate = .ok ()
  given : (p.all "--named_var" = [] ∧ vars = .index) ∨
    (p.all "--var" = [] ∧ p.all "--named_var" ≠ [] ∧ (readNamed (p.all "--named_var")).isOk ∧
      vars = .name)
  operators : Family.lookup (.text ((p.last? "--evaluator").getD s.evaluator)) = .ok family
  operands : operandType s p ((p.last? "--evaluator").getD s.evaluator) = .ok t

variable {s : Settings} {arguments : List String} {p : Parsed} {family : Family} {t : NumericType}
  {vars : VariableKind}

theorem Asks.run_eq (asks : Asks s arguments p family t vars) :
    ∃ c, run s arguments = evaluateWith s p vars c := by
  have parsed : run s arguments = runParsed s p := by
    rw [run, asks.parsed]
    simp only [asks.valid]
    rfl
  rw [parsed, runParsed]
  rcases asks.given with ⟨none, rfl⟩ | ⟨none, some, named, rfl⟩
  · simp [none]
  · cases known : readNamed (p.all "--named_var") with
    | error _ => rw [known] at named; cases named
    | ok pairs => exact ⟨.keyed pairs, by simp [none, some]⟩

theorem Asks.run_unbuilt (asks : Asks s arguments p family t vars)
    (works : family.accepts (.numeric t)) {failure : Failure}
    (failed : Expression.ofText (p.positional.getD "") family (.numeric t) vars =
      .error failure) : run s arguments = report "" failure := by
  obtain ⟨c, ran⟩ := asks.run_eq
  rw [ran, evaluateWith, asks.operators]
  simp only [Except.mapError, bind, Except.bind, asks.operands, works, failed, Bool.not_true,
    Bool.false_eq_true, if_false]

end CommandLine

namespace Expression

open CommandLine (Asks)

/-- How the building of an expression ends: an operand type that the family does not work on is
refused first; then the first token that none of the three types accepts, for its three reasons or
with the fault of its reading; then the count of operands. The command reports just the failures
that building is documented to end with. -/
theorem ofTokens_ends {family : Family} (standard : family.IsStandard) (t : NumericType)
    (vars : VariableKind) (raw : List String) :
    (family.accepts (.numeric t) = false →
      ofTokens raw family (.numeric t) vars = .error (.incompatible family.className t.name)) ∧
    (family.accepts (.numeric t) = true →
      ((∀ r ∈ raw, Accepted family vars t r) →
        (∃ e, ofTokens raw family (.numeric t) vars = .ok e) ∨
          ∃ failure, ofTokens raw family (.numeric t) vars = .error failure ∧ failure.IsArity) ∧
      ∀ done r rest, raw = done ++ r :: rest → (∀ s ∈ done, Accepted family vars t s) →
        ¬ Accepted family vars t r →
        (∀ f, Unreadable vars r t f →
          ofTokens raw family (.numeric t) vars = .error (.fault f)) ∧
        ((∀ f, ¬ Unreadable vars r t f) → ∃ noOperator noVariable noOperand,
          RefusedFor family vars t r noOperator noVariable noOperand ∧
          ofTokens raw family (.numeric t) vars =
            .error (.unclassified r noOperator noVariable noOperand))) ∧
    ∀ failure, ofTokens raw family (.numeric t) vars = .error failure →
      (failure.isConstruction ∨ ∃ r ∈ raw, ∃ f, Unreadable vars r t f ∧ failure = .fault f) ∧
      ∀ s arguments p, Asks s arguments p family t vars → family.accepts (.numeric t) = true →
        raw = Text.splitTokens (p.positional.getD "") →
        CommandLine.run s arguments =
          if failure.isConstruction then
            .ok { exit := 1, errors := "error: " ++ failure.message ++ "\n" }
          else .error failure := by
  refine ⟨ofTokens_incompatible, fun works => ⟨ofTokens_accepted standard works, ?_⟩, ?_⟩
  · rintro done r rest rfl accepted refused
    constructor
    · intro f unreadable
      exact ofTokens_stopped standard works accepted (classify_unreadable standard unreadable)
    · intro readable
      obtain ⟨o, v, w, reasons, stopped⟩ := classify_refused standard refused readable
      exact ⟨o, v, w, reasons, ofTokens_stopped standard works accepted stopped⟩
  · intro failure failed
    have documented := ofTokens_documented standard failed
    refine ⟨documented, ?_⟩
    rintro s arguments p asks works rfl
    rw [asks.run_unbuilt works failed, CommandLine.report]
    rcases documented with construction | ⟨_, _, f, _, rfl⟩
    · have : failure.isDocumented := by cases failure <;> first | rfl | cases construction
      rw [if_pos this, if_pos construction]
    · rfl

/-- Infinity spelled with the dotless letter ends the building, and the command, with a fault. -/
theorem ofTokens_ends_dotless :
    Family.float.IsStandard ∧
      ofTokens ["1", "ınf"] .float (.numeric .float64) .index =
        .error (.fault (.unreadable "ınf")) ∧
      CommandLine.run {} ["1 ınf"] = .error (.fault (.unreadable "ınf")) := by
  have standard : Family.float.IsStandard := .inl rfl
  obtain ⟨-, stops, ends⟩ := ofTokens_ends standard .float64 .index ["1", "ınf"]
  have unreadable : Unreadable .index "ınf" .float64 (.unreadable "ınf") :=
    .infinity (by decide) (by decide)
  have accepted : ∀ r ∈ ["1"], Accepted .float .index .float64 r := by
    intro r hr
    obtain rfl := List.mem_singleton.mp hr
    exact .inr (.inr ⟨.float .double (Format.double.ofInt 1), by rfl⟩)
  have refused : ¬ Accepted .float .index .float64 "ınf" := by
    rintro (⟨op, h⟩ | ⟨v, h⟩ | ⟨w, h⟩)
    · obtain ⟨member, same⟩ := Family.mem_of_read h
      have others : ∀ op ∈ Family.float.operators, op.symbol ≠ "ınf" := by decide
      exact others op member same
    · cases h
    · cases h
  have failed := (((stops rfl).2 ["1"] "ınf" [] rfl accepted refused).1 _ unreadable)
  refine ⟨standard, failed, (ends _ failed).2 {} ["1 ınf"] { positional := some "1 ınf" } ?_ rfl ?_⟩
  · constructor
    · rfl
    · decide +kernel
    · exact .inl ⟨rfl, rfl⟩
    · rfl
    · rfl
  · decide

end Expression
end Postfix
