import Postfix.CommandLine.Evaluate
import Postfix.Proofs.Members
import Postfix.Proofs.Substitution

/-! The printed result of the command as an expression of its own.
Whatever was evaluated, the line that is printed is one word and is read as one operand: infinities,
NaN and zeros with their signs have texts too, and no text of an operand is taken for a symbol or a
variable. For the types whose texts lose nothing the operand is the result itself, so the command
prints the same line once more. -/
namespace Postfix

/-! ### Literals from results -/

namespace NumericType

theorem read_text_of_member {t : NumericType} (faithful : t.IsFaithful) {v : Value}
    (member : t.Member v) : t.read (t.text v) = .ok v := by
  rcases faithful with rfl | ⟨w, rfl⟩
  · obtain ⟨x, rfl, canonical⟩ := member_float.mp member
    exact readFloat_text_double canonical
  · obtain ⟨n, rfl, inside⟩ := member_word.mp member
    exact readWord_intText inside

end NumericType

theorem Text.splitTokens_word {s : String} (word : IsWord s.toList) : splitTokens s = [s] := by
  have one : ∀ w ∈ [s], IsWord w.toList := List.forall_mem_singleton.mpr word
  have split : splitTokens (" ".intercalate [s]) = [s] :=
    splitTokens_intercalate (by decide) (List.all_eq_true.mp (by decide)) one
  rwa [String.intercalate_singleton] at split

namespace Expression

theorem ofText_literal {family : Family} (standard : family.IsStandard) {t : NumericType}
    (works : family.accepts (.numeric t)) (vars : VariableKind) {text : String}
    (word : Text.IsWord text.toList) {v : Value} (read : t.read text = .ok v) :
    ∃ e, ofText text family (.numeric t) vars = .ok e ∧ ∀ c, e.evaluate c = .ok v := by
  let e : Expression := ⟨[.operand v (t.text v)], 1, .numeric t, family, vars⟩
  have classified := classify_literal standard vars read
  have built : ofText text family (.numeric t) vars = .ok e := by
    rw [ofText, Text.splitTokens_word word]
    exact ofTokens_eq_ok.mpr ⟨works, .cons classified .nil, rfl, rfl, rfl, rfl⟩
  refine ⟨e, built, fun c => ?_⟩
  rw [evaluate_eq_runList]
  rfl

end Expression

namespace CommandLine

/-! ### Calls -/

/-- The family and the operand type that a call asks for, by name or by default. -/
structure Selects (s : Settings) (p : Parsed) (family : Family) (t : NumericType) : Prop where
  family : Family.lookup (.text ((p.last? "--evaluator").getD s.evaluator)) = .ok family
  type : operandType s p ((p.last? "--evaluator").getD s.evaluator) = .ok t

structure Called (s : Settings) (p : Parsed) (o : Outcome) : Prop where
  valid : s.validate = .ok ()
  ran : runParsed s p = .ok o

/-- The outcome of a success: the plan if it was asked for, and the line of the result. -/
def Prints (p : Parsed) (line : String) (o : Outcome) : Prop :=
  ∃ plan, o = { exit := 0, output :=
    (if p.has "--show_plan" then plan ++ "\n" else "") ++ line ++ "\n" }

theorem Prints.alone {p : Parsed} {line : String} {o : Outcome} (prints : Prints p line o)
    (noPlan : p.has "--show_plan" = false) : o = { exit := 0, output := line ++ "\n" } := by
  obtain ⟨plan, rfl⟩ := prints
  simp [noPlan]

theorem run_eq_ok {s : Settings} {arguments : List String} {p : Parsed}
    (parsed : read specs arguments = .parsed p) {o : Outcome} :
    run s arguments = .ok o ↔ Called s p o := by
  simp only [run, parsed]
  change (s.validate.mapError Failure.fault >>= fun _ => runParsed s p) = .ok o ↔ _
  rw [Except.bind_eq_ok]
  simp only [Except.mapError_eq_ok]
  exact ⟨fun ⟨_, valid, ran⟩ => ⟨valid, ran⟩, fun called => ⟨(), called.valid, called.ran⟩⟩

theorem isStandard_of_lookup {name : String} {family : Family}
    (found : Family.lookup (.text name) = .ok family) : family.IsStandard := by
  unfold Family.lookup at found
  split at found
  · cases found; exact .inl rfl
  · cases found; exact .inl rfl
  · cases found; exact .inr rfl
  · cases found; exact .inr rfl
  · split at found <;> cases found

/-! ### Successes -/

section

variable {s : Settings} {p : Parsed} {family : Family} {t : NumericType} {vars : VariableKind}
  {c : Container}

theorem exit_of_report {output : String} {e : Failure} {o : Outcome}
    (reported : report output e = .ok o) : o.exit = 1 := by
  unfold report at reported
  split at reported
  · cases reported; rfl
  · cases reported

theorem evaluateWith_selected (selected : Selects s p family t) (vars : VariableKind)
    (c : Container) :
    evaluateWith s p vars c =
      if !family.accepts (.numeric t) then
        .ok (refuse ((p.last? "--evaluator").getD s.evaluator ++ " evaluator cannot use " ++
          t.name ++ " operands"))
      else match Expression.ofText (p.positional.getD "") family (.numeric t) vars with
      | .error e => report "" e
      | .ok e =>
        match e.evaluate c with
        | .error f => report (if p.has "--show_plan" then e.plan ++ "\n" else "") f
        | .ok v => .ok { exit := 0, output :=
            (if p.has "--show_plan" then e.plan ++ "\n" else "") ++ t.text v ++ "\n" } := by
  unfold evaluateWith
  simp only [selected.family, selected.type]
  rfl

theorem evaluateWith_prints (selected : Selects s p family t) {e : Expression} {v : Value}
    (built : Expression.ofText (p.positional.getD "") family (.numeric t) vars = .ok e)
    (evaluated : e.evaluate c = .ok v) :
    ∃ o, evaluateWith s p vars c = .ok o ∧ Prints p (t.text v) o := by
  have works := (Expression.ofTokens_eq_ok.mp built).1
  rw [evaluateWith_selected selected, works, built]
  simp only [evaluated]
  exact ⟨_, rfl, e.plan, rfl⟩

theorem evaluateWith_success (selected : Selects s p family t) {o : Outcome}
    (ran : evaluateWith s p vars c = .ok o) (success : o.exit = 0) :
    ∃ e v, Expression.ofText (p.positional.getD "") family (.numeric t) vars = .ok e ∧
      e.evaluate c = .ok v ∧ Prints p (t.text v) o := by
  rw [evaluateWith_selected selected] at ran
  split at ran
  · cases ran
    cases success
  · split at ran
    · rw [exit_of_report ran] at success
      cases success
    · rename_i e built
      split at ran
      · rw [exit_of_report ran] at success
        cases success
      · rename_i v evaluated
        cases ran
        exact ⟨e, v, built, evaluated, e.plan, rfl⟩

/-! ### Variables of a call -/

def GivesTexts (c : Container) : Prop :=
  ∀ key value, c.lookup key = .ok (some value) → ∃ text, value = .text text

theorem givesTexts_positional (texts : List String) :
    GivesTexts (.positional (texts.map .text)) := by
  intro key value found
  simp only [Container.lookup, Except.ok.injEq, Option.bind_eq_some_iff] at found
  obtain ⟨item, ⟨i, _, listed⟩, found⟩ := found
  obtain ⟨text, _, rfl⟩ := List.mem_map.mp (List.mem_of_getElem? listed)
  cases found
  exact ⟨text, rfl⟩

theorem givesTexts_keyed {pairs : List (Value × Value)}
    (texts : ∀ pair ∈ pairs, ∃ text, pair.2 = .text text) : GivesTexts (.keyed pairs) := by
  intro key value found
  simp only [Container.lookup] at found
  split at found
  · rw [Except.ok.injEq, Option.bind_eq_some_iff] at found
    obtain ⟨pair, listed, found⟩ := found
    obtain ⟨text, same⟩ := texts pair (List.mem_reverse.mp (List.mem_of_find?_eq_some listed))
    rw [same] at found
    cases found
    exact ⟨text, rfl⟩
  · cases found

theorem texts_of_readNamed {arguments : List String} {pairs : List (Value × Value)}
    (read : readNamed arguments = .ok pairs) : ∀ pair ∈ pairs, ∃ text, pair.2 = .text text := by
  induction arguments generalizing pairs with
  | nil =>
    cases read
    exact List.forall_mem_nil _
  | cons argument rest ih =>
    rw [readNamed] at read
    split at read
    · cases read
    · cases read
    · obtain ⟨others, first, rfl⟩ := Except.map_eq_ok.mp read
      exact List.forall_mem_cons.mpr ⟨⟨_, rfl⟩, ih first⟩

theorem runParsed_success {o : Outcome} (ran : runParsed s p = .ok o) (success : o.exit = 0) :
    ∃ vars c, GivesTexts c ∧ evaluateWith s p vars c = .ok o := by
  unfold runParsed at ran
  simp only at ran
  split at ran
  · cases ran
    cases success
  · split at ran
    · exact ⟨_, _, givesTexts_positional _, ran⟩
    · split at ran
      · rename_i pairs read
        exact ⟨_, _, givesTexts_keyed (texts_of_readNamed read), ran⟩
      · cases ran
        cases success

theorem runParsed_without_variables (noValues : p.all "--var" = [])
    (noPairs : p.all "--named_var" = []) :
    runParsed s p = evaluateWith s p .index (.positional []) := by
  simp [runParsed, noValues, noPairs]

end

/-- The printed result is a fixed point. If a call over a faithful type succeeds, its last line is
one word, and every call with this line for the expression, the same family and type and no
variables succeeds and prints the line again, alone unless a plan is asked for. -/
theorem output_fixed_point {s : Settings} {p : Parsed} {family : Family} {t : NumericType}
    (selected : Selects s p family t) (faithful : t.IsFaithful) {o : Outcome}
    (called : Called s p o) (success : o.exit = 0) :
    ∃ line, Prints p line o ∧ Text.IsWord line.toList ∧
      ∀ q, Selects s q family t → q.positional = some line → q.all "--var" = [] →
        q.all "--named_var" = [] →
        ∃ again, Called s q again ∧ Prints q line again ∧
          (q.has "--show_plan" = false → again = { exit := 0, output := line ++ "\n" }) ∧
          ∀ arguments, read specs arguments = .parsed q → run s arguments = .ok again := by
  obtain ⟨vars, c, texts, ran⟩ := runParsed_success called.ran success
  obtain ⟨e, v, built, evaluated, prints⟩ := evaluateWith_success selected ran success
  have standard := isStandard_of_lookup selected.family
  have works := (Expression.ofTokens_eq_ok.mp built).1
  have member : t.Member v := by
    apply Expression.evaluate_member built _ evaluated
    intro w _ value found
    obtain ⟨text, rfl⟩ := texts w.key value found
    trivial
  have literal := NumericType.read_text_of_member faithful member
  have word := NumericType.isWord_text literal
  refine ⟨t.text v, prints, word, fun q selected expression noValues noPairs => ?_⟩
  obtain ⟨e, built, evaluates⟩ := Expression.ofText_literal standard works .index word literal
  have text : q.positional.getD "" = t.text v := by rw [expression]; rfl
  rw [← text] at built
  obtain ⟨again, ran, prints⟩ := evaluateWith_prints selected built (evaluates (.positional []))
  rw [← runParsed_without_variables noValues noPairs] at ran
  have called : Called s q again := ⟨called.valid, ran⟩
  exact ⟨again, called, prints, prints.alone, fun _ parsed => (run_eq_ok parsed).mpr called⟩

/-- An infinity below zero, from a named variable. -/
theorem output_fixed_point_infinite :
    ∃ (s : Settings) (p : Parsed) (o : Outcome), Selects s p .float .float64 ∧
      NumericType.float64.IsFaithful ∧ Called s p o ∧ o = { exit := 0, output := "-inf\n" } ∧
      p.options = [("--named_var", some "x=-1")] ∧
      Called s { positional := some "-inf" } { exit := 0, output := "-inf\n" } := by
  let s : Settings := {}
  let p : Parsed := { positional := some "$x 0 /", options := [("--named_var", some "x=-1")] }
  let c : Container := .keyed [(.text "x", .text "-1")]
  let e : Expression :=
    ⟨[.reference (.name "x"), .operand (.float .double (.finite false 0 (-1074))) "0",
      .operator (.float (.binary .div))], 2, .numeric .float64, .float, .name⟩
  have selected : Selects s p .float .float64 := ⟨by decide +kernel, by decide +kernel⟩
  have valid : s.validate = .ok () := by decide +kernel
  have faithful : NumericType.float64.IsFaithful := .inl rfl
  have built : Expression.ofText "$x 0 /" .float (.numeric .float64) .name = .ok e := by
    with_unfolding_all rfl
  have evaluated : e.evaluate c = .ok (.float .double (.inf true)) := by
    rw [Expression.evaluate_eq_runList]
    with_unfolding_all rfl
  obtain ⟨o, ran, prints⟩ := evaluateWith_prints selected built evaluated
  obtain rfl := prints.alone rfl
  have called : Called s p { exit := 0, output := "-inf\n" } := ⟨valid, ran⟩
  obtain ⟨line, printed, _, fixed⟩ := output_fixed_point selected faithful called rfl
  have same : "-inf" ++ "\n" = line ++ "\n" := congrArg Outcome.output (printed.alone rfl)
  obtain rfl : line = "-inf" := ((String.append_left_inj "\n").mp same).symm
  obtain ⟨again, calledAgain, _, alone, _⟩ :=
    fixed { positional := some "-inf" } ⟨by decide +kernel, by decide +kernel⟩ rfl rfl rfl
  obtain rfl := alone rfl
  exact ⟨s, p, _, selected, faithful, called, rfl, rfl, calledAgain⟩

end CommandLine
end Postfix
