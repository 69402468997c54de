import Postfix.Proofs.Formula.Columns

/-! Lists of formulas in another order.
All formulas read the frame that was given, so the order decides at most which of several results of
one name is the last. Where the text of an expression tells which expression it is, results of one
name are one result. Otherwise the order does matter: a symbol that can be taken for a literal gives
its name to two expressions. -/
namespace Postfix.Formula

/-- Formulas in any order put the same columns into a frame, whatever was called before, if no
symbol can be taken for a literal or a variable, or at least those of one text are one expression.
Each column has what its formula gives for the frame alone. -/
theorem applyFormulas_perm {settings : Settings} {options : Options} {start : Engine}
    (created : Engine.create settings options = .ok start) {f : Frame} (distinct : f.IsDistinct)
    {before : List Call} {formulas formulas' : List String} (perm : formulas.Perm formulas')
    {series : String → Series}
    (returned : ∀ formula ∈ formulas,
      ((evaluateFrame (.text formula) (.frame f)).runOn (start.after before)).1 =
        .ok (series formula))
    (tells : start.family.SymbolsApart ∧ start.variableKind ≠ .marked ∨
      start.TellsApart formulas) (first second : List Call) :
    ∃ a b, ((applyFormulas (.frame f) formulas).runOn (start.after first)).1 = .ok a ∧
      ((applyFormulas (.frame f) formulas').runOn (start.after second)).1 = .ok b ∧
      a.SameColumns b ∧ a.IsDistinct ∧ b.IsDistinct ∧
      (∀ c, c ∈ a.columns ↔
        (c ∈ f.columns ∧ ∀ formula ∈ formulas, c.label ≠ .text (series formula).name) ∨
          ∃ formula ∈ formulas, c = (series formula).column) ∧
      ∀ formula ∈ formulas, ∀ history,
        ((evaluateFrame (.text formula) (.frame f)).runOn (start.after history)).1 =
          .ok (series formula) := by
  have tells : start.TellsApart formulas := by
    rcases tells with ⟨apart, unmarked⟩ | tells
    · exact .of_symbolsApart apart unmarked
    · exact tells
  have single := single_of_tellsApart created returned tells
  have anytime := returned_anytime created returned
  have permuted : ∀ formula ∈ formulas', ∀ history,
      ((evaluateFrame (.text formula) (.frame f)).runOn (start.after history)).1 =
        .ok (series formula) := fun formula member => anytime formula (perm.mem_iff.mpr member)
  refine ⟨_, _, applyEach_outcome anytime f, applyEach_outcome permuted f,
    Frame.withSeries_perm (perm.map series) single, distinct.withSeries, distinct.withSeries, ?_,
    anytime⟩
  intro c
  rw [Frame.mem_withSeries_map]
  refine or_congr_right (exists_congr fun formula => and_congr_right fun member => ?_)
  exact and_iff_right (Series.isLast_of_single single (List.mem_map_of_mem member))

/-- Two spellings of one sum, and the name of a constant. -/
theorem applyFormulas_perm_spellings :
    ∃ start, Engine.create {} { family := some (.named "int"), cacheSize := some 1 } = .ok start ∧
      ∃ f : Frame, f.IsDistinct ∧
        ∃ a b, ((applyFormulas (.frame f) ["$a 1 +", "$a 01 +", "zero"]).runOn
            (start.after [])).1 = .ok a ∧
          ((applyFormulas (.frame f) ["zero", "$a 01 +", "$a 1 +"]).runOn
            (start.after [.parse "zero"])).1 = .ok b ∧
          a.SameColumns b ∧ a.IsDistinct ∧
          ⟨.text "$a 1 +", .word .int64, [.word .int64 3]⟩ ∈ a.columns ∧
          ⟨.text "zero", .word .int64, [.word .int64 0]⟩ ∈ a.columns := by
  let start := Engine.integers 1
  let f : Frame := ⟨[⟨.text "a", .word .int64, [.word .int64 2]⟩], [.int 0]⟩
  let sum : Expression := ⟨[.reference (.name "a"), .operand (.word .int64 1) "1",
    .operator (.integer (.binary .add))], 2, .numeric .int64, .integer, .name⟩
  let zero : Expression := ⟨[.operator (.integer .zero)], 1, .numeric .int64, .integer, .name⟩
  let series (formula : String) : Series :=
    if formula = "zero" then ⟨"zero", .word .int64, [.word .int64 0], [.int 0]⟩
    else ⟨"$a 1 +", .word .int64, [.word .int64 3], [.int 0]⟩
  have created := Engine.create_integers_sized 1 (by decide)
  have three : sum.evaluate (f.row 0) = .ok (.word .int64 3) := by
    rw [Expression.evaluate_eq_runList]
    with_unfolding_all rfl
  have nothing : zero.evaluate (f.row 0) = .ok (.word .int64 0) := by
    rw [Expression.evaluate_eq_runList]
    with_unfolding_all rfl
  have rows : f.rows = [f.row 0] := rfl
  have summed {formula : String} (built : start.build formula = .ok sum)
      (other : formula ≠ "zero") :
      ((evaluateFrame (.text formula) (.frame f)).runOn (start.after [])).1 =
        .ok (series formula) := by
    rw [evaluateFrame_text created (by decide) [] built, rows, rowValues, three]
    simp only [series, if_neg other]
    with_unfolding_all rfl
  have returned : ∀ formula ∈ ["$a 1 +", "$a 01 +", "zero"],
      ((evaluateFrame (.text formula) (.frame f)).runOn (start.after [])).1 =
        .ok (series formula) := by
    simp only [List.forall_mem_cons, List.not_mem_nil, IsEmpty.forall_iff, implies_true, and_true]
    refine ⟨summed (by with_unfolding_all rfl) (by decide),
      summed (by with_unfolding_all rfl) (by decide), ?_⟩
    have built : start.build "zero" = .ok zero := by with_unfolding_all rfl
    rw [evaluateFrame_text created (by decide) [] built, rows, rowValues, nothing]
    with_unfolding_all rfl
  have distinct : f.IsDistinct := by simp [Frame.IsDistinct, f]
  have perm : ["$a 1 +", "$a 01 +", "zero"].Perm ["zero", "$a 01 +", "$a 1 +"] := by decide
  obtain ⟨a, b, ran, ran', same, apart, _, members, _⟩ := applyFormulas_perm created distinct perm
    returned (.inl ⟨Family.IsStandard.symbolsApart (.inr rfl), by decide⟩) [] [.parse "zero"]
  refine ⟨start, created, f, distinct, a, b, ran, ran', same, apart, ?_, ?_⟩
  · exact (members _).mpr (.inr ⟨"$a 1 +", by simp, rfl⟩)
  · exact (members _).mpr (.inr ⟨"zero", by simp, rfl⟩)

/-- With a symbol `2` that stands for one, the formulas `2` and `02` are both called `2`, and the
later of them is seen. -/
theorem applyFormulas_order_matters :
    ∃ start, Engine.create {}
        { family := some (.given (.table ⟨[⟨"2", 0, 1, 0, 1⟩], none, 0⟩)),
          operand := some (.named (.text "int64")) } = .ok start ∧
      start.nanOnError = true ∧ 0 < start.cache.limit ∧
      ∃ f : Frame, f.IsDistinct ∧
        (∀ formula ∈ ["2", "02"],
          ((evaluateFrame (.text formula) (.frame f)).runOn (start.after [])).1.isOk) ∧
        ["2", "02"].Perm ["02", "2"] ∧
        ∃ a b, ((applyFormulas (.frame f) ["2", "02"]).runOn (start.after [])).1 = .ok a ∧
          ((applyFormulas (.frame f) ["02", "2"]).runOn (start.after [])).1 = .ok b ∧
          ¬ a.columns.Perm b.columns := by
  let family : Family := .table ⟨[⟨"2", 0, 1, 0, 1⟩], none, 0⟩
  let start : Engine := ⟨.int64, family, .name, true, Cache.empty 1000, 0, []⟩
  let f : Frame := ⟨[⟨.text "a", .word .int64, [.word .int64 7]⟩], [.int 0]⟩
  let symbol : Expression := ⟨[.operator (.table ⟨"2", 0, 1, 0, 1⟩)], 1, .numeric .int64, family,
    .name⟩
  let literal : Expression := ⟨[.operand (.word .int64 2) "2"], 1, .numeric .int64, family, .name⟩
  let series (formula : String) : Series :=
    ⟨"2", .word .int64, [.word .int64 (if formula = "2" then 1 else 2)], [.int 0]⟩
  let options : Options := ⟨some (.named (.text "int64")), some (.given family), .name, none, none⟩
  have created : Engine.create {} options = .ok start := by with_unfolding_all rfl
  have one : symbol.evaluate (f.row 0) = .ok (.word .int64 1) := by
    rw [Expression.evaluate_eq_runList]
    with_unfolding_all rfl
  have two : literal.evaluate (f.row 0) = .ok (.word .int64 2) := by
    rw [Expression.evaluate_eq_runList]
    with_unfolding_all rfl
  have rows : f.rows = [f.row 0] := rfl
  have first : ((evaluateFrame (.text "2") (.frame f)).runOn (start.after [])).1 =
      .ok (series "2") := by
    have built : start.build "2" = .ok symbol := by with_unfolding_all rfl
    rw [evaluateFrame_text created (by decide) [] built, rows, rowValues, one]
    with_unfolding_all rfl
  have second : ((evaluateFrame (.text "02") (.frame f)).runOn (start.after [])).1 =
      .ok (series "02") := by
    have built : start.build "02" = .ok literal := by with_unfolding_all rfl
    rw [evaluateFrame_text created (by decide) [] built, rows, rowValues, two]
    with_unfolding_all rfl
  have outcome {formulas : List String} (given : ∀ formula ∈ formulas, formula ∈ ["2", "02"]) :
      ((applyFormulas (.frame f) formulas).runOn (start.after [])).1 =
        .ok (f.withSeries (formulas.map series)) := by
    have returned : ∀ formula ∈ formulas,
        ((evaluateFrame (.text formula) (.frame f)).runOn (start.after [])).1 =
          .ok (series formula) := by
      intro formula member
      rcases List.mem_pair.mp (given formula member) with rfl | rfl
      · exact first
      · exact second
    exact applyEach_outcome (returned_anytime created returned) f
  refine ⟨start, created, rfl, by decide, f, by simp [Frame.IsDistinct, f], ?_, by decide, _, _,
    outcome (by simp), outcome (by simp), ?_⟩
  · simp only [List.forall_mem_cons, first, second]
    simp [Except.isOk, Except.toBool]
  · intro perm
    have seen : (series "02").column ∈ (f.withSeries (["2", "02"].map series)).columns :=
      Frame.mem_withSeries_map.mpr (.inr ⟨"02", by simp, by simp [Series.IsLast, series], rfl⟩)
    have lost := Frame.mem_withSeries_map.mp (perm.mem_iff.mp seen)
    simp [Series.IsLast, Series.column, series, f] at lost

end Postfix.Formula
