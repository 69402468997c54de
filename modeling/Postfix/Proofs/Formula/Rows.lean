import Postfix.Proofs.Formula.Transparency

/-! The series that an evaluation over a frame gives, from the outcomes of its rows.
If the engine puts NaN in the place of failures, a row that fails in evaluation leaves the others
alone, and any other failure of a row is the failure of the whole. -/
namespace Postfix.Formula

section

variable {e : Expression} {skips : Bool} {rows : List Container}

/-- What a row gives: its value, or a gap, or else the failure that ends the whole. -/
def rowOutcome (e : Expression) (skips : Bool) (row : Container) : Except Failure (Option Value) :=
  match e.evaluate row with
  | .ok v => .ok (some v)
  | .error f => if skips && f.isEvaluation then .ok none else .error f

theorem rowValues_eq_mapM : rowValues e skips rows = rows.mapM (rowOutcome e skips) := by
  induction rows with
  | nil => rfl
  | cons row rest ih =>
    rw [rowValues, List.mapM_cons, rowOutcome, ih]
    cases e.evaluate row with
    | ok v => cases rest.mapM (rowOutcome e skips) <;> rfl
    | error f =>
      simp only [Bool.and_comm f.isEvaluation]
      split
      · cases rest.mapM (rowOutcome e skips) <;> rfl
      · rfl

theorem rowOutcome_eq_ok {row : Container} {outcome : Option Value} :
    rowOutcome e skips row = .ok outcome ↔
      (∀ f, e.evaluate row = .error f → skips && f.isEvaluation) ∧
        (e.evaluate row).toOption = outcome := by
  rw [rowOutcome]
  cases e.evaluate row with
  | ok v => simp [Except.toOption]
  | error f =>
    simp only [Except.error.injEq, forall_eq', Except.toOption]
    cases skips && f.isEvaluation <;> simp

theorem rowOutcome_failed {row : Container} {failure : Failure}
    (failed : e.evaluate row = .error failure) (other : (skips && failure.isEvaluation) = false) :
    rowOutcome e skips row = .error failure := by
  rw [rowOutcome, failed]
  simp only [other, Bool.false_eq_true, if_false]

theorem rowValues_eq_ok {values : List (Option Value)} :
    rowValues e skips rows = .ok values ↔
      (∀ row ∈ rows, ∀ f, e.evaluate row = .error f → skips && f.isEvaluation) ∧
        (rows.map fun row => (e.evaluate row).toOption) = values := by
  rw [rowValues_eq_mapM, Except.mapM_eq_ok, ← List.forall₂_eq_eq_eq, List.forall₂_map_left_iff,
    ← List.forall₂_and_left]
  simp only [rowOutcome_eq_ok]

theorem rowValues_frame {frame : Frame}
    (contained : ∀ i < frame.index.length, ∀ f, e.evaluate (frame.row i) = .error f →
      skips && f.isEvaluation) :
    rowValues e skips frame.rows = .ok (frame.rows.map fun row => (e.evaluate row).toOption) := by
  refine rowValues_eq_ok.mpr ⟨?_, rfl⟩
  intro row member
  obtain ⟨i, inside, rfl⟩ := List.mem_map.mp member
  exact contained i (List.mem_range.mp inside)

/-- The first row that fails otherwise decides. -/
theorem rowValues_frame_error {frame : Frame} {i : Nat} (inside : i < frame.index.length)
    (contained : ∀ j < i, ∀ f, e.evaluate (frame.row j) = .error f → skips && f.isEvaluation)
    {failure : Failure} (failed : e.evaluate (frame.row i) = .error failure)
    (other : (skips && failure.isEvaluation) = false) :
    rowValues e skips frame.rows = .error failure := by
  have split : frame.rows = (List.range i).map frame.row ++ frame.row i ::
      ((List.range (frame.index.length - (i + 1))).map fun k => frame.row (i + 1 + k)) := by
    have lengths : frame.index.length = i + 1 + (frame.index.length - (i + 1)) := by omega
    rw [Frame.rows, lengths, List.range_add, List.range_succ]
    simp
  rw [rowValues_eq_mapM, split]
  refine Except.mapM_eq_error ?_ (rowOutcome_failed failed other)
  intro row member
  obtain ⟨j, before, rfl⟩ := List.mem_map.mp member
  exact ⟨_, rowOutcome_eq_ok.mpr ⟨contained j (List.mem_range.mp before), rfl⟩⟩

end

def Series.ofRows (e : Expression) (t : NumericType) (frame : Frame)
    (values : List (Option Value)) : Series :=
  ⟨e.text, resultType t values, resultValues (resultType t values) values, frame.index⟩

theorem resultType_full {t : NumericType} {values : List (Option Value)} (some : values ≠ [])
    (full : ∀ v ∈ values, v.isSome) : resultType t values = t.dtype := by
  have nonempty := List.isEmpty_eq_false_iff.mpr some
  simp only [resultType, nonempty, List.all_eq_true.mpr full, Bool.false_eq_true, if_false, if_true]

/-- A series of doubles keeps its type whatever gaps there are. -/
theorem resultType_double {values : List (Option Value)} (some : values ≠ []) :
    resultType .float64 values = .float .double := by
  have nonempty := List.isEmpty_eq_false_iff.mpr some
  simp only [resultType, nonempty, Bool.false_eq_true, if_false]
  split <;> rfl

theorem resultType_gap {t : NumericType} {values : List (Option Value)} (gap : none ∈ values) :
    resultType t values = .float .double := by
  have nonempty := List.isEmpty_eq_false_iff.mpr (List.ne_nil_of_mem gap)
  have partly : values.all Option.isSome = false := List.all_eq_false.mpr ⟨none, gap, by simp⟩
  simp only [resultType, nonempty, partly, Bool.false_eq_true, if_false]

theorem Series.getElem?_ofRows (e : Expression) (t : NumericType) (frame : Frame)
    {values : List (Option Value)} {i : Nat} {outcome : Option Value}
    (found : values[i]? = some outcome) :
    (ofRows e t frame values).values[i]? =
      some ((resultType t values).store (outcome.getD .none)) := by
  simp only [ofRows, resultValues, List.getElem?_map, found, Option.map_some]
  cases outcome <;> rfl

theorem frameSeries_outcome (e : Expression) (frame : Frame) (s : Engine) :
    ((frameSeries e frame).runOn s).1 =
      (rowValues e s.nanOnError frame.rows).map (Series.ofRows e s.operandType frame) := by
  have got : (get : Session Engine).runOn s = (.ok s, s) := rfl
  rw [frameSeries, Session.runOn_bind, got]
  simp only [Session.runOn_bind, Session.runOn_ofExcept]
  cases rowValues e s.nanOnError frame.rows with
  | error f => rfl
  | ok values =>
    simp only
    split <;> rfl

theorem parse_keeps (formula : String) (s : Engine) :
    ((parse formula).runOn s).2.operandType = s.operandType ∧
      ((parse formula).runOn s).2.nanOnError = s.nanOnError := by
  rcases parse_changes s formula with ⟨_, _, ran⟩ | ⟨_, _, _, ran⟩ | ⟨_, _, _, ran⟩ <;>
    rw [ran] <;> exact ⟨rfl, rfl⟩

theorem expressionOf_keeps (source : Source) (s : Engine) :
    ((expressionOf source).runOn s).2.operandType = s.operandType ∧
      ((expressionOf source).runOn s).2.nanOnError = s.nanOnError := by
  cases source with
  | built e => exact ⟨rfl, rfl⟩
  | text formula =>
    rw [expressionOf_text_runOn]
    exact parse_keeps formula s

theorem evaluateFrame_outcome {source : Source} {e : Expression} {s s' : Engine}
    (parsed : (expressionOf source).runOn s = (.ok e, s')) (frame : Frame) :
    ((evaluateFrame source (.frame frame)).runOn s).1 =
      (rowValues e s.nanOnError frame.rows).map (Series.ofRows e s.operandType frame) := by
  obtain ⟨sameType, sameChoice⟩ := expressionOf_keeps source s
  rw [parsed] at sameType sameChoice
  have prepared : (Data.frame frame).prepare = .ok frame := rfl
  simp only [evaluateFrame, Session.runOn_bind, parsed, Session.runOn_ofExcept, prepared,
    Except.mapError, frameSeries_outcome]
  rw [← sameType, ← sameChoice]

section

variable {settings : Settings} {options : Options} {start : Engine}
  (created : Engine.create settings options = .ok start) (limit : 0 ≤ start.cache.limit)
  (history : List Call) {formula : String} {e : Expression}

include created limit

theorem expressionOf_text_eq (formula : String) :
    ((expressionOf (.text formula)).runOn (start.after history)).1 = start.build formula := by
  rw [expressionOf_text_runOn]
  exact (((Serves.fresh created).history limit history).parse limit formula).2

theorem evaluateFrame_text (parsed : start.build formula = .ok e) (frame : Frame) :
    ((evaluateFrame (.text formula) (.frame frame)).runOn (start.after history)).1 =
      (rowValues e start.nanOnError frame.rows).map (Series.ofRows e start.operandType frame) := by
  have alike := ((Serves.fresh created).history limit history).alike
  have given : (expressionOf (.text formula)).runOn (start.after history) =
      (.ok e, ((expressionOf (.text formula)).runOn (start.after history)).2) := by
    rw [← parsed, ← expressionOf_text_eq created limit history formula]
  rw [evaluateFrame_outcome given, alike.operandType, alike.nanOnError]

end

end Postfix.Formula
