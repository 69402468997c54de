import Postfix.Proofs.Number
import Postfix.Proofs.Formula.Cells
import Postfix.Proofs.Formula.Rows

/-! What failing rows do to the others.
A series has one element type, which the gaps of failing rows turn into doubles. The other values
stay the same numbers if they are doubles; only words of 64 bits need not be. -/
namespace Postfix

namespace NumericType

variable {t : NumericType} {v : Value}

theorem Member.store (member : t.Member v) : t.dtype.store v = v := by
  cases t with
  | word w =>
    obtain ⟨n, rfl, _⟩ := member_word.mp member
    rfl
  | float f =>
    obtain ⟨x, rfl, canonical⟩ := member_float.mp member
    exact congrArg (Value.float f) (Format.ofBinary_eq_self canonical)

theorem Member.sameNumber_store (member : t.Member v) :
    ((DType.float .double).store v).SameNumber v ↔ v.HasDouble := by
  cases t with
  | word w =>
    obtain ⟨n, rfl, _⟩ := member_word.mp member
    rw [Value.hasDouble_word, ← Value.sameNumber_word (f := .double) (w := w)]
    exact or_iff_left (fun both => by cases both.2)
  | float f =>
    obtain ⟨x, rfl, canonical⟩ := member_float.mp member
    have wider : f.precision ≤ Format.double.precision := by cases f <;> decide
    have kept := Value.sameNumber_float (f := .double) (g := f)
      (Format.ofBinary_fits ((Binary.Canonical.fits canonical).mono wider))
    exact iff_of_true kept (Value.hasDouble_float canonical)

/-- Words of 64 bits are the only values that need not be doubles. -/
theorem Member.hasDouble (member : t.Member v) (narrow : ∀ s, t ≠ .word ⟨s, .w64⟩) :
    v.HasDouble := by
  cases t with
  | word w =>
    obtain ⟨n, rfl, inside⟩ := member_word.mp member
    have below : w.width ≠ .w64 := by
      intro widest
      exact narrow w.signed (by rw [← widest])
    have counted : w.width.format.precision ≤ Format.double.precision := by
      cases w.width <;> decide
    rw [Value.hasDouble_word, wholeBinary_congr (Format.ofInt_word inside below counted),
      wholeBinary_whole]
  | float f =>
    obtain ⟨x, rfl, canonical⟩ := member_float.mp member
    exact Value.hasDouble_float canonical

end NumericType

namespace Formula

/-- What a series has for the rows of a frame: NaN for a row without a value, and else the value
itself, as a double if there is a row without one. -/
structure Series.Reports (series : Series) (e : Expression) (frame : Frame) : Prop where
  index : series.index = frame.index
  height : series.values.length = frame.index.length
  gap : ∀ i < frame.index.length, ∀ failure, e.evaluate (frame.row i) = .error failure →
    series.values[i]? = some (.float .double .nan)
  value : ∀ i < frame.index.length, ∀ v, e.evaluate (frame.row i) = .ok v →
    ∃ entry, series.values[i]? = some entry ∧
      ((∀ j < frame.index.length, ∃ w, e.evaluate (frame.row j) = .ok w) → entry = v) ∧
      ((∃ j < frame.index.length, ∃ failure, e.evaluate (frame.row j) = .error failure) →
        (entry.SameNumber v ↔ v.HasDouble))

section

variable {e : Expression} {frame : Frame} {t : NumericType}

theorem getElem?_outcomes {i : Nat} (inside : i < frame.index.length) :
    (frame.rows.map fun row => (e.evaluate row).toOption)[i]? =
      some (e.evaluate (frame.row i)).toOption := by
  simp [Frame.rows, inside]

theorem Series.getElem?_ofRows_value
    (members : ∀ i < frame.index.length, ∀ v, e.evaluate (frame.row i) = .ok v → t.Member v)
    (steady : t = .float64 ∨ ∀ j < frame.index.length, ∃ w, e.evaluate (frame.row j) = .ok w)
    {i : Nat} (inside : i < frame.index.length) {v : Value}
    (evaluated : e.evaluate (frame.row i) = .ok v) :
    (Series.ofRows e t frame (frame.rows.map fun row => (e.evaluate row).toOption)).values[i]? =
      some v := by
  have nonempty := List.ne_nil_of_mem (List.mem_of_getElem? (getElem?_outcomes (e := e) inside))
  have type : resultType t (frame.rows.map fun row => (e.evaluate row).toOption) = t.dtype := by
    rcases steady with rfl | whole
    · exact resultType_double nonempty
    · refine resultType_full nonempty ?_
      intro outcome member
      obtain ⟨row, hrow, rfl⟩ := List.mem_map.mp member
      obtain ⟨j, hj, rfl⟩ := List.mem_map.mp hrow
      obtain ⟨w, ended⟩ := whole j (List.mem_range.mp hj)
      rw [ended]
      rfl
  rw [getElem?_ofRows e t frame (getElem?_outcomes inside), type, evaluated]
  exact congrArg some (members i inside v evaluated).store

theorem Series.reports_ofRows
    (members : ∀ i < frame.index.length, ∀ v, e.evaluate (frame.row i) = .ok v → t.Member v) :
    (Series.ofRows e t frame (frame.rows.map fun row => (e.evaluate row).toOption)).Reports e
      frame := by
  have gapped {i : Nat} (inside : i < frame.index.length) {failure : Failure}
      (failed : e.evaluate (frame.row i) = .error failure) :
      resultType t (frame.rows.map fun row => (e.evaluate row).toOption) = .float .double := by
    have found := getElem?_outcomes (e := e) inside
    rw [failed] at found
    exact resultType_gap (List.mem_of_getElem? found)
  constructor
  case index => rfl
  case height => simp [ofRows, resultValues, Frame.rows]
  case gap =>
    intro i inside failure failed
    rw [getElem?_ofRows e t frame (getElem?_outcomes inside), gapped inside failed, failed]
    rfl
  case value =>
    intro i inside v evaluated
    have found := getElem?_ofRows e t frame (getElem?_outcomes (e := e) inside)
    refine ⟨_, found, ?_, ?_⟩
    · intro whole
      have kept := getElem?_ofRows_value members (.inr whole) inside evaluated
      exact Option.some.inj (found.symm.trans kept)
    · rintro ⟨j, before, failure, failed⟩
      rw [gapped before failed, evaluated]
      exact (members i inside v evaluated).sameNumber_store

end

/-- A row without a value is NaN, and leaves the others the numbers they are just where they are
doubles; without such rows every value stays as it is. A row that ends in a failure of another sort
ends the whole. -/
theorem evaluateFrame_gaps {settings : Settings} {options : Options} {start : Engine}
    (created : Engine.create settings options = .ok start) (limit : 0 ≤ start.cache.limit)
    (skips : start.nanOnError = true) (history : List Call) {formula : String} {e : Expression}
    (parsed : start.build formula = .ok e) {frame : Frame} (typed : frame.IsTyped) :
    ((∀ i < frame.index.length, ∀ failure, e.evaluate (frame.row i) = .error failure →
        failure.isEvaluation) →
      ∃ series,
        ((evaluateFrame (.text formula) (.frame frame)).runOn (start.after history)).1 =
          .ok series ∧ series.Reports e frame) ∧
    (∀ i < frame.index.length, ∀ failure, e.evaluate (frame.row i) = .error failure →
      failure.isEvaluation = false →
      (∀ j < i, ∀ other, e.evaluate (frame.row j) = .error other → other.isEvaluation) →
      ((evaluateFrame (.text formula) (.frame frame)).runOn (start.after history)).1 =
        .error failure) ∧
    ((∀ s, start.operandType ≠ .word ⟨s, .w64⟩) →
      ∀ i < frame.index.length, ∀ v, e.evaluate (frame.row i) = .ok v → v.HasDouble) := by
  have members : ∀ i < frame.index.length, ∀ v, e.evaluate (frame.row i) = .ok v →
      start.operandType.Member v := by
    intro i inside v evaluated
    refine Expression.evaluate_member parsed ?_ evaluated
    exact fun w _ value => typed.lookup_formed inside w
  rw [evaluateFrame_text created limit history parsed, skips]
  refine ⟨?_, ?_, ?_⟩
  · intro contained
    rw [rowValues_frame contained]
    exact ⟨_, rfl, Series.reports_ofRows members⟩
  · intro i inside failure failed other contained
    have ended : rowValues e true frame.rows = .error failure :=
      rowValues_frame_error inside contained failed other
    rw [ended]
    rfl
  · intro narrow i inside v evaluated
    exact (members i inside v evaluated).hasDouble narrow

/-- Beside a row that divides by zero the least integer that is no double is lost. -/
theorem evaluateFrame_gaps_beyond_doubles :
    ∃ start, Engine.create {} { family := some (.named "int") } = .ok start ∧
      0 ≤ start.cache.limit ∧ start.nanOnError = true ∧
      ∃ e, start.build "$a $b /" = .ok e ∧ ∃ frame : Frame, frame.IsTyped ∧
        e.evaluate (frame.row 0) = .ok (.word .int64 9007199254740993) ∧
        ∃ series, ((evaluateFrame (.text "$a $b /") (.frame frame)).runOn (start.after [])).1 =
          .ok series ∧
          ∃ entry, series.values[0]? = some entry ∧
            ¬ entry.SameNumber (.word .int64 9007199254740993) := by
  let start := Engine.integers 1000
  let e : Expression := ⟨[.reference (.name "a"), .reference (.name "b"),
    .operator (.integer (.binary .div))], 2, .numeric .int64, .integer, .name⟩
  let frame : Frame :=
    ⟨[⟨.text "a", .word .int64, [.word .int64 9007199254740993, .word .int64 1]⟩,
      ⟨.text "b", .word .int64, [.word .int64 1, .word .int64 0]⟩], [.int 0, .int 1]⟩
  have created := Engine.create_integers
  have parsed : start.build "$a $b /" = .ok e := by with_unfolding_all rfl
  have typed : frame.IsTyped := by
    constructor
    · decide
    · simp only [frame, List.forall_mem_cons, List.not_mem_nil, IsEmpty.forall_iff, implies_true,
        and_true]
      exact ⟨⟨.word (by decide), .word (by decide)⟩, .word (by decide), .word (by decide)⟩
  have first : e.evaluate (frame.row 0) = .ok (.word .int64 9007199254740993) := by
    rw [Expression.evaluate_eq_runList]
    with_unfolding_all rfl
  have second : e.evaluate (frame.row 1) = .error (.arithmetic .invalidDiv [1, 0]) := by
    rw [Expression.evaluate_eq_runList]
    with_unfolding_all rfl
  have noDouble : ¬ (Value.word .int64 9007199254740993).HasDouble := by
    rw [Value.hasDouble_word]
    decide +kernel
  have contained : ∀ i < frame.index.length, ∀ failure, e.evaluate (frame.row i) = .error failure →
      failure.isEvaluation := by
    intro i inside failure failed
    have inside : i < 2 := inside
    obtain rfl | rfl : i = 0 ∨ i = 1 := by omega
    · rw [first] at failed; cases failed
    · rw [second] at failed; cases failed; rfl
  obtain ⟨series, outcome, reports⟩ :=
    (evaluateFrame_gaps created (by decide) rfl [] parsed typed).1 contained
  obtain ⟨entry, found, _, kept⟩ := reports.value 0 (by decide) _ first
  refine ⟨start, created, by decide, rfl, e, parsed, frame, typed, first, series, outcome, entry,
    found, ?_⟩
  rw [kept ⟨1, by decide, _, second⟩]
  exact noDouble

end Formula
end Postfix
