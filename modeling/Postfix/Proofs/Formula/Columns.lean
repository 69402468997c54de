import Postfix.Proofs.Lookup
import Postfix.Proofs.Naming
import Postfix.Proofs.Formula.Preservation

/-! The columns that formulas put into a frame.
A column takes the place of the one with its label, and the label of a result is the text of its
expression, whatever the labels of the frame are. So a column stays unless a formula has its label
for a text; of the results with one text the last is there. -/
namespace Postfix

theorem Value.same_text_iff {v : Value} {s : String} : v.same (.text s) ↔ v = .text s := by
  cases v <;> simp [same, sameNumber, number?]

namespace Formula

def Series.column (s : Series) : Column := ⟨.text s.name, s.dtype, s.values⟩

/-! ### One column -/

namespace Frame

def IsDistinct (f : Frame) : Prop :=
  (f.columns.map Column.label).Pairwise fun v w => ¬ v.same w

structure SameColumns (f g : Frame) : Prop where
  index : f.index = g.index
  columns : f.columns.Perm g.columns

namespace SameColumns

variable {f g h : Frame}

theorem refl (f : Frame) : f.SameColumns f := ⟨rfl, .refl _⟩

theorem trans (first : f.SameColumns g) (second : g.SameColumns h) : f.SameColumns h :=
  ⟨first.index.trans second.index, first.columns.trans second.columns⟩

end SameColumns

variable {f g : Frame} {c d : Column} {n : String}

theorem index_setColumn : (f.setColumn c).index = f.index := by
  unfold setColumn
  split <;> rfl

theorem columns_setColumn :
    (f.setColumn c).columns =
      if f.columns.any fun b => b.label.same c.label then
        f.columns.map fun b => if b.label.same c.label then c else b
      else f.columns ++ [c] := by
  unfold setColumn
  split <;> rfl

theorem mem_setColumn :
    d ∈ (f.setColumn c).columns ↔ (d ∈ f.columns ∧ ¬ d.label.same c.label) ∨ d = c := by
  unfold setColumn
  split
  · rename_i present
    obtain ⟨old, member, same⟩ := List.any_eq_true.mp present
    rw [List.mem_map]
    constructor
    · rintro ⟨b, hb, rfl⟩
      by_cases replaced : b.label.same c.label
      · exact .inr (if_pos replaced)
      · rw [if_neg replaced]
        exact .inl ⟨hb, replaced⟩
    · rintro (⟨kept, differs⟩ | rfl)
      · exact ⟨d, kept, if_neg differs⟩
      · exact ⟨old, member, if_pos same⟩
  · rename_i absent
    have absent := List.any_eq_false.mp (Bool.not_eq_true _ ▸ absent)
    rw [List.mem_append, List.mem_singleton]
    exact or_congr_left ⟨fun member => ⟨member, absent d member⟩, And.left⟩

/-- The labels stay in their places, and a new one comes last. -/
theorem labels_setColumn (name : c.label = .text n) :
    (f.setColumn c).columns.map Column.label = f.columns.map Column.label ∨
      ((∀ d ∈ f.columns, ¬ d.label.same c.label) ∧
        (f.setColumn c).columns.map Column.label = f.columns.map Column.label ++ [c.label]) := by
  unfold setColumn
  split
  · left
    rw [List.map_map]
    refine List.map_congr_left fun d _ => ?_
    rw [Function.comp_apply]
    split
    · rename_i same
      rw [name] at same ⊢
      exact (Value.same_text_iff.mp same).symm
    · rfl
  · rename_i absent
    refine .inr ⟨List.any_eq_false.mp (Bool.not_eq_true _ ▸ absent), ?_⟩
    rw [List.map_append]
    rfl

theorem IsDistinct.setColumn (distinct : f.IsDistinct) (name : c.label = .text n) :
    (f.setColumn c).IsDistinct := by
  rcases labels_setColumn name with same | ⟨absent, appended⟩
  · rwa [IsDistinct, same]
  · rw [IsDistinct, appended, List.pairwise_append]
    refine ⟨distinct, List.pairwise_singleton .., ?_⟩
    intro label member last hlast
    obtain ⟨d, hd, rfl⟩ := List.mem_map.mp member
    rw [List.mem_singleton.mp hlast]
    exact absent d hd

theorem SameColumns.setColumn (same : f.SameColumns g) (c : Column) :
    (f.setColumn c).SameColumns (g.setColumn c) := by
  refine ⟨by rw [index_setColumn, index_setColumn, same.index], ?_⟩
  unfold Frame.setColumn
  rw [same.columns.any_eq]
  split
  · exact same.columns.map _
  · exact same.columns.append_right [c]

section

variable {m : String} (first : c.label = .text m) (second : d.label = .text n) (differ : m ≠ n)

include first second differ

theorem not_both {v : Value} (same : v.same c.label) : ¬ v.same d.label := by
  rw [first, Value.same_text_iff] at same
  rw [second, same, Value.same_text]
  simpa using differ

theorem any_setColumn :
    ((f.setColumn c).columns.any fun b => b.label.same d.label) =
      f.columns.any fun b => b.label.same d.label := by
  have apart := not_both first second differ (v := c.label)
    (by rw [first, Value.same_text_iff])
  rw [Bool.eq_iff_iff, List.any_eq_true, List.any_eq_true]
  simp only [mem_setColumn]
  constructor
  · rintro ⟨b, ⟨member, _⟩ | rfl, same⟩
    · exact ⟨b, member, same⟩
    · exact absurd same apart
  · rintro ⟨b, member, same⟩
    exact ⟨b, .inl ⟨member, fun other => not_both first second differ other same⟩, same⟩

theorem setColumn_comm :
    ((f.setColumn c).setColumn d).SameColumns ((f.setColumn d).setColumn c) := by
  refine ⟨by simp only [index_setColumn], ?_⟩
  have hc : ¬ d.label.same c.label :=
    not_both second first differ.symm (by rw [second, Value.same_text_iff])
  have hd : ¬ c.label.same d.label :=
    not_both first second differ (by rw [first, Value.same_text_iff])
  have both := fun b : Column => not_both first second differ (v := b.label)
  have later := any_setColumn (f := f) first second differ
  have later' := any_setColumn (f := f) second first differ.symm
  rw [columns_setColumn (f := f.setColumn c), later, columns_setColumn (f := f.setColumn d), later',
    columns_setColumn (c := c), columns_setColumn (c := d)]
  cases f.columns.any fun b => b.label.same c.label <;>
    cases f.columns.any fun b => b.label.same d.label <;>
    simp only [if_true, if_false, Bool.false_eq_true, List.map_append, List.map_map, List.map_cons,
      List.map_nil, hc, hd]
  case false.true => exact .refl _
  case true.false => exact .refl _
  case false.false =>
    rw [List.append_assoc, List.append_assoc]
    exact (List.Perm.swap d c []).append_left f.columns
  case true.true =>
    refine .of_eq (List.map_congr_left fun b _ => ?_)
    simp only [Function.comp_apply]
    by_cases old : b.label.same c.label
    · simp only [old, both b old, hd, if_true, if_false, Bool.false_eq_true]
    · by_cases old' : b.label.same d.label
      · simp only [old, old', hc, if_true, if_false, Bool.false_eq_true]
      · simp only [old, old', if_false, Bool.false_eq_true]

end

end Frame

/-! ### One column after the other -/

def Frame.withSeries (f : Frame) (results : List Series) : Frame :=
  results.foldl (fun made s => made.setColumn s.column) f

def Series.IsLast (s : Series) (results : List Series) : Prop :=
  (results.filter fun t => t.name = s.name).getLast? = some s

namespace Series

variable {s t : Series} {results : List Series}

theorem IsLast.mem (last : s.IsLast results) : s ∈ results :=
  List.mem_of_mem_filter (List.mem_of_getLast? last)

theorem exists_isLast (member : s ∈ results) :
    ∃ t : Series, t.IsLast results ∧ t.name = s.name := by
  have named : s ∈ results.filter fun t => t.name = s.name := by simpa using member
  obtain ⟨t, last⟩ := Option.ne_none_iff_exists'.mp
    (mt List.getLast?_eq_none_iff.mp (List.ne_nil_of_mem named))
  have same : t.name = s.name := by simpa using (List.mem_filter.mp (List.mem_of_getLast? last)).2
  exact ⟨t, by rwa [IsLast, same], same⟩

theorem isLast_of_single (single : ∀ s ∈ results, ∀ t ∈ results, s.name = t.name → s = t)
    (member : s ∈ results) : s.IsLast results := by
  obtain ⟨t, last, named⟩ := exists_isLast member
  rwa [single t last.mem s member named] at last

theorem isLast_concat :
    s.IsLast (results ++ [t]) ↔ (s.IsLast results ∧ s.name ≠ t.name) ∨ s = t := by
  rw [IsLast, IsLast, List.filter_append]
  by_cases same : s.name = t.name
  · simp [same, eq_comm]
  · have other : s ≠ t := fun equal => same (congrArg name equal)
    simp [same, Ne.symm same, other]

end Series

namespace Frame

variable {f g : Frame} {c : Column} {results results' : List Series}

theorem withSeries_concat (s : Series) :
    f.withSeries (results ++ [s]) = (f.withSeries results).setColumn s.column := by
  rw [withSeries, List.foldl_concat]
  rfl

theorem mem_withSeries :
    c ∈ (f.withSeries results).columns ↔
      (c ∈ f.columns ∧ ∀ s ∈ results, c.label ≠ .text s.name) ∨
        ∃ s : Series, s.IsLast results ∧ c = s.column := by
  induction results using List.reverseRecOn with
  | nil => simp [withSeries, Series.IsLast]
  | append_singleton results s ih =>
    have label : s.column.label = .text s.name := rfl
    rw [withSeries_concat, mem_setColumn, ih, label, Value.same_text_iff]
    simp only [Series.isLast_concat, List.forall_mem_append, List.forall_mem_singleton]
    constructor
    · rintro (⟨⟨member, others⟩ | ⟨t, last, rfl⟩, differs⟩ | rfl)
      · exact .inl ⟨member, others, differs⟩
      · exact .inr ⟨t, .inl ⟨last, fun same => differs (congrArg Value.text same)⟩, rfl⟩
      · exact .inr ⟨s, .inr rfl, rfl⟩
    · rintro (⟨member, others, differs⟩ | ⟨t, ⟨last, differs⟩ | rfl, rfl⟩)
      · exact .inl ⟨.inl ⟨member, others⟩, differs⟩
      · exact .inl ⟨.inr ⟨t, last, rfl⟩, fun same => differs (Value.text.inj same)⟩
      · exact .inr rfl

theorem mem_withSeries_map {α : Type} {g : α → Series} {xs : List α} :
    c ∈ (f.withSeries (xs.map g)).columns ↔
      (c ∈ f.columns ∧ ∀ x ∈ xs, c.label ≠ .text (g x).name) ∨
        ∃ x ∈ xs, (g x).IsLast (xs.map g) ∧ c = (g x).column := by
  rw [mem_withSeries, List.forall_mem_map]
  refine or_congr_right ⟨?_, fun ⟨x, _, last, same⟩ => ⟨_, last, same⟩⟩
  rintro ⟨s, last, same⟩
  obtain ⟨x, member, rfl⟩ := List.mem_map.mp last.mem
  exact ⟨x, member, last, same⟩

theorem index_withSeries : (f.withSeries results).index = f.index := by
  induction results using List.reverseRecOn with
  | nil => rfl
  | append_singleton results s ih => rw [withSeries_concat, index_setColumn, ih]

theorem IsDistinct.withSeries (distinct : f.IsDistinct) : (f.withSeries results).IsDistinct := by
  induction results using List.reverseRecOn with
  | nil => exact distinct
  | append_singleton results s ih =>
    rw [withSeries_concat]
    exact ih.setColumn rfl

theorem labels_withSeries :
    f.columns.map Column.label <+: (f.withSeries results).columns.map Column.label := by
  induction results using List.reverseRecOn with
  | nil => exact List.prefix_rfl
  | append_singleton results s ih =>
    rw [withSeries_concat]
    rcases labels_setColumn (f := f.withSeries results) (c := s.column) rfl with
      same | ⟨_, appended⟩
    · rwa [same]
    · rw [appended]
      exact ih.trans (List.prefix_append ..)

theorem SameColumns.withSeries (same : f.SameColumns g) (results : List Series) :
    (f.withSeries results).SameColumns (g.withSeries results) := by
  induction results generalizing f g with
  | nil => exact same
  | cons s _ ih => exact ih (same.setColumn s.column)

/-- If series of one name are one series, their order does not matter. -/
theorem withSeries_perm (perm : results.Perm results')
    (single : ∀ s ∈ results, ∀ t ∈ results, s.name = t.name → s = t) :
    (f.withSeries results).SameColumns (f.withSeries results') := by
  induction perm generalizing f with
  | nil => exact .refl f
  | cons s _ ih =>
    exact ih fun a ha b hb => single a (List.mem_cons_of_mem s ha) b (List.mem_cons_of_mem s hb)
  | swap s t results =>
    by_cases named : t.name = s.name
    · rw [single t (by simp) s (by simp) named]
      exact .refl _
    · exact (setColumn_comm rfl rfl named).withSeries results
  | trans first _ ih ih' =>
    refine (ih single).trans (ih' fun a ha b hb => ?_)
    exact single a (first.mem_iff.mpr ha) b (first.mem_iff.mpr hb)

end Frame

/-! ### Formulas -/

/-- Of the formulas, the text of an expression tells which expression it is. -/
def Engine.TellsApart (s : Engine) (formulas : List String) : Prop :=
  ∀ g ∈ formulas, ∀ h ∈ formulas, ∀ d e,
    s.build g = .ok d → s.build h = .ok e → d.text = e.text → d = e

theorem Engine.TellsApart.of_symbolsApart {s : Engine} (apart : s.family.SymbolsApart)
    (unmarked : s.variableKind ≠ .marked) {formulas : List String} : s.TellsApart formulas :=
  fun _ _ _ _ _ _ => Expression.eq_of_text apart unmarked

section

variable {start : Engine} {f : Frame} {history : List Call} {formulas : List String}
  {series : String → Series}

/-- Every formula gives what it gives for the frame itself, and no column that was set before
changes that. -/
theorem applyEach_outcome
    (returned : ∀ formula ∈ formulas, ∀ before,
      ((evaluateFrame (.text formula) (.frame f)).runOn (start.after before)).1 =
        .ok (series formula)) (made : Frame) :
    ((applyEach f made formulas).runOn (start.after history)).1 =
      .ok (made.withSeries (formulas.map series)) := by
  induction formulas generalizing history made with
  | nil => rfl
  | cons formula rest ih =>
    have here := returned formula List.mem_cons_self history
    have later :
        ((applyEach f (made.setColumn (series formula).column) rest).runOn
          (start.after (history ++ [.evaluateFrame (.text formula) (.frame f)]))).1 =
        .ok ((made.setColumn (series formula).column).withSeries (rest.map series)) :=
      ih (fun g hg => returned g (List.mem_cons_of_mem formula hg)) _
    rw [Engine.after, List.foldl_concat, ← Engine.after, Call.after] at later
    rw [applyEach, Session.runOn_bind]
    rcases ran : (evaluateFrame (.text formula) (.frame f)).runOn (start.after history) with ⟨_, u⟩
    rw [ran] at here later
    cases here
    exact later

variable {settings : Settings} {options : Options}
  (created : Engine.create settings options = .ok start)

include created

theorem returned_anytime
    (returned : ∀ formula ∈ formulas,
      ((evaluateFrame (.text formula) (.frame f)).runOn (start.after history)).1 =
        .ok (series formula)) :
    ∀ formula ∈ formulas, ∀ other,
      ((evaluateFrame (.text formula) (.frame f)).runOn (start.after other)).1 =
        .ok (series formula) := by
  intro formula member
  obtain ⟨_, _, _, _, anytime⟩ := evaluateFrame_anytime created (returned formula member)
  exact anytime

theorem single_of_tellsApart
    (returned : ∀ formula ∈ formulas,
      ((evaluateFrame (.text formula) (.frame f)).runOn (start.after history)).1 =
        .ok (series formula))
    (tells : start.TellsApart formulas) :
    ∀ s ∈ formulas.map series, ∀ t ∈ formulas.map series, s.name = t.name → s = t := by
  intro s hs t ht named
  obtain ⟨g, hg, rfl⟩ := List.mem_map.mp hs
  obtain ⟨h, hh, rfl⟩ := List.mem_map.mp ht
  obtain ⟨d, built, name, outcome, _⟩ := evaluateFrame_anytime created (returned g hg)
  obtain ⟨e, built', name', outcome', _⟩ := evaluateFrame_anytime created (returned h hh)
  obtain rfl := tells g hg h hh d e built built' (name.symm.trans (named.trans name'))
  exact Except.ok.inj (outcome.symm.trans outcome')

/-- A list of formulas that all have results gives the frame with a column for each text of them.
A column of the frame stays as it is, unless one of these texts is its label; of the results with
one text the last is there. No two results have one text if no symbol can be taken for a literal or
a variable. -/
theorem applyFormulas_columns (distinct : f.IsDistinct)
    (returned : ∀ formula ∈ formulas,
      ((evaluateFrame (.text formula) (.frame f)).runOn (start.after history)).1 =
        .ok (series formula)) :
    ∃ made, ((applyFormulas (.frame f) formulas).runOn (start.after history)).1 = .ok made ∧
      made.index = f.index ∧ made.IsDistinct ∧
      f.columns.map Column.label <+: made.columns.map Column.label ∧
      (∀ c, c ∈ made.columns ↔
        (c ∈ f.columns ∧ ∀ formula ∈ formulas, c.label ≠ .text (series formula).name) ∨
          ∃ formula ∈ formulas, (series formula).IsLast (formulas.map series) ∧
            c = (series formula).column) ∧
      (∀ formula ∈ formulas, ∃ e, start.build formula = .ok e ∧ (series formula).name = e.text) ∧
      (start.family.SymbolsApart → start.variableKind ≠ .marked →
        ∀ formula ∈ formulas, (series formula).column ∈ made.columns) := by
  refine ⟨_, applyEach_outcome (returned_anytime created returned) f, Frame.index_withSeries,
    distinct.withSeries, Frame.labels_withSeries, fun c => Frame.mem_withSeries_map, ?_, ?_⟩
  · intro formula member
    obtain ⟨e, built, name, _⟩ := evaluateFrame_anytime created (returned formula member)
    exact ⟨e, built, name⟩
  · intro apart unmarked formula member
    have single := single_of_tellsApart created returned (.of_symbolsApart apart unmarked)
    have last := Series.isLast_of_single single (List.mem_map_of_mem member)
    exact Frame.mem_withSeries_map.mpr (.inr ⟨formula, member, last, rfl⟩)

end

/-- A column called `zero` gives way to the result of the formula `zero`. -/
theorem applyFormulas_columns_zero :
    ∃ start, Engine.create {} { family := some (.named "int") } = .ok start ∧
      ∃ f : Frame, f.IsDistinct ∧
        f.columns = [⟨.text "zero", .word .int64, [.word .int64 5]⟩,
          ⟨.text "a", .word .int64, [.word .int64 2]⟩] ∧
        ∃ made,
          ((applyFormulas (.frame f) ["$a 1 +", "zero"]).runOn (start.after [])).1 = .ok made ∧
            ⟨.text "zero", .word .int64, [.word .int64 5]⟩ ∉ made.columns ∧
            ⟨.text "zero", .word .int64, [.word .int64 0]⟩ ∈ made.columns ∧
            ⟨.text "$a 1 +", .word .int64, [.word .int64 3]⟩ ∈ made.columns := by
  let start := Engine.integers 1000
  let f : Frame := ⟨[⟨.text "zero", .word .int64, [.word .int64 5]⟩,
    ⟨.text "a", .word .int64, [.word .int64 2]⟩], [.int 0]⟩
  let sum : Expression := ⟨[.reference (.name "a"), .operand (.word .int64 1) "1",
    .operator (.integer (.binary .add))], 2, .numeric .int64, .integer, .name⟩
  let zero : Expression := ⟨[.operator (.integer .zero)], 1, .numeric .int64, .integer, .name⟩
  let series (formula : String) : Series :=
    if formula = "zero" then ⟨"zero", .word .int64, [.word .int64 0], [.int 0]⟩
    else ⟨"$a 1 +", .word .int64, [.word .int64 3], [.int 0]⟩
  have created := Engine.create_integers
  have three : sum.evaluate (f.row 0) = .ok (.word .int64 3) := by
    rw [Expression.evaluate_eq_runList]
    with_unfolding_all rfl
  have nothing : zero.evaluate (f.row 0) = .ok (.word .int64 0) := by
    rw [Expression.evaluate_eq_runList]
    with_unfolding_all rfl
  have rows : f.rows = [f.row 0] := rfl
  have returned : ∀ formula ∈ ["$a 1 +", "zero"],
      ((evaluateFrame (.text formula) (.frame f)).runOn (start.after [])).1 =
        .ok (series formula) := by
    simp only [List.forall_mem_cons, List.not_mem_nil, IsEmpty.forall_iff, implies_true, and_true]
    constructor
    · have built : start.build "$a 1 +" = .ok sum := by with_unfolding_all rfl
      rw [evaluateFrame_text created (by decide) [] built, rows, rowValues, three]
      with_unfolding_all rfl
    · have built : start.build "zero" = .ok zero := by with_unfolding_all rfl
      rw [evaluateFrame_text created (by decide) [] built, rows, rowValues, nothing]
      with_unfolding_all rfl
  have distinct : f.IsDistinct := by simp [Frame.IsDistinct, f, Value.same_text]
  obtain ⟨made, outcome, _, _, _, members, _, present⟩ :=
    applyFormulas_columns created distinct returned
  have present := present (Family.IsStandard.symbolsApart (.inr rfl)) (by decide)
  refine ⟨start, created, f, distinct, rfl, made, outcome, ?_, ?_, ?_⟩
  · rw [members]
    simp [series, Series.column]
  · exact present "zero" (by simp)
  · exact present "$a 1 +" (by simp)

end Formula
end Postfix
