import Postfix.Proofs.Formula.Rows

/-! What every call preserves, whatever the limit of the cache is.
A call parses formulas, writes records and clears the cache, and does nothing else to an engine; so
what these three preserve is preserved by any history. The cache never outgrows its limit. Under a
negative one it never holds anything and no formula is ever parsed: an engine that has parsed one
has room for entries, and the result of a formula over a frame is then the same at any time. -/
namespace Postfix.Formula

/-! ### Calls in general -/

structure Preserved (P : Engine → Prop) : Prop where
  parse : ∀ t formula, P t → P ((parse formula).runOn t).2
  logged : ∀ t log, P t → P (t.logged log)
  cleared : ∀ t : Engine, P t → P { t with cache := t.cache.clear }

namespace Preserved

variable {P : Engine → Prop} {t : Engine}

theorem expressionOf (preserved : Preserved P) (holds : P t) (source : Source) :
    P ((expressionOf source).runOn t).2 := by
  cases source with
  | built e => exact holds
  | text formula =>
    rw [expressionOf_text_runOn]
    exact preserved.parse t formula holds

theorem evaluateFrame (preserved : Preserved P) (holds : P t) (source : Source) (data : Data) :
    P ((evaluateFrame source data).runOn t).2 := by
  obtain ⟨log, ran⟩ := evaluateFrame_runOn source data t
  rw [ran]
  exact preserved.logged _ log (preserved.expressionOf holds source)

theorem walk {α : Type} (preserved : Preserved P) (holds : P t) (data : Data)
    (run : α → List String → Session α) (join : α → Series → α)
    (done : ∀ a u, ((run a []).runOn u).2 = u)
    (next : ∀ a formula rest, run a (formula :: rest) =
      Formula.evaluateFrame (.text formula) data >>= fun v => run (join a v) rest)
    (a : α) (formulas : List String) : P ((run a formulas).runOn t).2 := by
  induction formulas generalizing a t with
  | nil => rwa [done]
  | cons formula rest ih =>
    have first := preserved.evaluateFrame holds (.text formula) data
    rw [next, Session.runOn_bind]
    rcases ran : (Formula.evaluateFrame (.text formula) data).runOn t with ⟨_ | v, u⟩ <;>
      rw [ran] at first
    · exact first
    · exact ih first (join a v)

theorem applyFormulas (preserved : Preserved P) (holds : P t) (data : Data)
    (formulas : List String) : P ((applyFormulas data formulas).runOn t).2 := by
  have others := preserved.walk holds data
    (fun _ fs => fs.forM fun formula => do
      let _ ← Formula.evaluateFrame (.text formula) data)
    (fun a _ => a) (fun _ _ => rfl) (fun _ _ _ => by simp [List.forM_cons]) () formulas
  cases data with
  | frame f =>
    exact preserved.walk holds (.frame f) (applyEach f)
      (fun made v => made.setColumn ⟨.text v.name, v.dtype, v.values⟩) (fun _ _ => rfl)
      (fun _ _ _ => rfl) f formulas
  | columns cs => exact (Session.runOn_bind_fail ..).symm ▸ others
  | other typeName =>
    simp only [Formula.applyFormulas]
    split
    · exact (Session.runOn_bind_fail ..).symm ▸ others
    · exact holds

theorem call (preserved : Preserved P) (holds : P t) (call : Call) : P (call.after t) := by
  cases call with
  | parse formula => exact preserved.parse t formula holds
  | evaluate source c =>
    rw [Call.after, evaluate_runOn]
    exact preserved.expressionOf holds source
  | evaluateFrame source data => exact preserved.evaluateFrame holds source data
  | applyFormulas data formulas => exact preserved.applyFormulas holds data formulas
  | clear =>
    obtain ⟨log, cleared⟩ := Call.clear_after t
    rw [cleared]
    exact preserved.logged _ log (preserved.cleared t holds)

theorem history (preserved : Preserved P) (holds : P t) (history : List Call) :
    P (t.after history) := by
  induction history generalizing t with
  | nil => exact holds
  | cons call rest ih => exact ih (preserved.call holds call)

end Preserved

/-! ### Limits -/

theorem preserved_alike (start : Engine) : Preserved start.Alike where
  parse t formula alike := by
    rcases parse_changes t formula with ⟨e, _, ran⟩ | ⟨_, f, _, ran⟩ | ⟨_, x, _, ran⟩ <;>
      rw [ran]
    · exact alike.update (t.cache.touch e) rfl _ _
    · exact alike.update t.cache.miss rfl _ _
    · refine alike.update _ ?_ _ _
      rw [Cache.evict_snd]
      rfl
  logged t log alike := alike.update t.cache rfl _ _
  cleared t alike := alike.update t.cache.clear rfl _ _

/-- A cache never has more entries than its limit allows, so none under a negative limit. -/
theorem preserved_fits :
    Preserved fun t => t.cache.entries.length ≤ t.cache.limit.toNat where
  parse t formula fits := by
    rcases parse_changes t formula with ⟨e, found, ran⟩ | ⟨_, f, _, ran⟩ | ⟨_, x, _, ran⟩ <;>
      rw [ran]
    · have member := (Cache.find?_eq_some found).1
      have fewer : (t.cache.entries.filter (·.key ≠ e.key)).length < t.cache.entries.length :=
        List.length_filter_lt_length_iff_exists.mpr ⟨e, member, by simp⟩
      simp only [Cache.touch, List.length_append, List.length_singleton]
      omega
    · exact fits
    · simp only [Cache.evict_snd, List.length_drop]
      omega
  logged _ _ fits := fits
  cleared _ _ := Nat.zero_le _

def Engine.HoldsNothing (t : Engine) : Prop := t.cache.limit < 0 ∧ t.cache.entries = []

theorem parse_holdsNothing {t : Engine} (nothing : t.HoldsNothing) (formula : String) :
    ((parse formula).runOn t).1.isOk = false := by
  obtain ⟨negative, empty⟩ := nothing
  rcases parse_changes t formula with ⟨e, found, _⟩ | ⟨_, f, _, ran⟩ | ⟨_, x, _, ran⟩
  · rw [Cache.find?, empty] at found
    cases found
  · rw [ran]
    rfl
  · have ended (e : Entry) : (t.cache.miss.insert e).evict.1 = .error .emptyCache := by
      rw [Cache.evict_fst]
      exact if_neg (Int.not_le.mpr negative)
    rw [ran, ended]
    rfl

theorem alike_after (start : Engine) (history : List Call) : start.Alike (start.after history) :=
  (preserved_alike start).history ⟨rfl, rfl, rfl, rfl, rfl⟩ history

section

variable {settings : Settings} {options : Options} {start : Engine}
  (created : Engine.create settings options = .ok start) {history : List Call}

include created

theorem fits_after (history : List Call) :
    (start.after history).cache.entries.length ≤ start.cache.limit.toNat := by
  have fresh : start.cache.entries = [] := congrArg Cache.entries (Engine.create_cache created)
  rw [← (alike_after start history).limit]
  exact preserved_fits.history (by simp [fresh]) history

theorem holdsNothing_after (negative : start.cache.limit < 0) (history : List Call) :
    (start.after history).HoldsNothing := by
  refine ⟨(alike_after start history).limit ▸ negative, ?_⟩
  apply List.eq_nil_of_length_eq_zero
  have fits := fits_after created history
  omega

/-- Only an engine without a negative limit ever parses a formula. -/
theorem limit_of_parsed {formula : String} {entry : Entry}
    (parsed : ((parse formula).runOn (start.after history)).1 = .ok entry) :
    0 ≤ start.cache.limit := by
  rw [← Int.not_lt]
  intro negative
  have refused := parse_holdsNothing (holdsNothing_after created negative history) formula
  rw [parsed] at refused
  cases refused

theorem build_of_parsed {formula : String} {entry : Entry}
    (parsed : ((parse formula).runOn (start.after history)).1 = .ok entry) :
    start.build formula = .ok entry.expression := by
  have limit := limit_of_parsed created parsed
  have right := (((Serves.fresh created).history limit history).parse limit formula).2
  rw [← right, parsed]
  rfl

/-- A formula with a result over a frame has been parsed, and has this result at any time. -/
theorem evaluateFrame_anytime {formula : String} {frame : Frame} {series : Series}
    (returned : ((evaluateFrame (.text formula) (.frame frame)).runOn (start.after history)).1 =
      .ok series) :
    ∃ e, start.build formula = .ok e ∧ series.name = e.text ∧
      (rowValues e start.nanOnError frame.rows).map (Series.ofRows e start.operandType frame) =
        .ok series ∧
      ∀ other, ((evaluateFrame (.text formula) (.frame frame)).runOn (start.after other)).1 =
        .ok series := by
  cases parsed : ((parse formula).runOn (start.after history)).1 with
  | error f =>
    rw [evaluateFrame, Session.runOn_bind, expressionOf_text_runOn, parsed] at returned
    cases returned
  | ok entry =>
    have limit := limit_of_parsed created parsed
    have built := build_of_parsed created parsed
    have outcome := evaluateFrame_text created limit history built frame
    rw [returned] at outcome
    obtain ⟨values, _, rfl⟩ := Except.map_eq_ok.mp outcome.symm
    refine ⟨entry.expression, built, rfl, outcome.symm, fun other => ?_⟩
    rw [evaluateFrame_text created limit other built frame, ← outcome]

end

end Postfix.Formula
