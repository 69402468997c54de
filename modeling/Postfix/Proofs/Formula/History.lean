import Postfix.Formula.Engine
import Postfix.Proofs.Text.Words

/-! What users do to an engine, and what of it an engine keeps.
A history is a list of calls. The family, the kinds of operands and variables and the limit of the
cache are never changed by a call, so what a formula means to an engine is settled when the engine
is created. A call looks into the cache for each formula that it parses, and for nothing else; which
formulas it parses can be said without the cache. Threads are not modelled, calls follow one
another. -/
namespace Postfix.Formula

inductive Call
  | parse (formula : String)
  | evaluate (source : Source) (c : Container)
  | evaluateFrame (source : Source) (data : Data)
  | applyFormulas (data : Data) (formulas : List String)
  | clear

def Call.after : Call → Engine → Engine
  | parse formula, s => ((Formula.parse formula).runOn s).2
  | evaluate source c, s => ((Formula.evaluate source c).runOn s).2
  | evaluateFrame source data, s => ((Formula.evaluateFrame source data).runOn s).2
  | applyFormulas data formulas, s => ((Formula.applyFormulas data formulas).runOn s).2
  | clear, s => (clearCache.runOn s).2

def Engine.after (s : Engine) (history : List Call) : Engine :=
  history.foldl (fun t call => call.after t) s

/-! ### The formulas that a call parses -/

/-- Whether a formula has a value or a gap in every row, so that a list of formulas is gone through
beyond it. -/
def Engine.completes (s : Engine) (formula : String) (data : Data) : Bool :=
  match s.build formula, data.prepare with
  | .ok e, .ok frame => (rowValues e s.nanOnError frame.rows).isOk
  | _, _ => false

def Engine.reached (s : Engine) (data : Data) : List String → List String
  | [] => []
  | formula :: rest =>
    formula :: if s.completes formula data then s.reached data rest else []

def Source.formulas : Source → List String
  | text formula => [formula]
  | built _ => []

def Call.formulas (s : Engine) : Call → List String
  | parse formula => [formula]
  | evaluate source _ => source.formulas
  | evaluateFrame source _ => source.formulas
  | applyFormulas data formulas => if data.isCopyable then s.reached data formulas else []
  | clear => []

def Call.parsedAfter (s : Engine) (before : List String) : Call → List String
  | clear => []
  | call => before ++ call.formulas s

def Engine.parsed (s : Engine) (history : List Call) : List String :=
  history.foldl (Call.parsedAfter s) []

theorem Call.parsedAfter_of_ne_clear (s : Engine) (before : List String) {call : Call}
    (kept : call ≠ .clear) : call.parsedAfter s before = before ++ call.formulas s := by
  cases call with
  | clear => exact absurd rfl kept
  | _ => rfl

/-! ### Sessions -/

namespace Session

variable {α β : Type}

theorem runOn_bind (a : Session α) (f : α → Session β) (s : Engine) :
    (a >>= f).runOn s =
      match a.runOn s with
      | (.ok v, t) => (f v).runOn t
      | (.error e, t) => (.error e, t) := by
  unfold runOn
  rw [ExceptT.run_bind, StateT.run_bind]
  rcases (ExceptT.run a).run s with ⟨_ | _, _⟩ <;> rfl

theorem runOn_ofExcept (r : Except Failure α) (s : Engine) : (ofExcept r).runOn s = (r, s) := by
  cases r <;> rfl

theorem runOn_bind_fail (a : Session α) (e : Failure) (s : Engine) :
    ((a >>= fun _ => (fail e : Session β)).runOn s).2 = (a.runOn s).2 := by
  rw [runOn_bind]
  rcases a.runOn s with ⟨_ | _, _⟩ <;> rfl

end Session

theorem Call.clear_after (s : Engine) :
    ∃ log, Call.clear.after s = { s with log := log, cache := s.cache.clear } := ⟨_, rfl⟩

/-! ### Keys -/

theorem splitTokens_normalKey (formula : String) :
    Text.splitTokens (normalKey formula) = Text.splitTokens formula := by
  have blank : ∀ c ∈ " ".toList, Text.isBlank c := by
    simpa using (by decide : Text.isBlank ' ' = true)
  exact Text.splitTokens_intercalate (by decide) blank fun _ => Text.isWord_of_mem_splitTokens

theorem normalKey_eq_iff {f g : String} :
    normalKey f = normalKey g ↔ Text.splitTokens f = Text.splitTokens g := by
  constructor
  · intro same
    rw [← splitTokens_normalKey f, same, splitTokens_normalKey]
  · intro same
    rw [normalKey, same]
    rfl

theorem Engine.build_normalKey (s : Engine) (formula : String) :
    s.build (normalKey formula) = s.build formula := by
  simp only [build, Expression.ofText, splitTokens_normalKey]

/-! ### What never changes -/

/-- The engines were created alike: they differ at most in what the cache holds and has counted and
in their records. -/
structure Engine.Alike (s t : Engine) : Prop where
  operandType : t.operandType = s.operandType
  family : t.family = s.family
  variableKind : t.variableKind = s.variableKind
  nanOnError : t.nanOnError = s.nanOnError
  limit : t.cache.limit = s.cache.limit

namespace Engine.Alike

variable {s t : Engine}

theorem build (alike : Alike s t) (formula : String) : t.build formula = s.build formula := by
  simp only [Engine.build, alike.family, alike.operandType, alike.variableKind]

theorem update (alike : Alike s t) (cache : Cache) (limit : cache.limit = t.cache.limit)
    (built : Nat) (log : List (Level × String)) :
    Alike s { t with cache := cache, built := built, log := log } :=
  ⟨alike.operandType, alike.family, alike.variableKind, alike.nanOnError,
    limit.trans alike.limit⟩

end Engine.Alike

/-! ### One parse -/

/-- A new entry takes its place behind the others, of which the oldest go if there are too many. -/
def Cache.keep (c : Cache) (e : Entry) : Cache := (c.insert e).evict.2

/-- All that a parse can do, whatever the limit is: it finds an entry, or the formula is refused, or
there is a new entry, and then eviction decides whether that is given. -/
theorem parse_changes (s : Engine) (formula : String) :
    (∃ e, s.cache.find? (normalKey formula) = some e ∧
      (parse formula).runOn s = (.ok e, { s with cache := s.cache.touch e })) ∨
    (s.cache.find? (normalKey formula) = none ∧ ∃ f, s.build formula = .error f ∧
      (parse formula).runOn s = (.error f, { s with cache := s.cache.miss })) ∨
    (s.cache.find? (normalKey formula) = none ∧ ∃ x, s.build formula = .ok x ∧
      let e : Entry := ⟨normalKey formula, x, s.built⟩
      let ended := (s.cache.miss.insert e).evict
      (parse formula).runOn s = ((ended.1.map fun _ => e).mapError .fault,
        { s with cache := ended.2, built := s.built + 1 })) := by
  have unfolded : (parse formula).runOn s = parse formula s := rfl
  rw [unfolded, parse]
  cases found : s.cache.find? (normalKey formula) with
  | some e => exact .inl ⟨e, rfl, rfl⟩
  | none =>
    rw [s.build_normalKey]
    cases s.build formula with
    | error f => exact .inr (.inl ⟨rfl, f, rfl, rfl⟩)
    | ok x =>
      refine .inr (.inr ⟨rfl, x, rfl, ?_⟩)
      simp only
      rcases (s.cache.miss.insert ⟨normalKey formula, x, s.built⟩).evict with ⟨_ | _, c⟩ <;> rfl

theorem parse_cases (s : Engine) (formula : String) (limit : 0 ≤ s.cache.limit) :
    (∃ e, s.cache.find? (normalKey formula) = some e ∧
      (parse formula).runOn s = (.ok e, { s with cache := s.cache.touch e })) ∨
    (s.cache.find? (normalKey formula) = none ∧ ∃ f, s.build formula = .error f ∧
      (parse formula).runOn s = (.error f, { s with cache := s.cache.miss })) ∨
    (s.cache.find? (normalKey formula) = none ∧ ∃ x, s.build formula = .ok x ∧
      (parse formula).runOn s = (.ok ⟨normalKey formula, x, s.built⟩,
        { s with cache := s.cache.miss.keep ⟨normalKey formula, x, s.built⟩,
                 built := s.built + 1 })) := by
  rcases parse_changes s formula with found | refused | ⟨absent, x, made, ran⟩
  · exact .inl found
  · exact .inr (.inl refused)
  · refine .inr (.inr ⟨absent, x, made, ?_⟩)
    have room : 0 ≤ (s.cache.miss.insert ⟨normalKey formula, x, s.built⟩).limit := limit
    rw [ran, Cache.evict_fst, if_pos room]
    rfl

end Postfix.Formula
