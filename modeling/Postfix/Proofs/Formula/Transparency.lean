import Postfix.Proofs.Building
import Postfix.Proofs.Formula.Creation
import Postfix.Proofs.Formula.History

/-! The cache is never seen in an answer.
Whatever has been called before, and whatever of it has failed, an entry holds what the engine
builds from its key, so a parse gives what building without a cache gives, failures included. The
invariant is kept by a single parse; every other call is to the cache the parses that it makes, one
after the other. -/
namespace Postfix.Formula

/-- An engine that was created as `start`, and whose cache holds nothing but what `start` builds,
no key twice and no number twice. -/
structure Serves (start t : Engine) : Prop where
  alike : start.Alike t
  built : ∀ e ∈ t.cache.entries, start.build e.key = .ok e.expression
  older : ∀ e ∈ t.cache.entries, e.serial < t.built
  apart : ∀ d ∈ t.cache.entries, ∀ e ∈ t.cache.entries, d.serial = e.serial → d = e
  single : ∀ d ∈ t.cache.entries, ∀ e ∈ t.cache.entries, d.key = e.key → d = e

/-! ### One parse -/

namespace Cache

variable {c : Cache} {d e : Entry} {key : String}

theorem find?_eq_some (found : c.find? key = some e) : e ∈ c.entries ∧ e.key = key :=
  ⟨List.mem_of_find?_eq_some found, by simpa using List.find?_some found⟩

theorem key_ne_of_find?_eq_none (absent : c.find? key = none) (member : d ∈ c.entries) :
    d.key ≠ key := by
  simpa using List.find?_eq_none.mp absent d member

theorem mem_touch (found : e ∈ c.entries) (member : d ∈ (c.touch e).entries) : d ∈ c.entries := by
  rcases List.mem_append.mp member with member | member
  · exact (List.mem_filter.mp member).1
  · rwa [List.mem_singleton.mp member]

theorem keep_eq (limit : 0 ≤ c.limit) (e : Entry) :
    c.keep e = { c with
      entries := (c.entries ++ [e]).drop ((c.entries ++ [e]).length - c.limit.toNat) } := by
  have room : ¬ c.limit < 0 := Int.not_lt.mpr limit
  simp [keep, evict, insert, room]

theorem mem_keep (limit : 0 ≤ c.limit) (member : d ∈ (c.keep e).entries) :
    d ∈ c.entries ∨ d = e := by
  rw [keep_eq limit] at member
  simpa using List.mem_of_mem_drop member

theorem mem_keep_self (limit : 0 < c.limit) (e : Entry) : e ∈ (c.keep e).entries := by
  have early : (c.entries ++ [e]).length - c.limit.toNat ≤ c.entries.length := by
    rw [List.length_append]
    simp only [List.length_singleton]
    omega
  rw [keep_eq (Int.le_of_lt limit)]
  simp only [List.drop_append_of_le_length early]
  exact List.mem_append_right _ (List.mem_singleton_self e)

theorem eq_of_mem_keep {β : Type} {mark : Entry → β} (limit : 0 ≤ c.limit)
    (old : ∀ a ∈ c.entries, ∀ b ∈ c.entries, mark a = mark b → a = b)
    (new : ∀ a ∈ c.entries, mark a ≠ mark e) :
    ∀ a ∈ (c.keep e).entries, ∀ b ∈ (c.keep e).entries, mark a = mark b → a = b := by
  intro a ha b hb same
  rcases mem_keep limit ha with before | rfl <;> rcases mem_keep limit hb with before' | rfl
  · exact old a before b before' same
  · exact absurd same (new a before)
  · exact absurd same.symm (new b before')
  · rfl

end Cache

section

variable {start t : Engine}

theorem Serves.of_empty (alike : start.Alike t) (nothing : t.cache.entries = []) :
    Serves start t := by
  constructor
  case alike => exact alike
  all_goals simp [nothing]

theorem Serves.limit (serves : Serves start t) (limit : 0 ≤ start.cache.limit) :
    0 ≤ t.cache.limit := serves.alike.limit ▸ limit

theorem Serves.touch (serves : Serves start t) {e : Entry} (found : e ∈ t.cache.entries) :
    Serves start { t with cache := t.cache.touch e } where
  alike := serves.alike.update (t.cache.touch e) rfl _ _
  built d member := serves.built d (Cache.mem_touch found member)
  older d member := serves.older d (Cache.mem_touch found member)
  apart c hc d hd := serves.apart c (Cache.mem_touch found hc) d (Cache.mem_touch found hd)
  single c hc d hd := serves.single c (Cache.mem_touch found hc) d (Cache.mem_touch found hd)

theorem Serves.miss (serves : Serves start t) :
    Serves start { t with cache := t.cache.miss } where
  alike := serves.alike.update t.cache.miss rfl _ _
  built := serves.built
  older := serves.older
  apart := serves.apart
  single := serves.single

theorem Serves.keep (serves : Serves start t) (limit : 0 ≤ start.cache.limit) {e : Entry}
    (absent : t.cache.find? e.key = none) (fresh : e.serial = t.built)
    (right : start.build e.key = .ok e.expression) :
    Serves start { t with cache := t.cache.keep e, built := t.built + 1 } := by
  have room := serves.limit limit
  constructor
  case alike => exact serves.alike.update (t.cache.keep e) (by rw [Cache.keep_eq room]) _ _
  case built =>
    intro d member
    rcases Cache.mem_keep room member with member | rfl
    · exact serves.built d member
    · exact right
  case older =>
    intro d member
    rcases Cache.mem_keep room member with member | rfl
    · exact Nat.lt_succ_of_lt (serves.older d member)
    · exact fresh ▸ Nat.lt_succ_self _
  case apart =>
    have new : ∀ d ∈ t.cache.entries, d.serial ≠ e.serial := by
      intro d member
      rw [fresh]
      exact Nat.ne_of_lt (serves.older d member)
    exact Cache.eq_of_mem_keep room serves.apart new
  case single =>
    have new : ∀ d ∈ t.cache.entries, d.key ≠ e.key :=
      fun d member => Cache.key_ne_of_find?_eq_none absent member
    exact Cache.eq_of_mem_keep room serves.single new

/-- A parse keeps the invariant and gives what is built. -/
theorem Serves.parse (serves : Serves start t) (limit : 0 ≤ start.cache.limit) (formula : String) :
    Serves start ((parse formula).runOn t).2 ∧
      ((Formula.parse formula).runOn t).1.map Entry.expression = start.build formula := by
  have builds := serves.alike.build formula
  rcases parse_cases t formula (serves.limit limit) with
    ⟨e, found, ran⟩ | ⟨_, f, refused, ran⟩ | ⟨absent, x, made, ran⟩
  · obtain ⟨member, key⟩ := Cache.find?_eq_some found
    rw [ran]
    refine ⟨serves.touch member, ?_⟩
    rw [← start.build_normalKey, ← key, serves.built e member]
    rfl
  · rw [ran]
    exact ⟨serves.miss, by rw [← builds, refused]; rfl⟩
  · rw [ran]
    have right : start.build (normalKey formula) = .ok x := by
      rw [start.build_normalKey, ← builds, made]
    have keeps := serves.miss.keep (e := ⟨normalKey formula, x, t.built⟩) limit absent rfl right
    exact ⟨keeps, by rw [← builds, made]; rfl⟩

/-! ### Calls by their parses -/

def Engine.afterParses (s : Engine) (formulas : List String) : Engine :=
  s.after (formulas.map .parse)

theorem Engine.afterParses_cons (s : Engine) (formula : String) (rest : List String) :
    s.afterParses (formula :: rest) = ((Formula.parse formula).runOn s).2.afterParses rest := rfl

def Engine.logged (s : Engine) (log : List (Level × String)) : Engine := { s with log := log }

theorem Serves.logged (serves : Serves start t) (log : List (Level × String)) :
    Serves start (t.logged log) :=
  ⟨serves.alike.update t.cache rfl _ _, serves.built, serves.older, serves.apart, serves.single⟩

theorem parse_logged (formula : String) (t : Engine) (log : List (Level × String)) :
    (parse formula).runOn (t.logged log) =
      (((parse formula).runOn t).1, ((parse formula).runOn t).2.logged log) := by
  change Formula.parse formula (t.logged log) = _
  have unfolded : (parse formula).runOn t = parse formula t := rfl
  rw [unfolded]
  simp only [Formula.parse, Engine.build, Engine.logged]
  cases t.cache.find? (normalKey formula) with
  | some e => rfl
  | none =>
    cases Expression.ofText (normalKey formula) t.family (.numeric t.operandType)
        t.variableKind with
    | error f => rfl
    | ok x =>
      simp only
      cases (t.cache.miss.insert ⟨normalKey formula, x, t.built⟩).evict.1 <;> rfl

theorem afterParses_logged (formulas : List String) (t : Engine) (log : List (Level × String)) :
    (t.logged log).afterParses formulas = (t.afterParses formulas).logged log := by
  induction formulas generalizing t with
  | nil => rfl
  | cons formula rest ih =>
    rw [Engine.afterParses_cons, parse_logged, ih, Engine.afterParses_cons]

theorem Serves.afterParses (serves : Serves start t) (limit : 0 ≤ start.cache.limit)
    (formulas : List String) : Serves start (t.afterParses formulas) := by
  induction formulas generalizing t with
  | nil => exact serves
  | cons formula rest ih => exact ih (serves.parse limit formula).1

theorem frameSeries_runOn (e : Expression) (frame : Frame) (t : Engine) :
    (∃ log, ((frameSeries e frame).runOn t).2 = t.logged log) ∧
      ((frameSeries e frame).runOn t).1.isOk = (rowValues e t.nanOnError frame.rows).isOk := by
  have got : (get : Session Engine).runOn t = (.ok t, t) := rfl
  rw [frameSeries, Session.runOn_bind, got]
  simp only [Session.runOn_bind, Session.runOn_ofExcept]
  cases rowValues e t.nanOnError frame.rows with
  | error f => exact ⟨⟨t.log, rfl⟩, rfl⟩
  | ok values =>
    simp only
    split
    · exact ⟨⟨_, rfl⟩, rfl⟩
    · exact ⟨⟨t.log, rfl⟩, rfl⟩

theorem expressionOf_text_runOn (formula : String) (t : Engine) :
    (expressionOf (.text formula)).runOn t =
      (((parse formula).runOn t).1.map Entry.expression, ((parse formula).runOn t).2) := by
  rw [expressionOf, Session.runOn_bind]
  rcases (parse formula).runOn t with ⟨_ | entry, u⟩ <;> rfl

theorem evaluate_runOn (source : Source) (c : Container) (t : Engine) :
    (evaluate source c).runOn t =
      (((expressionOf source).runOn t).1 >>= fun e => e.evaluate c,
        ((expressionOf source).runOn t).2) := by
  rw [evaluate, Session.runOn_bind]
  rcases (expressionOf source).runOn t with ⟨_ | e, u⟩
  · rfl
  · exact Session.runOn_ofExcept (e.evaluate c) u

theorem evaluateFrame_runOn (source : Source) (data : Data) (t : Engine) :
    ∃ log,
      ((evaluateFrame source data).runOn t).2 = ((expressionOf source).runOn t).2.logged log := by
  rw [evaluateFrame, Session.runOn_bind]
  rcases (expressionOf source).runOn t with ⟨_ | e, u⟩
  · exact ⟨u.log, rfl⟩
  · simp only [Session.runOn_bind, Session.runOn_ofExcept]
    cases data.prepare with
    | error f => exact ⟨u.log, rfl⟩
    | ok frame => exact (frameSeries_runOn e frame u).1

/-- Past the parse an evaluation over a frame leaves the cache alone. It has a result if and only if
its formula completes the frame. -/
theorem Serves.evaluateFrame (serves : Serves start t) (limit : 0 ≤ start.cache.limit)
    (formula : String) (data : Data) :
    (∃ log, ((evaluateFrame (.text formula) data).runOn t).2 =
      ((Formula.parse formula).runOn t).2.logged log) ∧
      ((Formula.evaluateFrame (.text formula) data).runOn t).1.isOk =
        start.completes formula data := by
  obtain ⟨keeps, right⟩ := serves.parse limit formula
  obtain ⟨log, changed⟩ := evaluateFrame_runOn (.text formula) data t
  rw [expressionOf_text_runOn] at changed
  refine ⟨⟨log, changed⟩, ?_⟩
  rw [Formula.evaluateFrame, Session.runOn_bind, expressionOf_text_runOn, Engine.completes,
    ← right]
  rcases ran : (Formula.parse formula).runOn t with ⟨_ | e, u⟩
  case error => rfl
  case ok =>
    rw [ran] at keeps
    simp only [Except.map, Session.runOn_bind, Session.runOn_ofExcept]
    cases data.prepare with
    | error f => rfl
    | ok frame => exact keeps.alike.nanOnError ▸ (frameSeries_runOn e.expression frame u).2

theorem Serves.walk {α : Type} (serves : Serves start t) (limit : 0 ≤ start.cache.limit)
    (data : Data) (run : α → List String → Session α) (join : α → Series → α)
    (done : ∀ a u, ((run a []).runOn u).2 = u)
    (next : ∀ a formula rest, run a (formula :: rest) =
      Formula.evaluateFrame (.text formula) data >>= fun v => run (join a v) rest)
    (a : α) (formulas : List String) :
    ∃ log, ((run a formulas).runOn t).2 =
      (t.afterParses (start.reached data formulas)).logged log := by
  induction formulas generalizing a t with
  | nil => exact ⟨t.log, done a t⟩
  | cons formula rest ih =>
    obtain ⟨⟨log, changed⟩, goes⟩ := serves.evaluateFrame limit formula data
    rw [next, Session.runOn_bind, Engine.reached, Engine.afterParses_cons, ← goes]
    rcases ran : (Formula.evaluateFrame (.text formula) data).runOn t with ⟨_ | v, u⟩ <;>
      rw [ran] at changed
    case error => exact ⟨log, changed⟩
    case ok =>
      subst changed
      obtain ⟨log', walked⟩ := ih ((serves.parse limit formula).1.logged log) (join a v)
      rw [afterParses_logged] at walked
      exact ⟨log', walked⟩

theorem Serves.applyFormulas (serves : Serves start t) (limit : 0 ≤ start.cache.limit)
    (data : Data) (formulas : List String) :
    ∃ log, ((applyFormulas data formulas).runOn t).2 =
      (t.afterParses ((Call.applyFormulas data formulas).formulas start)).logged log := by
  have others := serves.walk limit data
    (fun _ fs => fs.forM fun formula => do
      let _ ← Formula.evaluateFrame (.text formula) data)
    (fun a _ => a) (fun _ _ => rfl) (fun _ _ _ => by simp [List.forM_cons]) () formulas
  cases data with
  | frame f =>
    exact serves.walk limit (.frame f) (applyEach f)
      (fun made v => made.setColumn ⟨.text v.name, v.dtype, v.values⟩) (fun _ _ => rfl)
      (fun _ _ _ => rfl) f formulas
  | columns cs =>
    obtain ⟨log, walked⟩ := others
    exact ⟨log, (Session.runOn_bind_fail ..).trans walked⟩
  | other typeName =>
    simp only [Formula.applyFormulas, Call.formulas]
    split
    · obtain ⟨log, walked⟩ := others
      exact ⟨log, (Session.runOn_bind_fail ..).trans walked⟩
    · exact ⟨t.log, rfl⟩

/-- Apart from the records a call is the parses that it makes. -/
theorem Serves.after_eq (serves : Serves start t) (limit : 0 ≤ start.cache.limit) {call : Call}
    (kept : call ≠ .clear) :
    ∃ log, call.after t = (t.afterParses (call.formulas start)).logged log := by
  cases call with
  | parse formula => exact ⟨_, rfl⟩
  | evaluate source c =>
    rw [Call.after, evaluate_runOn]
    cases source with
    | text formula =>
      rw [expressionOf_text_runOn]
      exact ⟨_, rfl⟩
    | built e => exact ⟨_, rfl⟩
  | evaluateFrame source data =>
    cases source with
    | text formula => exact (serves.evaluateFrame limit formula data).1
    | built e => exact evaluateFrame_runOn (.built e) data t
  | applyFormulas data formulas => exact serves.applyFormulas limit data formulas
  | clear => exact absurd rfl kept

theorem Serves.cleared (serves : Serves start t) : Serves start (Call.clear.after t) := by
  obtain ⟨log, cleared⟩ := Call.clear_after t
  rw [cleared]
  exact .of_empty (serves.alike.update t.cache.clear rfl _ _) rfl

theorem Serves.call (serves : Serves start t) (limit : 0 ≤ start.cache.limit) (call : Call) :
    Serves start (call.after t) := by
  by_cases kept : call = .clear
  · exact kept ▸ serves.cleared
  · obtain ⟨log, parses⟩ := serves.after_eq limit kept
    exact parses ▸ (serves.afterParses limit _).logged log

theorem Serves.history (serves : Serves start t) (limit : 0 ≤ start.cache.limit)
    (history : List Call) : Serves start (t.after history) := by
  induction history generalizing t with
  | nil => exact serves
  | cons call rest ih => exact ih (serves.call limit call)

/-! ### Entries that are shared -/

theorem Serves.mem_of_parse (serves : Serves start t) (limit : 0 < start.cache.limit)
    {formula : String} {e : Entry} {u : Engine}
    (ran : (Formula.parse formula).runOn t = (.ok e, u)) :
    e ∈ u.cache.entries ∧ e.key = normalKey formula := by
  have room : 0 < t.cache.limit := serves.alike.limit ▸ limit
  rcases parse_cases t formula (Int.le_of_lt room) with
    ⟨d, found, found_⟩ | ⟨_, f, _, refused⟩ | ⟨_, x, _, made⟩
  · cases ran.symm.trans found_
    exact ⟨List.mem_append_right _ (List.mem_singleton_self _), (Cache.find?_eq_some found).2⟩
  · cases ran.symm.trans refused
  · cases ran.symm.trans made
    exact ⟨Cache.mem_keep_self (c := t.cache.miss) room _, rfl⟩

theorem Serves.parse_shared (serves : Serves start t) (limit : 0 ≤ start.cache.limit) {e : Entry}
    (member : e ∈ t.cache.entries) (formula : String) :
    ((Formula.parse formula).runOn t).1.map Entry.serial = .ok e.serial ↔
      normalKey formula = e.key := by
  rcases parse_cases t formula (serves.limit limit) with
    ⟨d, found, ran⟩ | ⟨absent, f, _, ran⟩ | ⟨absent, x, _, ran⟩
  case inl =>
    obtain ⟨member', key⟩ := Cache.find?_eq_some found
    rw [ran, ← key]
    constructor
    · intro same
      rw [serves.apart d member' e member (Except.ok.inj same)]
    · intro same
      rw [serves.single d member' e member same]
      rfl
  case inr.inl =>
    have differ := Cache.key_ne_of_find?_eq_none absent member
    rw [ran]
    exact ⟨nofun, fun same => absurd same.symm differ⟩
  case inr.inr =>
    have differ := Cache.key_ne_of_find?_eq_none absent member
    rw [ran]
    constructor
    · intro same
      exact absurd (Except.ok.inj same).symm (Nat.ne_of_lt (serves.older e member))
    · exact fun same => absurd same.symm differ

end

/-! ### From the beginning -/

theorem Serves.fresh {settings : Settings} {options : Options} {start : Engine}
    (created : Engine.create settings options = .ok start) : Serves start start :=
  .of_empty ⟨rfl, rfl, rfl, rfl, rfl⟩ (congrArg Cache.entries (Engine.create_cache created))

/-- A parse gives what building without a cache gives, and formulas share an entry if and only if
they have the same words. -/
theorem parse_transparent {settings : Settings} {options : Options} {start : Engine}
    (created : Engine.create settings options = .ok start) (positive : 0 < start.cache.limit)
    (history : List Call) (formula : String) :
    ((parse formula).runOn (start.after history)).1.map Entry.expression =
        Expression.ofText formula start.family (.numeric start.operandType) start.variableKind ∧
      ∀ e t, (parse formula).runOn (start.after history) = (.ok e, t) → ∀ other,
        (((parse other).runOn t).1.map Entry.serial = .ok e.serial ↔
          Text.splitTokens other = Text.splitTokens formula) := by
  have limit : 0 ≤ start.cache.limit := Int.le_of_lt positive
  have serves := (Serves.fresh created).history limit history
  obtain ⟨keeps, right⟩ := serves.parse limit formula
  refine ⟨right, fun e t ran other => ?_⟩
  obtain ⟨member, key⟩ := serves.mem_of_parse positive ran
  rw [ran] at keeps
  rw [keeps.parse_shared limit member, key, normalKey_eq_iff]

theorem parse_transparent_after_failures :
    ∃ start, Engine.create {} { family := some (.named "int"), cacheSize := some 1 } = .ok start ∧
      0 < start.cache.limit ∧
      let history : List Call :=
        [.parse "3 4 +", .parse "3 +", .evaluate (.text "1 0 /") .empty, .clear, .parse "5"]
      ((parse "3\t4  +").runOn (start.after history)).1.map Entry.expression =
          .ok ⟨[.operand (.word .int64 3) "3", .operand (.word .int64 4) "4",
            .operator (.integer (.binary .add))], 2, .numeric .int64, .integer, .name⟩ ∧
        ∀ e t, (parse "3\t4  +").runOn (start.after history) = (.ok e, t) →
          ((parse " 3 4 +").runOn t).1.map Entry.serial = .ok e.serial ∧
            ((parse "34 +").runOn t).1.map Entry.serial ≠ .ok e.serial := by
  have created := Engine.create_integers_sized 1 (by decide)
  refine ⟨_, created, by decide, ?_⟩
  obtain ⟨right, shared⟩ := parse_transparent created (by decide)
    [.parse "3 4 +", .parse "3 +", .evaluate (.text "1 0 /") .empty, .clear, .parse "5"] "3\t4  +"
  refine ⟨right.trans (by with_unfolding_all rfl), fun e t ran => ⟨?_, ?_⟩⟩
  · exact (shared e t ran " 3 4 +").mpr (by decide)
  · exact fun same => absurd ((shared e t ran "34 +").mp same) (by decide)

end Postfix.Formula
