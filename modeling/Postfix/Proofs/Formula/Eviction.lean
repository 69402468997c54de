import Postfix.Proofs.Formula.Preservation

/-! How the cache is kept within its limit.
Eviction is a loop of turns, each of which takes out the oldest entry. The turns always come to an
end, with the entries that eviction leaves at once, and they fail if and only if the limit is
negative: no number of entries is within such a limit, so the last turn finds nothing to take out.
Sizes are not looked at when an engine is created, so what its parses give depends on its size
alone. -/
namespace Postfix.Formula

/-! ### Turns -/

/-- Eviction turn by turn, with how it ends and what it leaves. As long as there are more entries
than the limit, the oldest is taken out; of no entries none is the oldest. -/
inductive Cache.Evicts : Cache → Except Fault Unit → Cache → Prop
  | enough {c : Cache} (within : c.entries.length ≤ c.limit) : Evicts c (.ok ()) c
  | turn {c d : Cache} {ended : Except Fault Unit} {oldest : Entry} {rest : List Entry}
      (crowded : c.limit < c.entries.length) (first : c.entries = oldest :: rest)
      (later : Evicts { c with entries := rest } ended d) : Evicts c ended d
  | nothing {c : Cache} (crowded : c.limit < c.entries.length) (empty : c.entries = []) :
      Evicts c (.error .emptyCache) c

namespace Cache

variable {c d : Cache} {ended : Except Fault Unit}

theorem evicts_evict (c : Cache) : c.Evicts c.evict.1 c.evict.2 := by
  rw [evict_fst, evict_snd]
  obtain ⟨entries, hits, misses, limit⟩ := c
  dsimp only
  induction entries with
  | nil =>
    rw [List.drop_nil]
    split
    case isTrue room => exact .enough room
    case isFalse negative => exact .nothing (Int.not_le.mp negative) rfl
  | cons oldest rest ih =>
    by_cases crowded : limit < (oldest :: rest).length
    · refine .turn crowded rfl ?_
      have fewer : (oldest :: rest).length - limit.toNat = rest.length - limit.toNat + 1 := by
        simp only [List.length_cons] at crowded ⊢
        omega
      rw [fewer, List.drop_succ_cons]
      exact ih
    · have all : (oldest :: rest).length - limit.toNat = 0 := by omega
      have room : 0 ≤ limit := by omega
      rw [all, List.drop_zero, if_pos room]
      exact .enough (Int.not_lt.mp crowded)

theorem Evicts.eq_evict (evicts : c.Evicts ended d) : ended = c.evict.1 ∧ d = c.evict.2 := by
  rw [evict_fst, evict_snd]
  induction evicts with
  | @enough c within =>
    have all : c.entries.length - c.limit.toNat = 0 := by omega
    rw [all, List.drop_zero, if_pos (by omega)]
    exact ⟨rfl, rfl⟩
  | @turn c d ended oldest rest crowded first later ih =>
    have fewer : c.entries.length - c.limit.toNat = rest.length - c.limit.toNat + 1 := by
      rw [first, List.length_cons] at crowded ⊢
      omega
    rw [fewer, first, List.drop_succ_cons]
    exact ih
  | @nothing c crowded empty =>
    have negative : ¬ 0 ≤ c.limit := by
      rw [empty] at crowded
      exact Int.not_le.mpr crowded
    rw [if_neg negative, empty, List.drop_nil, ← empty]
    exact ⟨rfl, rfl⟩

theorem evicts_iff : c.Evicts ended d ↔ ended = c.evict.1 ∧ d = c.evict.2 := by
  constructor
  · exact Evicts.eq_evict
  · rintro ⟨rfl, rfl⟩
    exact c.evicts_evict

theorem evict_parts (c : Cache) : ∃ removed, c.entries = removed ++ c.evict.2.entries ∧
    removed.length = c.entries.length - c.limit.toNat := by
  refine ⟨c.entries.take (c.entries.length - c.limit.toNat), ?_, ?_⟩
  · rw [evict_snd]
    exact (List.take_append_drop ..).symm
  · rw [List.length_take]
    omega

end Cache

/-! ### One parse -/

theorem parse_added {t : Engine} {formula : String} {x : Expression}
    (unused : normalKey formula ∉ t.cache.keys) (made : t.build formula = .ok x) :
    let e : Entry := ⟨normalKey formula, x, t.built⟩
    let ended := (t.cache.miss.insert e).evict
    (parse formula).runOn t = ((ended.1.map fun _ => e).mapError .fault,
      { t with cache := ended.2, built := t.built + 1 }) := by
  rcases parse_changes t formula with
    ⟨e, found, _⟩ | ⟨_, f, refused, _⟩ | ⟨_, y, built, ran⟩
  · obtain ⟨member, key⟩ := Cache.find?_eq_some found
    exact absurd (key ▸ List.mem_map_of_mem member) unused
  · cases made.symm.trans refused
  · cases made.symm.trans built
    exact ran

/-! ### Every engine -/

/-- No size is refused when an engine is created, and zero stands for the size of the settings. The
cache then never has more entries than the size, but valid formulas are parsed if and only if it is
not negative: the turns of eviction take out exactly the oldest entries beyond the size, and with a
negative size they ask for one more. -/
theorem parse_evicts_oldest {settings : Settings} {options : Options} {start : Engine} {size : Int}
    (given : options.cacheSize = some size) (created : Engine.create settings options = .ok start)
    (history : List Call) {formula : String} {x : Expression}
    (valid : start.build formula = .ok x) :
    let limit := if size = 0 then settings.cacheSize else size
    let s := start.after history
    let outcome := ((parse formula).runOn s).1
    let kept := ((parse formula).runOn s).2.cache
    (∀ other : Int, (Engine.create settings { options with cacheSize := some other }).isOk) ∧
      kept.limit = limit ∧ kept.entries.length ≤ limit.toNat ∧
      (0 ≤ limit → outcome.map Entry.expression = .ok x) ∧
      (limit < 0 → outcome = .error (.fault .emptyCache)) ∧
      (normalKey formula ∉ s.cache.keys →
        let added := s.cache.miss.insert ⟨normalKey formula, x, s.built⟩
        (∀ ended c, added.Evicts ended c ↔
          ended = (if 0 ≤ limit then .ok () else .error .emptyCache) ∧ c = kept) ∧
        ∃ removed, added.entries = removed ++ kept.entries ∧
          removed.length = added.entries.length - limit.toNat) := by
  intro limit s outcome kept
  have limited : start.cache.limit = limit := Engine.create_limit given created
  have alike : start.Alike s := alike_after start history
  have bound : s.cache.limit = limit := alike.limit.trans limited
  have made : s.build formula = .ok x := (alike.build formula).trans valid
  -- What the parse leaves is what a history leaves that is longer by one call.
  have next : kept = (start.after (history ++ [.parse formula])).cache := by
    rw [Engine.after, List.foldl_append]
    rfl
  have keptBound : kept.limit = limit := by
    rw [next, (alike_after start _).limit, limited]
  have keptFits : kept.entries.length ≤ limit.toNat := by
    rw [next, ← limited]
    exact fits_after created _
  refine ⟨fun other => ?created, keptBound, keptFits, ?returns, ?fails, ?turns⟩
  case created =>
    rw [Engine.create_resized created]
    rfl
  case returns =>
    intro room
    have limit' : 0 ≤ start.cache.limit := limited ▸ room
    exact (((Serves.fresh created).history limit' history).parse limit' formula).2.trans valid
  case fails =>
    intro negative
    have nothing : s.cache.entries = [] :=
      (holdsNothing_after created (limited ▸ negative) history).2
    have unused : normalKey formula ∉ s.cache.keys := by simp [Cache.keys, nothing]
    have below : ¬ 0 ≤ (s.cache.miss.insert ⟨normalKey formula, x, s.built⟩).limit :=
      bound ▸ Int.not_le.mpr negative
    have ran := congrArg Prod.fst (parse_added unused made)
    rw [Cache.evict_fst, if_neg below] at ran
    exact ran
  case turns =>
    intro unused added
    have left : kept = added.evict.2 := congrArg (·.2.cache) (parse_added unused made)
    have addedBound : added.limit = limit := bound
    have parts := added.evict_parts
    rw [addedBound, ← left] at parts
    refine ⟨fun ended c => ?_, parts⟩
    rw [Cache.evicts_iff, Cache.evict_fst, left, addedBound]

/-- A size of one, and a size below none. -/
theorem parse_evicts_oldest_at_two_sizes :
    ∃ one below x,
      Engine.create {} { family := some (.named "int"), cacheSize := some 1 } = .ok one ∧
      Engine.create {} { family := some (.named "int"), cacheSize := some (-1) } = .ok below ∧
      one.build "1 2 +" = .ok x ∧ below.build "1 2 +" = .ok x ∧
      (let s := one.after [.parse "3"]
      let t := ((parse "1 2 +").runOn s).2
      ((parse "1 2 +").runOn s).1.map Entry.expression = .ok x ∧
        normalKey "1 2 +" ∉ s.cache.keys ∧
        ∃ removed, ["3", "1 2 +"] = removed ++ t.cache.keys ∧ removed.length = 1) ∧
      ((parse "1 2 +").runOn (below.after [.parse "3"])).1 = .error (.fault .emptyCache) := by
  let one := Engine.integers 1
  let below := Engine.integers (-1)
  let x : Expression := ⟨[.operand (.word .int64 1) "1", .operand (.word .int64 2) "2",
    .operator (.integer (.binary .add))], 2, .numeric .int64, .integer, .name⟩
  have created := Engine.create_integers_sized 1 (by decide)
  have created' := Engine.create_integers_sized (-1) (by decide)
  have valid : one.build "1 2 +" = .ok x := by with_unfolding_all rfl
  have valid' : below.build "1 2 +" = .ok x := by with_unfolding_all rfl
  have unused : normalKey "1 2 +" ∉ (one.after [.parse "3"]).cache.keys := by decide +kernel
  obtain ⟨_, _, _, returns, _, turns⟩ := parse_evicts_oldest rfl created [.parse "3"] valid
  obtain ⟨_, _, _, _, fails, _⟩ := parse_evicts_oldest rfl created' [.parse "3"] valid'
  obtain ⟨_, removed, parted, counted⟩ := turns unused
  refine ⟨one, below, x, created, created', valid, valid', ⟨returns (by decide), unused,
    removed.map Entry.key, ?_, ?_⟩, fails (by decide)⟩
  · rw [Cache.keys, ← List.map_append, ← parted]
    decide +kernel
  · rw [List.length_map, counted]
    decide +kernel

end Postfix.Formula
