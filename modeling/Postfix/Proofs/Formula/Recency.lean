import Postfix.Proofs.Prelude
import Postfix.Proofs.Formula.Transparency

/-! What is in the cache, and what it has counted.
Both are told from the formulas that were parsed since the last clearing, in order: the cache holds
the keys that were used last, and a parse is a hit if its key is among those at its time. What
carries this is how the last distinct keys change when one more key is used. -/
namespace Postfix.Formula

/-! ### The last distinct keys -/

/-- The last `n` different keys, each at the place of its last use. -/
def recent (n : Nat) (keys : List String) : List String := keys.dedup.rtake n

theorem recent_nil (n : Nat) : recent n [] = [] := List.rtake_nil n

theorem recent_concat (m : Nat) (keys : List String) (key : String) :
    recent (m + 1) (keys ++ [key]) = ((recent (m + 1) keys).filter (· ≠ key)).rtake m ++ [key] := by
  rw [recent, List.dedup_concat, List.rtake_concat_succ,
    List.rtake_filter_ne (List.nodup_dedup keys), recent]

theorem length_recent_le (n : Nat) (keys : List String) : (recent n keys).length ≤ n := by
  rw [recent, List.rtake, List.length_drop]
  omega

theorem recent_concat_of_mem {m : Nat} {keys : List String} {key : String}
    (used : key ∈ recent (m + 1) keys) :
    recent (m + 1) (keys ++ [key]) = (recent (m + 1) keys).filter (· ≠ key) ++ [key] := by
  have fewer : ((recent (m + 1) keys).filter (· ≠ key)).length < (recent (m + 1) keys).length :=
    List.length_filter_lt_length_iff_exists.mpr ⟨key, used, by simp⟩
  have bound := length_recent_le (m + 1) keys
  have all : ((recent (m + 1) keys).filter (· ≠ key)).length - m = 0 := by omega
  rw [recent_concat, List.rtake, all, List.drop_zero]

theorem recent_concat_of_notMem {m : Nat} {keys : List String} {key : String}
    (unused : key ∉ recent (m + 1) keys) :
    recent (m + 1) (keys ++ [key]) = (recent (m + 1) keys ++ [key]).rtake (m + 1) := by
  have kept : (recent (m + 1) keys).filter (· ≠ key) = recent (m + 1) keys :=
    List.filter_eq_self.mpr fun other member =>
      decide_eq_true fun same : other = key => unused (same ▸ member)
  rw [recent_concat, kept, List.rtake_concat_succ]

/-! ### What is used and what is hit -/

def Engine.parsedKeys (s : Engine) (formulas : List String) : List String :=
  (formulas.filter fun formula => (s.build formula).isOk).map normalKey

def Engine.hitsAfter (s : Engine) (n : Nat) (before : List String) : List String → Nat
  | [] => 0
  | formula :: rest =>
    (if normalKey formula ∈ recent n (s.parsedKeys before) then 1 else 0) +
      s.hitsAfter n (before ++ [formula]) rest

namespace Engine

variable (s : Engine) (n : Nat) (before formulas : List String) (formula : String)

theorem parsedKeys_concat :
    s.parsedKeys (formulas ++ [formula]) =
      s.parsedKeys formulas ++ if (s.build formula).isOk then [normalKey formula] else [] := by
  rw [parsedKeys, List.filter_append, List.map_append, List.filter_cons]
  split <;> rfl

theorem hitsAfter_concat :
    s.hitsAfter n before (formulas ++ [formula]) = s.hitsAfter n before formulas +
      if normalKey formula ∈ recent n (s.parsedKeys (before ++ formulas)) then 1 else 0 := by
  induction formulas generalizing before with
  | nil => simp [hitsAfter]
  | cons first rest ih =>
    rw [List.cons_append, hitsAfter, ih, hitsAfter, Nat.add_assoc, List.append_assoc]
    rfl

end Engine

/-! ### One access -/

section

variable {start t : Engine} {m : Nat} {accesses : List String}

namespace Cache

variable (c : Cache) (e : Entry)

theorem notMem_keys_of_find?_eq_none {c : Cache} {key : String} (absent : c.find? key = none) :
    key ∉ c.keys := by
  intro used
  obtain ⟨e, member, same⟩ := List.mem_map.mp used
  exact key_ne_of_find?_eq_none absent member same

theorem keys_touch : (c.touch e).keys = c.keys.filter (· ≠ e.key) ++ [e.key] := by
  simp [touch, keys, List.filter_map, Function.comp_def]

theorem keys_keep (limit : 0 ≤ c.limit) :
    (c.keep e).keys = (c.keys ++ [e.key]).rtake c.limit.toNat := by
  rw [keys, keep_eq limit, List.map_drop, List.map_append, List.rtake, keys]
  simp

end Cache

namespace Serves

/-- What is in the cache is given again, the very entry. -/
theorem parse_used (serves : Serves start t) (limit : 0 ≤ start.cache.limit) {e : Entry}
    (member : e ∈ t.cache.entries) {formula : String} (key : e.key = normalKey formula) :
    (Formula.parse formula).runOn t = (.ok e, { t with cache := t.cache.touch e }) := by
  rcases parse_cases t formula (serves.limit limit) with
    ⟨d, found, ran⟩ | ⟨absent, _⟩ | ⟨absent, _⟩
  case inl =>
    obtain ⟨member', key'⟩ := Cache.find?_eq_some found
    rw [ran, serves.single d member' e member (key'.trans key.symm)]
  all_goals exact absurd key (Cache.key_ne_of_find?_eq_none absent member)

theorem parse_unused (serves : Serves start t) (limit : 0 ≤ start.cache.limit)
    {formula : String} (unused : normalKey formula ∉ t.cache.keys) :
    ((Formula.parse formula).runOn t).2.cache.hits = t.cache.hits ∧
      ((Formula.parse formula).runOn t).2.cache.misses = t.cache.misses + 1 := by
  rcases parse_cases t formula (serves.limit limit) with
    ⟨e, found, ran⟩ | ⟨_, _, _, ran⟩ | ⟨_, _, _, ran⟩
  case inl =>
    obtain ⟨member, key⟩ := Cache.find?_eq_some found
    exact absurd (key ▸ List.mem_map_of_mem member) unused
  case inr.inl =>
    rw [ran]
    exact ⟨rfl, rfl⟩
  case inr.inr =>
    rw [ran, Cache.keep_eq (c := t.cache.miss) (serves.limit limit)]
    exact ⟨rfl, rfl⟩

theorem parse_refused (serves : Serves start t) (limit : 0 ≤ start.cache.limit)
    {formula : String} {f : Failure} (refused : ((Formula.parse formula).runOn t).1 = .error f) :
    ((Formula.parse formula).runOn t).2.cache.entries = t.cache.entries := by
  rcases parse_cases t formula (serves.limit limit) with
    ⟨_, _, ran⟩ | ⟨_, _, _, ran⟩ | ⟨_, _, _, ran⟩ <;> rw [ran] at refused ⊢
  case inl => cases refused
  case inr.inl => rfl
  case inr.inr => cases refused

theorem parse_counts (serves : Serves start t) (limit : 0 ≤ start.cache.limit)
    (formula : String) :
    let u := ((Formula.parse formula).runOn t).2
    (u.cache.hits = t.cache.hits + if normalKey formula ∈ t.cache.keys then 1 else 0) ∧
      u.cache.hits + u.cache.misses = t.cache.hits + t.cache.misses + 1 := by
  by_cases used : normalKey formula ∈ t.cache.keys
  · obtain ⟨e, member, key⟩ := List.mem_map.mp used
    rw [serves.parse_used limit member key, if_pos used]
    exact ⟨rfl, Nat.add_right_comm ..⟩
  · obtain ⟨hits, misses⟩ := serves.parse_unused limit used
    rw [if_neg used]
    exact ⟨hits, by rw [hits, misses, Nat.add_assoc]⟩

end Serves

/-! ### The invariant -/

/-- The engine `t`, created as `start`, with the cache that these parses leave in it. -/
structure Tracks (start : Engine) (n : Nat) (accesses : List String) (t : Engine) : Prop where
  serves : Serves start t
  keys : t.cache.keys = recent n (start.parsedKeys accesses)
  hits : t.cache.hits = start.hitsAfter n [] accesses
  total : t.cache.hits + t.cache.misses = accesses.length

namespace Tracks

theorem logged (tracks : Tracks start m accesses t) (log : List (Level × String)) :
    Tracks start m accesses (t.logged log) :=
  ⟨tracks.serves.logged log, tracks.keys, tracks.hits, tracks.total⟩

theorem keys_parse (tracks : Tracks start (m + 1) accesses t)
    (limit : start.cache.limit = (m + 1 : Nat)) (formula : String) :
    ((Formula.parse formula).runOn t).2.cache.keys =
      recent (m + 1) (start.parsedKeys (accesses ++ [formula])) := by
  have room : 0 ≤ t.cache.limit := tracks.serves.limit (by omega)
  have parsed := start.parsedKeys_concat accesses formula
  rw [← tracks.serves.alike.build] at parsed
  rcases parse_cases t formula room with
    ⟨e, found, ran⟩ | ⟨absent, f, refused, ran⟩ | ⟨absent, x, made, ran⟩
  case inl =>
    obtain ⟨member, key⟩ := Cache.find?_eq_some found
    have used : normalKey formula ∈ t.cache.keys := key ▸ List.mem_map_of_mem member
    have made : (t.build formula).isOk = true := by
      rw [tracks.serves.alike.build, ← start.build_normalKey, ← key, tracks.serves.built e member]
      rfl
    rw [if_pos made] at parsed
    rw [ran, parsed, recent_concat_of_mem (tracks.keys ▸ used), ← tracks.keys, ← key]
    exact Cache.keys_touch t.cache e
  case inr.inl =>
    rw [refused, if_neg (by exact nofun), List.append_nil] at parsed
    rw [ran, parsed]
    exact tracks.keys
  case inr.inr =>
    have unused := Cache.notMem_keys_of_find?_eq_none absent
    have capacity : t.cache.limit.toNat = m + 1 := by rw [tracks.serves.alike.limit, limit]; rfl
    rw [made, if_pos (by rfl)] at parsed
    rw [ran, parsed, recent_concat_of_notMem (tracks.keys ▸ unused), ← tracks.keys, ← capacity]
    exact Cache.keys_keep t.cache.miss _ room

theorem parse (tracks : Tracks start (m + 1) accesses t)
    (limit : start.cache.limit = (m + 1 : Nat)) (formula : String) :
    Tracks start (m + 1) (accesses ++ [formula]) ((Formula.parse formula).runOn t).2 := by
  have room : 0 ≤ start.cache.limit := by omega
  obtain ⟨hits, total⟩ := tracks.serves.parse_counts room formula
  refine ⟨(tracks.serves.parse room formula).1, tracks.keys_parse limit formula, ?_, ?_⟩
  · rw [hits, start.hitsAfter_concat, List.nil_append, ← tracks.keys, ← tracks.hits]
  · rw [total, tracks.total, List.length_append]
    rfl

theorem afterParses (tracks : Tracks start (m + 1) accesses t)
    (limit : start.cache.limit = (m + 1 : Nat)) (formulas : List String) :
    Tracks start (m + 1) (accesses ++ formulas) (t.afterParses formulas) := by
  induction formulas generalizing accesses t with
  | nil => exact (List.append_nil accesses).symm ▸ tracks
  | cons formula rest ih =>
    have next := ih (tracks.parse limit formula)
    rwa [List.append_assoc] at next

theorem call (tracks : Tracks start (m + 1) accesses t)
    (limit : start.cache.limit = (m + 1 : Nat)) (call : Call) :
    Tracks start (m + 1) (call.parsedAfter start accesses) (call.after t) := by
  by_cases kept : call = .clear
  · subst kept
    have serves := tracks.serves.cleared
    obtain ⟨log, cleared⟩ := Call.clear_after t
    rw [cleared] at serves ⊢
    exact ⟨serves, (recent_nil _).symm, rfl, rfl⟩
  · obtain ⟨log, parses⟩ := tracks.serves.after_eq (by omega) kept
    rw [Call.parsedAfter_of_ne_clear start accesses kept, parses]
    exact (tracks.afterParses limit _).logged log

theorem history (tracks : Tracks start (m + 1) accesses t)
    (limit : start.cache.limit = (m + 1 : Nat)) (history : List Call) :
    Tracks start (m + 1) (history.foldl (Call.parsedAfter start) accesses) (t.after history) := by
  induction history generalizing accesses t with
  | nil => exact tracks
  | cons call rest ih => exact ih (tracks.call limit call)

theorem fresh {settings : Settings} {options : Options}
    (created : Engine.create settings options = .ok start) : Tracks start (m + 1) [] start := by
  have counted := Engine.create_cache created
  refine ⟨.fresh created, ?_, ?_, ?_⟩ <;> rw [counted]
  · exact (recent_nil _).symm
  · rfl
  · rfl

end Tracks

end

/-! ### Every engine -/

/-- The cache holds the keys that were used last by the formulas parsed since it was cleared, and it
has counted a hit for each that was there at its time and a miss for each of the others. A call
is to the cache the parses that it makes. A parse gives the entry that is there; one that fails
changes no entry. -/
theorem cache_recency {settings : Settings} {options : Options} {start : Engine} {n : Nat}
    (created : Engine.create settings options = .ok start) (limit : start.cache.limit = n)
    (positive : 0 < n) (history : List Call) :
    let s := start.after history
    let accesses := start.parsed history
    s.cache.keys = recent n (start.parsedKeys accesses) ∧ s.cache.entries.length ≤ n ∧
      s.cache.hits = start.hitsAfter n [] accesses ∧
      s.cache.hits + s.cache.misses = accesses.length ∧
      (∀ call : Call, call ≠ .clear →
        (call.after s).cache = (s.afterParses (call.formulas start)).cache) ∧
      ∀ formula, ∃ outcome t, (parse formula).runOn s = (outcome, t) ∧
        outcome.isOk = (start.build formula).isOk ∧
        (∀ data, ((evaluateFrame (.text formula) data).runOn s).1.isOk =
          start.completes formula data) ∧
        (∀ e ∈ s.cache.entries, e.key = normalKey formula →
          outcome = .ok e ∧ t.cache.hits = s.cache.hits + 1 ∧ t.cache.misses = s.cache.misses) ∧
        (normalKey formula ∉ s.cache.keys →
          t.cache.hits = s.cache.hits ∧ t.cache.misses = s.cache.misses + 1) ∧
        ∀ f, outcome = .error f → t.cache.entries = s.cache.entries := by
  obtain ⟨m, rfl⟩ := Nat.exists_eq_succ_of_ne_zero (Nat.ne_of_gt positive)
  have room : 0 ≤ start.cache.limit := by omega
  intro s accesses
  have tracks : Tracks start (m + 1) accesses s := (Tracks.fresh created).history limit history
  refine ⟨tracks.keys, ?size, tracks.hits, tracks.total, ?calls, ?parses⟩
  case size =>
    have bound := length_recent_le (m + 1) (start.parsedKeys accesses)
    rwa [← tracks.keys, Cache.keys, List.length_map] at bound
  case calls =>
    intro call kept
    obtain ⟨log, parses⟩ := tracks.serves.after_eq room kept
    rw [parses]
    rfl
  case parses =>
    intro formula
    have right := (tracks.serves.parse room formula).2
    refine ⟨((parse formula).runOn s).1, ((parse formula).runOn s).2, rfl, ?_,
      fun data => (tracks.serves.evaluateFrame room formula data).2, fun e member key => ?_,
      tracks.serves.parse_unused room, fun _ => tracks.serves.parse_refused room⟩
    · rw [← right]
      cases ((parse formula).runOn s).1 <;> rfl
    · rw [tracks.serves.parse_used room member key]
      exact ⟨rfl, rfl, rfl⟩

theorem cache_recency_with_two_entries :
    ∃ start, Engine.create {} { family := some (.named "int"), cacheSize := some 2 } = .ok start ∧
      start.cache.limit = (2 : Nat) ∧ 0 < 2 ∧
      let s := start.after
        [.parse "0", .clear, .parse "1", .parse " 1 ", .evaluate (.text "2 0 /") .empty,
          .parse "1 +", .evaluateFrame (.text "3") (.other "int")]
      s.cache.keys = ["2 0 /", "3"] ∧ s.cache.hits = 1 ∧ s.cache.hits + s.cache.misses = 5 := by
  have created := Engine.create_integers_sized 2 (by decide)
  refine ⟨_, created, rfl, by decide, ?_⟩
  obtain ⟨keys, -, hits, total, -⟩ := cache_recency created rfl (by decide)
    [.parse "0", .clear, .parse "1", .parse " 1 ", .evaluate (.text "2 0 /") .empty,
      .parse "1 +", .evaluateFrame (.text "3") (.other "int")]
  exact ⟨keys.trans (by decide +kernel), hits.trans (by decide +kernel), total.trans rfl⟩

end Postfix.Formula
