import Postfix.Expression

/-! A cache of built expressions that forgets what has been unused for longest. Entries stand in
the order of their last use, the oldest first, and no key stands twice. -/
namespace Postfix.Formula

/-- A built expression under its key; the serial number tells apart what was built apart. -/
structure Entry where
  key : String
  expression : Expression
  serial : Nat

structure Cache where
  entries : List Entry
  hits : Nat
  misses : Nat
  limit : Int

namespace Cache

def empty (limit : Int) : Cache := ⟨[], 0, 0, limit⟩

def keys (c : Cache) : List String := c.entries.map Entry.key

def find? (c : Cache) (key : String) : Option Entry := c.entries.find? (·.key = key)

def touch (c : Cache) (e : Entry) : Cache :=
  { c with entries := c.entries.filter (·.key ≠ e.key) ++ [e], hits := c.hits + 1 }

def miss (c : Cache) : Cache := { c with misses := c.misses + 1 }

/-- Forgets the oldest entries until no more than the limit are left. No number of entries is
within a negative limit, so then the oldest entry is asked for once too often. -/
def evict (c : Cache) : Except Fault Unit × Cache :=
  if c.limit < 0 then (.error .emptyCache, { c with entries := [] })
  else (.ok (), { c with entries := c.entries.drop (c.entries.length - c.limit.toNat) })

theorem evict_fst (c : Cache) :
    c.evict.1 = if 0 ≤ c.limit then .ok () else .error .emptyCache := by
  rw [evict]
  by_cases negative : c.limit < 0
  · rw [if_pos negative, if_neg (Int.not_le.mpr negative)]
  · rw [if_neg negative, if_pos (Int.not_lt.mp negative)]

theorem evict_snd (c : Cache) :
    c.evict.2 = { c with entries := c.entries.drop (c.entries.length - c.limit.toNat) } := by
  rw [evict]
  split
  case isTrue negative =>
    have none : c.limit.toNat = 0 := by omega
    simp [none]
  case isFalse => rfl

def insert (c : Cache) (e : Entry) : Cache := { c with entries := c.entries ++ [e] }

def clear (c : Cache) : Cache := { c with entries := [], hits := 0, misses := 0 }

end Cache
end Postfix.Formula
