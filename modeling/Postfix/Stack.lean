import Postfix.Failure

/-! A stack in a buffer of slots that is allocated ahead. Slots in use come first; pushing onto a
full buffer adds one slot. -/
namespace Postfix

structure Stack (α : Type) where
  slots : Array (Option α)
  size : Nat

namespace Stack

variable {α : Type}

def withCapacity (capacity : Nat) : Stack α := ⟨Array.replicate capacity none, 0⟩

/-- A capacity that is asked for may be negative, and then no slot is allocated. -/
def allocate (capacity : Int) : Stack α := withCapacity capacity.toNat

def capacity (s : Stack α) : Nat := s.slots.size

def isEmpty (s : Stack α) : Bool := s.size = 0

def toList (s : Stack α) : List α := (s.slots.toList.take s.size).filterMap id

def push (s : Stack α) (v : α) : Stack α :=
  if s.size < s.slots.size then ⟨s.slots.setIfInBounds s.size (some v), s.size + 1⟩
  else ⟨s.slots.push (some v), s.size + 1⟩

def top? (s : Stack α) : Option α := if s.size = 0 then none else s.slots[s.size - 1]?.join

def drop (s : Stack α) : Stack α := ⟨s.slots.setIfInBounds (s.size - 1) none, s.size - 1⟩

def pop (s : Stack α) : Except Underflow α × Stack α :=
  match s.top? with
  | some v => (.ok v, s.drop)
  | none => (.error .pop, s)

def peek (s : Stack α) : Except Underflow α :=
  match s.top? with
  | some v => .ok v
  | none => .error .peek

/-- Two values, the one that was pushed first on the left. A missing second value is reported
after the first has gone. -/
def popTwo (s : Stack α) : Except Underflow (α × α) × Stack α :=
  match s.pop with
  | (.error e, s) => (.error e, s)
  | (.ok right, s) => match s.pop with
    | (.error e, s) => (.error e, s)
    | (.ok left, s) => (.ok (left, right), s)

end Stack

def Stack.shown (s : Stack Value) : String :=
  "Stack(" ++ (Value.list s.toList).shown ++ ", capacity=" ++ Text.natText s.capacity ++ ")"

end Postfix
