import Postfix.Proofs.CanonicalText
import Postfix.Proofs.References
import Postfix.Proofs.Binary.Closed

/-! The values that an evaluation over a numeric type works with.
A machine value is kept as the number it denotes, so nothing but the operations confines it to its
type. They do: literals, values taken in and results are in the range of the word, or in the format,
whatever the family, if the machine values that a container holds are. -/
namespace Postfix

def NumericType.Member : NumericType → Value → Prop
  | .word t, .word u n => t = u ∧ t.holds n
  | .float f, .float g x => f = g ∧ x.Canonical f
  | _, _ => False

def Value.IsWellFormed : Value → Prop
  | .word t n => t.holds n
  | .float f x => x.Canonical f
  | _ => True

namespace NumericType

variable {t : NumericType}

theorem Member.owns {v : Value} (member : t.Member v) : t.owns v := by
  cases t <;> cases v <;> first | exact member.elim | skip
  · simpa [NumericType.owns] using member.1
  · simpa [NumericType.owns] using member.1

theorem member_word {w : WordType} {v : Value} :
    Member (.word w) v ↔ ∃ n, v = .word w n ∧ w.holds n := by
  constructor
  · intro member
    obtain ⟨n, rfl⟩ := owns_word member.owns
    exact ⟨n, rfl, member.2⟩
  · rintro ⟨n, rfl, inside⟩
    exact ⟨rfl, inside⟩

theorem member_float {f : Format} {v : Value} :
    Member (.float f) v ↔ ∃ x, v = .float f x ∧ x.Canonical f := by
  constructor
  · intro member
    obtain ⟨x, rfl⟩ := owns_float member.owns
    exact ⟨x, rfl, member.2⟩
  · rintro ⟨x, rfl, canonical⟩
    exact ⟨rfl, canonical⟩

theorem member_of_owns {v : Value} (owned : t.owns v) (formed : v.IsWellFormed) : t.Member v := by
  cases t with
  | word w =>
    obtain ⟨n, rfl⟩ := owns_word owned
    exact ⟨rfl, formed⟩
  | float f =>
    obtain ⟨x, rfl⟩ := owns_float owned
    exact ⟨rfl, formed⟩

theorem member_of_read {raw : String} {v : Value} (read : t.read raw = .ok v) : t.Member v := by
  cases t with
  | word w => exact member_word.mpr (readWord_eq_ok read)
  | float f =>
    obtain ⟨x, canonical, rfl⟩ := canonical_of_readFloat read
    exact ⟨rfl, canonical⟩

theorem member_of_coerceFloat {f : Format} {v x : Value} (taken : coerceFloat f v = .ok x) :
    Member (.float f) x := by
  unfold coerceFloat at taken
  split at taken
  · obtain ⟨y, _, taken⟩ := Except.bind_eq_ok.mp taken
    cases taken
    exact ⟨rfl, f.canonical_ofBinary y⟩
  · obtain ⟨y, _, taken⟩ := Except.bind_eq_ok.mp taken
    cases taken
    exact ⟨rfl, f.canonical_ofBinary y⟩
  · cases taken; exact ⟨rfl, f.canonical_ofBinary _⟩
  · cases taken; exact ⟨rfl, f.canonical_ofBinary _⟩
  · cases taken; exact ⟨rfl, f.canonical_ofInt _⟩
  · cases taken

/-- Only a value that is of the type already is taken in as it is. -/
theorem member_of_coerce {v x : Value} (formed : v.IsWellFormed) (taken : t.coerce v = .ok x) :
    t.Member x := by
  unfold coerce at taken
  split at taken
  · rename_i owned
    cases taken
    exact member_of_owns owned formed
  · split at taken
    · cases taken
    · cases taken
    · exact member_of_read taken
    · exact member_of_read taken
    · rw [Except.mapError_eq_ok] at taken
      cases t with
      | word w =>
        obtain ⟨n, inside, _⟩ := coerceWord_eq_ok taken
        exact member_word.mpr ⟨n, inside⟩
      | float f => exact member_of_coerceFloat taken

theorem member_ofNat (t : NumericType) {n : Nat} (small : n ≤ 1) : t.Member (t.dtype.ofNat n) := by
  cases t with
  | word w =>
    refine ⟨rfl, ?_⟩
    obtain ⟨s, b⟩ := w
    obtain rfl | rfl : n = 0 ∨ n = 1 := by omega
    · cases s <;> cases b <;> decide
    · cases s <;> cases b <;> decide
  | float f => exact ⟨rfl, f.canonical_ofInt _⟩

theorem member_of_counted {n : Nat} {v : Value} (counted : t.dtype.counted n = .ok v) :
    t.Member v := by
  cases t with
  | word w =>
    simp only [dtype, DType.counted] at counted
    split at counted
    · rename_i inside
      cases counted
      exact ⟨rfl, inside⟩
    · cases counted
  | float f =>
    cases counted
    exact ⟨rfl, f.canonical_ofInt _⟩

end NumericType

/-! ### Operators -/

def NumericType.Members (t : NumericType) (vs : List Value) : Prop := ∀ v ∈ vs, t.Member v

section

variable {t : NumericType}

theorem NumericType.members_cons {v : Value} {vs : List Value} :
    t.Members (v :: vs) ↔ t.Member v ∧ t.Members vs := List.forall_mem_cons

theorem FloatOp.onList_members {f : Format} {op : FloatOp} {stack vs : List Value}
    (members : (NumericType.float f).Members stack)
    (ran : op.onList (some (.float f)) stack = .ok vs) : (NumericType.float f).Members vs := by
  unfold onList at ran
  split at ran
  case h_1 op right left below =>
    obtain ⟨hright, rest⟩ := NumericType.members_cons.mp members
    obtain ⟨hleft, below⟩ := NumericType.members_cons.mp rest
    obtain ⟨y, rfl, _⟩ := NumericType.member_float.mp hright
    obtain ⟨x, rfl, canonical⟩ := NumericType.member_float.mp hleft
    rw [FloatBinary.combine_float] at ran
    cases ran
    exact NumericType.members_cons.mpr ⟨⟨rfl, op.canonical_eval canonical y⟩, below⟩
  case h_2 op v below =>
    obtain ⟨hv, below⟩ := NumericType.members_cons.mp members
    obtain ⟨x, rfl, canonical⟩ := NumericType.member_float.mp hv
    cases ran
    exact NumericType.members_cons.mpr ⟨⟨rfl, op.canonical_eval canonical⟩, below⟩
  case h_3 right left below =>
    obtain ⟨hright, rest⟩ := NumericType.members_cons.mp members
    obtain ⟨hleft, below⟩ := NumericType.members_cons.mp rest
    cases ran
    exact NumericType.members_cons.mpr ⟨hleft, NumericType.members_cons.mpr ⟨hright, below⟩⟩
  case h_4 =>
    cases ran
    exact NumericType.members_cons.mpr ⟨(NumericType.float f).member_ofNat (by decide), members⟩
  case h_5 =>
    cases ran
    exact NumericType.members_cons.mpr ⟨(NumericType.float f).member_ofNat (by decide), members⟩
  case h_6 => cases ran

theorem IntegerOp.members_checked {w : WordType} {result : Int} {fault : ArithmeticFault}
    (sample : Int) {operands : List Int} {below vs : List Value}
    (members : (NumericType.word w).Members below)
    (ran : (checked (some (.word w)) result fault sample operands).map (· :: below) = .ok vs) :
    (NumericType.word w).Members vs := by
  rw [checked_word] at ran
  split at ran
  · rename_i inside
    cases ran
    exact NumericType.members_cons.mpr ⟨⟨rfl, inside⟩, members⟩
  · cases ran

theorem IntegerOp.onList_members {w : WordType} {op : IntegerOp} {stack vs : List Value}
    (members : (NumericType.word w).Members stack)
    (ran : op.onList (some (.word w)) stack = .ok vs) : (NumericType.word w).Members vs := by
  unfold onList at ran
  split at ran
  case h_1 op right left below =>
    obtain ⟨hright, rest⟩ := NumericType.members_cons.mp members
    obtain ⟨hleft, below⟩ := NumericType.members_cons.mp rest
    obtain ⟨r, rfl, _⟩ := NumericType.member_word.mp hright
    obtain ⟨l, rfl, _⟩ := NumericType.member_word.mp hleft
    rw [combine_word, combineInts] at ran
    split at ran
    · cases ran
    · exact members_checked l below ran
  case h_2 v below =>
    obtain ⟨hv, below⟩ := NumericType.members_cons.mp members
    obtain ⟨n, rfl, _⟩ := NumericType.member_word.mp hv
    exact members_checked n below ran
  case h_3 right left below =>
    obtain ⟨hright, rest⟩ := NumericType.members_cons.mp members
    obtain ⟨hleft, below⟩ := NumericType.members_cons.mp rest
    cases ran
    exact NumericType.members_cons.mpr ⟨hleft, NumericType.members_cons.mpr ⟨hright, below⟩⟩
  case h_4 =>
    cases ran
    exact NumericType.members_cons.mpr ⟨(NumericType.word w).member_ofNat (by decide), members⟩
  case h_5 =>
    cases ran
    exact NumericType.members_cons.mpr ⟨(NumericType.word w).member_ofNat (by decide), members⟩
  case h_6 => cases ran

theorem OneTwoOp.onList_members {op : OneTwoOp} {stack vs : List Value} (members : t.Members stack)
    (ran : op.onList stack = .ok vs) : t.Members vs := by
  unfold onList at ran
  split at ran
  case h_1 right left below =>
    have owned := (NumericType.members_cons.mp members).1
    have none : digits? left right = none := by
      cases right with
      | oneTwo d => cases t <;> exact owned.elim
      | _ => cases left <;> rfl
    unfold combine at ran
    cases op <;> simp only [none] at ran <;> cases ran
  case h_2 => cases ran

theorem TableOp.withOutputs_members {taken stack vs : List Value} {is : List Nat}
    (fromTaken : t.Members taken) (members : t.Members stack)
    (ran : withOutputs (some t.dtype) taken is stack = .ok vs) : t.Members vs := by
  induction is generalizing stack with
  | nil => cases ran; exact members
  | cons i rest ih =>
    rw [withOutputs] at ran
    split at ran
    · cases ran
    · rename_i v given
      refine ih (NumericType.members_cons.mpr ⟨?_, members⟩) ran
      unfold output at given
      split at given
      · rename_i u found
        cases given
        exact fromTaken _ (List.mem_of_getElem? found)
      · exact NumericType.member_of_counted given

theorem TableOp.onList_members {op : TableOp} {stack vs : List Value} (members : t.Members stack)
    (ran : op.onList (some t.dtype) stack = .ok vs) : t.Members vs := by
  unfold onList at ran
  split at ran
  · cases ran
  · exact withOutputs_members (fun v hv => members v (List.mem_of_mem_take hv))
      (fun v hv => members v (List.mem_of_mem_drop hv)) ran

theorem Operator.onList_members {family : Family} (works : family.accepts (.numeric t))
    {op : Operator} (member : op ∈ family.operators) {stack vs : List Value}
    (members : t.Members stack) (ran : op.onList (some t.dtype) stack = .ok vs) : t.Members vs := by
  cases family with
  | undefined => cases member
  | float =>
    obtain ⟨f, rfl⟩ := Family.accepts_float works
    obtain ⟨op, _, rfl⟩ := List.mem_map.mp member
    exact FloatOp.onList_members members ran
  | integer =>
    obtain ⟨w, rfl⟩ := Family.accepts_integer works
    obtain ⟨op, _, rfl⟩ := List.mem_map.mp member
    exact IntegerOp.onList_members members ran
  | oneTwo =>
    obtain ⟨op, _, rfl⟩ := List.mem_map.mp member
    exact OneTwoOp.onList_members members ran
  | table rows =>
    obtain ⟨op, _, rfl⟩ := List.mem_map.mp member
    exact TableOp.onList_members members ran

end

/-! ### Evaluations -/

namespace Expression

variable {family : Family} {t : NumericType} {vars : VariableKind} {c : Container}

theorem runList_members (works : family.accepts (.numeric t)) {ts : List Token}
    (classified : ∀ tok ∈ ts, ∃ raw, classify family vars (.numeric t) raw = .ok tok)
    (formed : ∀ v, .reference v ∈ ts → ∀ value, c.lookup v.key = .ok (some value) →
      value.IsWellFormed)
    {stack vs : List Value} (members : t.Members stack)
    (ran : runList (.numeric t) c ts stack = .ok vs) : t.Members vs := by
  induction ts generalizing stack with
  | nil => cases ran; exact members
  | cons tok ts ih =>
    rw [runList] at ran
    cases first : onList (.numeric t) c tok stack with
    | error f => rw [first] at ran; cases ran
    | ok us =>
      rw [first] at ran
      refine ih (fun s hs => classified s (List.mem_cons_of_mem tok hs))
        (fun v hv => formed v (List.mem_cons_of_mem tok hv)) ?_ ran
      obtain ⟨raw, read⟩ := classified tok List.mem_cons_self
      rcases classify_eq_ok read with ⟨op, rfl, symbol⟩ | ⟨v, rfl, _⟩ | ⟨value, rfl, literal⟩
      · exact op.onList_members works (Family.mem_of_read symbol).1 members first
      · rw [onList] at first
        cases found : resolve (.numeric t) c v with
        | error f => rw [found] at first; cases first
        | ok x =>
          rw [found] at first
          cases first
          obtain ⟨value, held, taken⟩ := resolve_eq_ok found
          have inType := NumericType.member_of_coerce (formed v List.mem_cons_self value held) taken
          exact NumericType.members_cons.mpr ⟨inType, members⟩
      · cases first
        exact NumericType.members_cons.mpr ⟨NumericType.member_of_read literal, members⟩

theorem evaluate_member {raw : List String} {e : Expression}
    (built : ofTokens raw family (.numeric t) vars = .ok e)
    (formed : ∀ v ∈ e.references, ∀ value, c.lookup v.key = .ok (some value) → value.IsWellFormed)
    {x : Value} (evaluated : e.evaluate c = .ok x) : t.Member x := by
  obtain ⟨works, _, _, kind, _⟩ := ofTokens_eq_ok.mp built
  rw [evaluate_eq_runList, kind] at evaluated
  cases ran : runList (.numeric t) c e.tokens [] with
  | error f => rw [ran] at evaluated; cases evaluated
  | ok vs =>
    have members := runList_members works (fun _ => exists_classified built)
      (fun v occurs => formed v (mem_references occurs)) (List.forall_mem_nil _) ran
    rw [ran] at evaluated
    cases vs with
    | nil => cases evaluated
    | cons v vs =>
      cases evaluated
      exact (NumericType.members_cons.mp members).1

end Expression
end Postfix
