import Postfix.Value.Text

/-! The names that an element type is known by. Each has a name of its own, longer other names, and
names of one or two characters that may have a byte order in front. -/
namespace Postfix.DType

def all : List DType :=
  [.flag, .object, .float .half, .float .single, .float .double] ++
    [true, false].flatMap fun signed =>
      [Width.w8, Width.w16, Width.w32, Width.w64].map fun width => .word ⟨signed, width⟩

def aliases : DType → List String × List String
  | .flag => (["bool_"], ["?", "b1"])
  | .object => (["object_"], ["O"])
  | .float .half => (["half"], ["f2", "e"])
  | .float .single => (["single"], ["f4", "f"])
  | .float .double => (["float", "double"], ["f8", "d"])
  | .word ⟨true, .w8⟩ => (["byte"], ["i1", "b"])
  | .word ⟨true, .w16⟩ => (["short"], ["i2", "h"])
  | .word ⟨true, .w32⟩ => (["intc"], ["i4", "i"])
  | .word ⟨true, .w64⟩ =>
    (["int", "int_", "intp", "long", "longlong"], ["i8", "l", "q", "p", "n"])
  | .word ⟨false, .w8⟩ => (["ubyte"], ["u1", "B"])
  | .word ⟨false, .w16⟩ => (["ushort"], ["u2", "H"])
  | .word ⟨false, .w32⟩ => (["uintc"], ["u4", "I"])
  | .word ⟨false, .w64⟩ =>
    (["uint", "uintp", "ulong", "ulonglong"], ["u8", "L", "Q", "P", "N"])

def isUnordered : DType → Bool
  | .flag => true
  | .object => true
  | .word t => t.width = .w8
  | .float _ => false

def isNamed (t : DType) (name : String) : Bool :=
  let (long, short) := t.aliases
  let orders := ["", "<", "=", "|"] ++ (if t.isUnordered then [">"] else [])
  name = t.name || long.contains name || short.any fun s => orders.any fun o => o ++ s = name

def named? (name : String) : Option DType := all.find? (·.isNamed name)

end Postfix.DType
