/-! Blank characters and the split of a text into words.
The set is the one of all Unicode white space together with the four information separators
U+001C to U+001F; the zero-width space is not in it. -/
namespace Postfix.Text

def isBlank (c : Char) : Bool :=
  let n := c.toNat
  (9 ≤ n && n ≤ 13) || (28 ≤ n && n ≤ 32) || n == 0x85 || n == 0xA0 || n == 0x1680 ||
    (0x2000 ≤ n && n ≤ 0x200A) || n == 0x2028 || n == 0x2029 || n == 0x202F || n == 0x205F ||
    n == 0x3000

/-- The word read so far, last character first, is finished by a blank or by the end. -/
def wordsFrom (word : List Char) : List Char → List (List Char)
  | [] => if word.isEmpty then [] else [word.reverse]
  | c :: rest =>
    if isBlank c then
      if word.isEmpty then wordsFrom [] rest else word.reverse :: wordsFrom [] rest
    else wordsFrom (c :: word) rest

def words (cs : List Char) : List (List Char) := wordsFrom [] cs

def splitTokens (text : String) : List String := (words text.toList).map String.ofList

def joinTokens (tokens : List String) : String := " ".intercalate tokens

end Postfix.Text
