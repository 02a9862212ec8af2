/-!
# Blank text

Unicode's White_Space characters, text that holds nothing else, and text with them cut from both
ends.
-/

namespace Tourney

namespace Blank

/-- The White_Space code points, as closed ranges in increasing order. -/
def ranges : List (Nat × Nat) := [
  (0x9, 0xd), (0x20, 0x20), (0x85, 0x85), (0xa0, 0xa0), (0x1680, 0x1680), (0x2000, 0x200a),
  (0x2028, 0x2029), (0x202f, 0x202f), (0x205f, 0x205f), (0x3000, 0x3000)]

end Blank

def isBlankChar (c : Char) : Bool :=
  Blank.ranges.any fun (first, last) => first ≤ c.toNat && c.toNat ≤ last

/-- Whether nothing is left of a text once the white space is cut from its ends. -/
def isBlank (s : String) : Bool := s.toList.all isBlankChar

def trimStart (cs : List Char) : List Char := cs.dropWhile isBlankChar

/-- A text without the white space at its ends. -/
def trim (s : String) : String :=
  String.ofList (trimStart (trimStart s.toList).reverse).reverse

end Tourney
