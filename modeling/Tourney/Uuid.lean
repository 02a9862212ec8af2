/-!
# Universally unique identifiers

A 128-bit identifier and its text: 32 hexadecimal digits, written in lower case with hyphens and
read in either case, bare, hyphenated, in braces, or as a URN.
-/

namespace Tourney

structure Uuid where
  value : BitVec 128
  deriving DecidableEq, Repr, Inhabited

namespace Uuid

def zero : Uuid := ⟨0⟩

/-- The lengths of the groups between the hyphens. -/
def groups : List Nat := [8, 4, 4, 4, 12]

def hexDigit? (c : Char) : Option Nat :=
  if c.isDigit then some (c.toNat - '0'.toNat)
  else if 'a' ≤ c ∧ c ≤ 'f' then some (c.toNat - 'a'.toNat + 10)
  else if 'A' ≤ c ∧ c ≤ 'F' then some (c.toNat - 'A'.toNat + 10)
  else none

def hexDigits (u : Uuid) : List Char :=
  let ds := Nat.toDigits 16 u.value.toNat
  List.replicate (32 - ds.length) '0' ++ ds

/-- Cuts a list into groups of the given lengths, with hyphens between them. -/
def hyphenate : List Nat → List Char → List Char
  | [], cs => cs
  | [_], cs => cs
  | n :: ns, cs => cs.take n ++ '-' :: hyphenate ns (cs.drop n)

def text (u : Uuid) : List Char := hyphenate groups u.hexDigits

/-- Takes out the hyphens that stand between the groups. -/
def unhyphenate? : List Nat → List Char → Option (List Char)
  | [], cs => if cs = [] then some [] else none
  | [n], cs => if cs.length = n then some cs else none
  | n :: ns, cs =>
    match cs.drop n with
    | '-' :: rest => (unhyphenate? ns rest).map (cs.take n ++ ·)
    | _ => none

def ofHexDigits? (cs : List Char) : Option Uuid :=
  if cs.length = 32 then
    (cs.mapM hexDigit?).map fun ds => ⟨BitVec.ofNat 128 (ds.foldl (fun n d => 16 * n + d) 0)⟩
  else none

def urn : List Char := "urn:uuid:".toList

/-- What follows the start of a URN, which may stand in either case. -/
def afterUrn? (cs : List Char) : Option (List Char) :=
  if urn.isPrefixOf (cs.map Char.toLower) then some (cs.drop urn.length) else none

def read? (s : String) : Option Uuid :=
  let cs := s.toList
  if cs.length = 32 then ofHexDigits? cs
  else
    let bare :=
      if cs.head? = some '\x7b' ∧ cs.getLast? = some '\x7d' then cs.tail.dropLast
      else (afterUrn? cs).getD cs
    (unhyphenate? groups bare).bind ofHexDigits?

end Uuid

end Tourney
