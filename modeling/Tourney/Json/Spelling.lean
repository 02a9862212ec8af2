import Tourney.Json.Basic
import Tourney.Number.Numeral
import Tourney.Number.Shortest
import Tourney.Uuid

/-!
# Spellings of texts and numbers

How a text is spelled between quotes and read back, and likewise numbers. Writing escapes the
quote, the backslash and the control characters; reading takes every escape of JSON, and joins the
two halves of a surrogate pair.
-/

namespace Tourney.Json

/-! ## Texts -/

/-- A number below 65536 in four hexadecimal digits. -/
def hex4 (n : Nat) : List Char :=
  let ds := Nat.toDigits 16 n
  List.replicate (4 - ds.length) '0' ++ ds

/-- What a character is written as. -/
def escape (c : Char) : List Char :=
  match c with
  | '"' => ['\\', '"']
  | '\\' => ['\\', '\\']
  | '\x08' => ['\\', 'b']
  | '\t' => ['\\', 't']
  | '\n' => ['\\', 'n']
  | '\x0c' => ['\\', 'f']
  | '\r' => ['\\', 'r']
  | c => if c < ' ' then '\\' :: 'u' :: hex4 c.toNat else [c]

def spell (s : String) : String := String.ofList (s.toList.flatMap escape)

/-- What stands after a backslash, `u` apart. -/
def shortEscape? : Char → Option Char
  | '"' => some '"'
  | '\\' => some '\\'
  | '/' => some '/'
  | 'b' => some '\x08'
  | 'f' => some '\x0c'
  | 'n' => some '\n'
  | 'r' => some '\r'
  | 't' => some '\t'
  | _ => none

def hexValue? (cs : List Char) : Option Nat :=
  (cs.mapM Uuid.hexDigit?).map (·.foldl (fun n d => 16 * n + d) 0)

/-- The code points of a spelling; those of a surrogate pair are still apart. -/
def codes? : List Char → Option (List Nat)
  | [] => some []
  | '\\' :: 'u' :: a :: b :: c :: d :: rest => do
    let n ← hexValue? [a, b, c, d]
    (codes? rest).map (n :: ·)
  | '\\' :: e :: rest => do
    let c ← shortEscape? e
    (codes? rest).map (c.toNat :: ·)
  | c :: rest => if c = '\\' then none else (codes? rest).map (c.toNat :: ·)

def isHighSurrogate (n : Nat) : Bool := 0xd800 ≤ n && n < 0xdc00
def isLowSurrogate (n : Nat) : Bool := 0xdc00 ≤ n && n < 0xe000

/-- The characters of code points; half of a surrogate pair is none. -/
def characters? : List Nat → Option (List Char)
  | [] => some []
  | [n] => if n.isValidChar then some [Char.ofNat n] else none
  | high :: low :: rest =>
    if isHighSurrogate high then
      if isLowSurrogate low then
        (characters? rest).map (Char.ofNat ((high - 0xd800) * 0x400 + (low - 0xdc00) + 0x10000) :: ·)
      else none
    else if high.isValidChar then (characters? (low :: rest)).map (Char.ofNat high :: ·)
    else none

/-- Reads a spelling back. -/
def unspell? (spelling : String) : Option String :=
  ((codes? spelling.toList).bind characters?).map String.ofList

def ofString (s : String) : Json := .text (spell s)

def string? : Json → Option String
  | .text spelling => unspell? spelling
  | _ => none

/-! ## Numbers -/

def ofNat (n : Nat) : Json := .number (toString n)

/-- A whole number that is spelled with digits alone and lies below `limit`. -/
def natBelow? (limit : Nat) : Json → Option Nat
  | .number spelling =>
    let cs := spelling.toList
    if cs ≠ [] ∧ cs.all Char.isDigit ∧ Numeral.value cs < limit then some (Numeral.value cs)
    else none
  | _ => none

def uint32? (j : Json) : Option UInt32 := (j.natBelow? UInt32.size).map UInt32.ofNat

def uint64? (j : Json) : Option UInt64 := (j.natBelow? UInt64.size).map UInt64.ofNat

def ofUInt32 (n : UInt32) : Json := ofNat n.toNat

def ofUInt64 (n : UInt64) : Json := ofNat n.toNat

/-- A double by its shortest decimal. JSON has no infinity and no NaN; null stands for them. -/
def ofDouble (x : Double) : Json :=
  if x.isFinite then .number (String.ofList (Shortest.text x)) else .null

/-- Any number in the range of doubles. -/
def double? : Json → Option Double
  | .number spelling => do
    let x ← Numeral.double? spelling
    if x.isFinite then some x else none
  | _ => none

def bool? : Json → Option Bool
  | .bool b => some b
  | _ => none

end Tourney.Json
