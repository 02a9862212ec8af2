import Tourney.Text.Hidden

/-!
# Quoted text

A text shown to an organiser between double quotes, with everything that could be mistaken or
overlooked written out: the quote and the backslash, line ends, and each hidden character by its
number.
-/

namespace Tourney.Quoted

def digits (n : Nat) : List Char := Nat.toDigits 16 n

/-- What stands for a character between the quotes. -/
def escape (c : Char) : List Char :=
  match c with
  | '"' => ['\\', '"']
  | '\\' => ['\\', '\\']
  | '\n' => ['\\', 'n']
  | '\r' => ['\\', 'r']
  | '\t' => ['\\', 't']
  | '\x00' => ['\\', '0']
  | c => if isHidden c then "\\u\x7b".toList ++ digits c.toNat ++ "\x7d".toList else [c]

end Tourney.Quoted

namespace Tourney

def quoted (s : String) : String :=
  String.ofList ('"' :: s.toList.flatMap Quoted.escape ++ ['"'])

/-- Texts between brackets, each in quotes. -/
def quotedList (ss : List String) : String :=
  "[" ++ ", ".intercalate (ss.map quoted) ++ "]"

end Tourney
