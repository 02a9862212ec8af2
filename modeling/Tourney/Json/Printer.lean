import Tourney.Json.Basic

/-!
# Writing JSON

A value over as many lines as it has parts, each level indented by two blanks, or all on one line.
-/

namespace Tourney.Json

def indent (depth : Nat) : List Char := '\n' :: List.replicate (2 * depth) ' '

mutual

/-- A value with its first line where it stands and the others indented. -/
def lines (depth : Nat) : Json → List Char
  | .null => "null".toList
  | .bool true => "true".toList
  | .bool false => "false".toList
  | .number spelling => spelling.toList
  | .text spelling => '"' :: spelling.toList ++ ['"']
  | .array [] => ['[', ']']
  | .array (v :: vs) =>
    '[' :: indent (depth + 1) ++ lines (depth + 1) v ++ itemLines (depth + 1) vs ++
      indent depth ++ [']']
  | .object [] => ['\x7b', '\x7d']
  | .object ((name, v) :: es) =>
    '\x7b' :: indent (depth + 1) ++ '"' :: name.toList ++ '"' :: ':' :: ' ' ::
      lines (depth + 1) v ++ entryLines (depth + 1) es ++ indent depth ++ ['\x7d']

def itemLines (depth : Nat) : List Json → List Char
  | [] => []
  | v :: vs => ',' :: indent depth ++ lines depth v ++ itemLines depth vs

def entryLines (depth : Nat) : List (String × Json) → List Char
  | [] => []
  | (name, v) :: es =>
    ',' :: indent depth ++ '"' :: name.toList ++ '"' :: ':' :: ' ' :: lines depth v ++
      entryLines depth es

end

/-- A value over several lines. -/
def pretty (j : Json) : String := String.ofList (j.lines 0)

mutual

/-- A value without white space. -/
def line : Json → List Char
  | .null => "null".toList
  | .bool true => "true".toList
  | .bool false => "false".toList
  | .number spelling => spelling.toList
  | .text spelling => '"' :: spelling.toList ++ ['"']
  | .array vs => '[' :: items vs ++ [']']
  | .object es => '\x7b' :: entries es ++ ['\x7d']

def items : List Json → List Char
  | [] => []
  | [v] => line v
  | v :: vs => line v ++ ',' :: items vs

def entries : List (String × Json) → List Char
  | [] => []
  | [(name, v)] => '"' :: name.toList ++ '"' :: ':' :: line v
  | (name, v) :: es => '"' :: name.toList ++ '"' :: ':' :: line v ++ ',' :: entries es

end

/-- A value on one line. -/
def compact (j : Json) : String := String.ofList j.line

end Tourney.Json
