/-!
# JSON values

A value as it is written: numbers and texts keep their spelling, an object keeps its entries in
order, and an entry written twice is there twice. What a spelling stands for is asked only when a
value is used, so a value nobody uses need only be well formed.
-/

namespace Tourney

inductive Json where
  | null
  | bool (b : Bool)
  /-- A number by its spelling. -/
  | number (spelling : String)
  /-- A text by its spelling between the quotes. -/
  | text (spelling : String)
  | array (items : List Json)
  /-- Entries by the spelling of their names. -/
  | object (entries : List (String × Json))
  deriving Repr, Inhabited

end Tourney
