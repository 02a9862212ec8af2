import Tourney.Json.Spelling

/-!
# Records in JSON

Records are written as objects. They are read from objects, whose unknown entries are passed over
and whose known entries may stand once, or from arrays with the fields in order. Choices are read
by their names.
-/

namespace Tourney.Json

/-- The one value of a name, if any; a name that stands twice is an error. -/
def entryNamed? (es : List (String × Json)) (name : String) : Option (Option Json) :=
  match es.filter (·.1 = name) with
  | [] => some none
  | [(_, v)] => some (some v)
  | _ => none

def unspellNames? (es : List (String × Json)) : Option (List (String × Json)) :=
  es.mapM fun (name, v) => (unspell? name).map (·, v)

/-- The values of a record's fields, in the order of the names; none for a field left out. -/
def fields? (names : List String) : Json → Option (List (Option Json))
  | .object es => do
    let es ← unspellNames? es
    names.mapM (entryNamed? es)
  | .array vs => if vs.length = names.length then some (vs.map some) else none
  | _ => none

/-- A field that has to be there. -/
def required? (read : Json → Option α) (v : Option Json) : Option α := v.bind read

/-- A field that may be null or left out. -/
def optional? (read : Json → Option α) : Option Json → Option (Option α)
  | none => some none
  | some .null => some none
  | some v => (read v).map some

def ofOption (write : α → Json) : Option α → Json
  | none => .null
  | some a => write a

def list? (read : Json → Option α) : Json → Option (List α)
  | .array vs => vs.mapM read
  | _ => none

def ofList (write : α → Json) (xs : List α) : Json := .array (xs.map write)

/-- A choice without parts: its name, or an object that gives the name a null. -/
def choiceName? : Json → Option String
  | .text spelling => unspell? spelling
  | .object [(name, .null)] => unspell? name
  | _ => none

/-- A choice by its name. -/
def choice? (read : String → Option α) (j : Json) : Option α := j.choiceName?.bind read

end Tourney.Json
