import Tourney.Json.Spelling

/-!
# Reading JSON

A text is cut into tokens, and the tokens are read with a stack of the containers still open. No
depth is too great, and nothing but white space may stand around the value.
-/

namespace Tourney.Json

inductive Token where
  | null
  | bool (b : Bool)
  | number (spelling : String)
  | text (spelling : String)
  | openArray
  | closeArray
  | openObject
  | closeObject
  | comma
  | colon
  deriving DecidableEq, Repr

namespace Token

def isSpace (c : Char) : Bool := c = ' ' || c = '\n' || c = '\t' || c = '\r'

def punctuation? : Char → Option Token
  | '[' => some .openArray
  | ']' => some .closeArray
  | '\x7b' => some .openObject
  | '\x7d' => some .closeObject
  | ',' => some .comma
  | ':' => some .colon
  | _ => none

def isHex (c : Char) : Bool := (Uuid.hexDigit? c).isSome

/-- The spelling of a text up to its closing quote, and what follows. Escapes have to be
well formed, and control characters may only stand escaped. -/
def quotedText? : List Char → Option (List Char × List Char)
  | [] => none
  | '"' :: rest => some ([], rest)
  | '\\' :: 'u' :: a :: b :: c :: d :: rest =>
    if [a, b, c, d].all isHex then
      (quotedText? rest).map fun (s, rest) => ('\\' :: 'u' :: a :: b :: c :: d :: s, rest)
    else none
  | '\\' :: e :: rest =>
    if (shortEscape? e).isSome then
      (quotedText? rest).map fun (s, rest) => ('\\' :: e :: s, rest)
    else none
  | c :: rest =>
    if c = '\\' ∨ c < ' ' then none
    else (quotedText? rest).map fun (s, rest) => (c :: s, rest)

theorem quotedText?_length {cs s rest : List Char} (h : quotedText? cs = some (s, rest)) :
    rest.length < cs.length := by
  fun_induction quotedText? cs generalizing s rest <;> grind [Option.map_eq_some_iff]

def isNumberChar (c : Char) : Bool :=
  c.isDigit || c = '-' || c = '+' || c = '.' || c = 'e' || c = 'E'

/-- The digits before the point: a lone zero, or digits that do not start with one. -/
def isWhole (cs : List Char) : Bool :=
  cs == ['0'] || (cs ≠ [] && cs.head? ≠ some '0')

/-- Whether a run of number characters spells a number. -/
def isNumeral (cs : List Char) : Bool :=
  let cs := if cs.head? = some '-' then cs.tail else cs
  match Numeral.decimal? cs with
  | some d =>
    isWhole d.before && !((cs.drop d.before.length).head? = some '.' && d.after.isEmpty)
  | none => false

def word? (s : String) : Option Token :=
  match s with
  | "null" => some .null
  | "true" => some (.bool true)
  | "false" => some (.bool false)
  | _ => none

/-- Cuts a text into tokens. -/
def scan (cs : List Char) : Option (List Token) :=
  match cs with
  | [] => some []
  | c :: rest =>
    if isSpace c then scan rest
    else
      match punctuation? c with
      | some t => (scan rest).map (t :: ·)
      | none =>
        if c = '"' then
          match h : quotedText? rest with
          | none => none
          | some (s, rest') =>
            have : rest'.length < rest.length := quotedText?_length h
            (scan rest').map (.text (String.ofList s) :: ·)
        else if isNumberChar c then
          let s := c :: rest.takeWhile isNumberChar
          have : (rest.dropWhile isNumberChar).length ≤ rest.length :=
            (List.dropWhile_sublist _).length_le
          if isNumeral s then
            (scan (rest.dropWhile isNumberChar)).map (.number (String.ofList s) :: ·)
          else none
        else
          have : (rest.dropWhile Char.isAlpha).length ≤ rest.length :=
            (List.dropWhile_sublist _).length_le
          match word? (String.ofList (c :: rest.takeWhile Char.isAlpha)) with
          | some t => (scan (rest.dropWhile Char.isAlpha)).map (t :: ·)
          | none => none
termination_by cs.length

end Token

/-- A container that is still open: the items or entries read so far, the last of them first, and
the name of the entry under way. -/
inductive Frame where
  | array (items : List Json)
  | object (entries : List (String × Json)) (name : String)

mutual

/-- Reads a value that has to stand here. -/
def readValue (stack : List Frame) : List Token → Option Json
  | .null :: ts => readAfter stack .null ts
  | .bool b :: ts => readAfter stack (.bool b) ts
  | .number s :: ts => readAfter stack (.number s) ts
  | .text s :: ts => readAfter stack (.text s) ts
  | .openArray :: .closeArray :: ts => readAfter stack (.array []) ts
  | .openArray :: ts => readValue (.array [] :: stack) ts
  | .openObject :: .closeObject :: ts => readAfter stack (.object []) ts
  | .openObject :: .text name :: .colon :: ts => readValue (.object [] name :: stack) ts
  | _ => none

/-- Reads on after a value. -/
def readAfter (stack : List Frame) (v : Json) : List Token → Option Json
  | [] => if stack.isEmpty then some v else none
  | t :: ts =>
    match stack with
    | [] => none
    | .array items :: stack =>
      match t with
      | .comma => readValue (.array (v :: items) :: stack) ts
      | .closeArray => readAfter stack (.array (v :: items).reverse) ts
      | _ => none
    | .object entries name :: stack =>
      match t with
      | .comma =>
        match ts with
        | .text next :: .colon :: ts =>
          readValue (.object ((name, v) :: entries) next :: stack) ts
        | _ => none
      | .closeObject => readAfter stack (.object ((name, v) :: entries).reverse) ts
      | _ => none

end

/-- Reads a text that holds one value. -/
def read? (s : String) : Option Json := (Token.scan s.toList).bind (readValue [])

end Tourney.Json
