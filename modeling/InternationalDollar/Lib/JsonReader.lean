import InternationalDollar.Lib.Json
import Mathlib.Data.List.Sort

set_option autoImplicit false

/-! # Reading JSON

`json.loads` with repeated keys, floating-point numbers and the numeric constants refused. Blanks may
stand between the tokens, keys may come in any order and a character may be escaped in more than one
way, so a value has many texts; the canonical one is `Json.render`. An object lists its members by key,
as the canonical text does.

Half of a surrogate pair is refused: Python reads it into a string that no encoder accepts. -/

namespace Json

/-- The blanks between tokens. -/
def isBlank (c : Char) : Bool :=
  c = ' ' || c = '\t' || c = '\n' || c = '\r'

/-- The text after the blanks at its front. -/
def skipBlanks (cs : List Char) : List Char :=
  cs.dropWhile isBlank

/-- The character that an escape stands for, read after the backslash, and what follows. -/
def scanEscape : List Char → Option (Char × List Char)
  | [] => none
  | c :: rest =>
      if c = 'u' then
        (read4 rest).bind fun high =>
          if 0xd800 ≤ high.1 ∧ high.1 < 0xdc00 then
            -- the first half of a pair, which the second half has to follow at once
            match high.2 with
            | '\\' :: 'u' :: more =>
                (read4 more).bind fun low =>
                  if 0xdc00 ≤ low.1 ∧ low.1 < 0xe000 then
                    some (Char.ofNat (65536 + (high.1 - 0xd800) * 1024 + (low.1 - 0xdc00)), low.2)
                  else none
            | _ => none
          else if 0xdc00 ≤ high.1 ∧ high.1 < 0xe000 then none
          else some (Char.ofNat high.1, high.2)
      else if c = '"' ∨ c = '\\' ∨ c = '/' then some (c, rest)
      else if c = 'b' then some (Char.ofNat 8, rest)
      else if c = 'f' then some (Char.ofNat 12, rest)
      else if c = 'n' then some ('\n', rest)
      else if c = 'r' then some ('\r', rest)
      else if c = 't' then some ('\t', rest)
      else none

/-- The characters of a string literal up to the closing quote. Control characters are refused. -/
def scanString : Nat → List Char → Option (List Char × List Char)
  | 0, _ => none
  | _ + 1, [] => none
  | fuel + 1, c :: rest =>
      if c = '"' then some ([], rest)
      else if c = '\\' then
        (scanEscape rest).bind fun escaped =>
          (scanString fuel escaped.2).map fun tail => (escaped.1 :: tail.1, tail.2)
      else if c.toNat < 32 then none
      else (scanString fuel rest).map fun tail => (c :: tail.1, tail.2)

/-- A number without a sign. A fraction or an exponent is left over, and no token begins with one. -/
def scanNat (cs : List Char) : Option (Nat × List Char) :=
  match cs with
  | [] => none
  | c :: rest =>
      if c = '0' then some (0, rest)
      else if c.isDigit then
        some (Nat.ofDigitChars 10 (cs.takeWhile Char.isDigit) 0, cs.dropWhile Char.isDigit)
      else none

/-- A literal word. -/
def scanWord (word : String) (value : Json) (cs : List Char) : Option (Json × List Char) :=
  (Text.dropPrefix? word.toList cs).map fun rest => (value, rest)

/-- An object from its members in the order of the text. A repeated key is refused. -/
def ofPairs (pairs : List (String × Json)) : Option Json :=
  if (pairs.map Prod.fst).Nodup then
    some (.obj (pairs.insertionSort fun a b => a.1 ≤ b.1))
  else none

mutual

/-- One value. -/
def scanValue : Nat → List Char → Option (Json × List Char)
  | 0, _ => none
  | _ + 1, [] => none
  | fuel + 1, c :: rest =>
      if c = '"' then
        (scanString (rest.length + 1) rest).map fun text => (.str (String.ofList text.1), text.2)
      else if c = '{' then
        (scanObject fuel (skipBlanks rest)).bind fun pairs =>
          (ofPairs pairs.1).map fun value => (value, pairs.2)
      else if c = '[' then
        (scanArray fuel (skipBlanks rest)).map fun items => (.arr items.1, items.2)
      else if c = '-' then (scanNat rest).map fun n => (.int (-n.1), n.2)
      else if c = 'n' then scanWord "null" .null (c :: rest)
      else if c = 't' then scanWord "true" (.bool true) (c :: rest)
      else if c = 'f' then scanWord "false" (.bool false) (c :: rest)
      else (scanNat (c :: rest)).map fun n => (.int n.1, n.2)

/-- What follows an opening bracket. -/
def scanArray : Nat → List Char → Option (List Json × List Char)
  | 0, _ => none
  | fuel + 1, cs =>
      match cs with
      | ']' :: rest => some ([], rest)
      | _ => scanItems fuel cs

/-- The items of an array up to the closing bracket. -/
def scanItems : Nat → List Char → Option (List Json × List Char)
  | 0, _ => none
  | fuel + 1, cs =>
      (scanValue fuel cs).bind fun item =>
        match skipBlanks item.2 with
        | ']' :: rest => some ([item.1], rest)
        | ',' :: rest =>
            (scanItems fuel (skipBlanks rest)).map fun tail => (item.1 :: tail.1, tail.2)
        | _ => none

/-- What follows an opening brace. -/
def scanObject : Nat → List Char → Option (List (String × Json) × List Char)
  | 0, _ => none
  | fuel + 1, cs =>
      match cs with
      | '}' :: rest => some ([], rest)
      | _ => scanMembers fuel cs

/-- The members of an object up to the closing brace. -/
def scanMembers : Nat → List Char → Option (List (String × Json) × List Char)
  | 0, _ => none
  | _ + 1, [] => none
  | fuel + 1, c :: rest =>
      if c = '"' then
        (scanString (rest.length + 1) rest).bind fun key =>
          match skipBlanks key.2 with
          | ':' :: rest =>
              (scanValue fuel (skipBlanks rest)).bind fun value =>
                match skipBlanks value.2 with
                | '}' :: rest => some ([(String.ofList key.1, value.1)], rest)
                | ',' :: rest =>
                    (scanMembers fuel (skipBlanks rest)).map fun tail =>
                      ((String.ofList key.1, value.1) :: tail.1, tail.2)
                | _ => none
          | _ => none
      else none

end

/-- `json.loads`. No value and no list of members takes more than three steps for a character, so the
    fuel is enough for every text. -/
def parse (cs : List Char) : Option Json :=
  (scanValue (3 * cs.length + 3) (skipBlanks cs)).bind fun value =>
    if skipBlanks value.2 = [] then some value.1 else none

end Json
