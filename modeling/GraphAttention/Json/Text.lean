import GraphAttention.Json.Basic
import GraphAttention.Scalar.Shortest

/-!
# JSON Text

Reading a JSON value from text and writing one. The reader takes the characters
that are left and gives a value and the characters after it. Every step that
goes deeper consumes a character, so the length of the text bounds the depth.

A number is read exactly and rounded once. Exponents far outside the range of
numbers are cut to ones that are still outside, so that no power of ten is
larger than the text warrants.

## Main definitions

* `Json.parse?`: The value that a text holds.
* `Json.render`: The text of a value.
-/

namespace GraphAttention

namespace Json

/-- The characters after any blanks. -/
def skipBlank (cs : List Char) : List Char :=
  cs.dropWhile fun c => c == ' ' || c == '\n' || c == '\t' || c == '\r'

/-- The characters after a given word. -/
def afterWord? : List Char → List Char → Option (List Char)
  | [], rest => some rest
  | w :: word, c :: rest => if w = c then afterWord? word rest else none
  | _ :: _, [] => none

/-- The value of a hexadecimal digit. -/
def hexDigit? (c : Char) : Option Nat :=
  if '0' ≤ c ∧ c ≤ '9' then some (c.toNat - '0'.toNat)
  else if 'a' ≤ c ∧ c ≤ 'f' then some (c.toNat - 'a'.toNat + 10)
  else if 'A' ≤ c ∧ c ≤ 'F' then some (c.toNat - 'A'.toNat + 10)
  else none

/-- The value of four hexadecimal digits and the characters after them. -/
def hexUnit? : List Char → Option (Nat × List Char)
  | a :: b :: c :: d :: rest => do
    let value := ((← hexDigit? a) * 16 + (← hexDigit? b)) * 16 + (← hexDigit? c)
    return (value * 16 + (← hexDigit? d), rest)
  | _ => none

/-- The character of an escape after `\u`. A character beyond the first plane
    is written as two units; half of such a pair is no character. -/
def unicodeEscape? (cs : List Char) : Option (Char × List Char) := do
  let (unit, rest) ← hexUnit? cs
  if 0xd800 ≤ unit ∧ unit < 0xdc00 then
    let rest ← afterWord? ['\\', 'u'] rest
    let (low, rest) ← hexUnit? rest
    if 0xdc00 ≤ low ∧ low < 0xe000 then
      return (Char.ofNat (0x10000 + (unit - 0xd800) * 0x400 + (low - 0xdc00)), rest)
    else none
  else if 0xdc00 ≤ unit ∧ unit < 0xe000 then none
  else return (Char.ofNat unit, rest)

/-- The characters up to the closing quote, in reverse, and those after it. -/
def stringBody? : Nat → List Char → List Char → Option (List Char × List Char)
  | 0, _, _ => none
  | _ + 1, _, [] => none
  | fuel + 1, acc, c :: cs =>
    if c = '"' then some (acc, cs)
    else if c.toNat < 0x20 then none
    else if c = '\\' then
      match cs with
      | 'u' :: rest => do
        let (d, rest) ← unicodeEscape? rest
        stringBody? fuel (d :: acc) rest
      | 'n' :: rest => stringBody? fuel ('\n' :: acc) rest
      | 't' :: rest => stringBody? fuel ('\t' :: acc) rest
      | 'r' :: rest => stringBody? fuel ('\r' :: acc) rest
      | 'b' :: rest => stringBody? fuel (Char.ofNat 8 :: acc) rest
      | 'f' :: rest => stringBody? fuel (Char.ofNat 12 :: acc) rest
      | d :: rest =>
        if d = '"' ∨ d = '\\' ∨ d = '/' then stringBody? fuel (d :: acc) rest else none
      | [] => none
    else stringBody? fuel (c :: acc) cs

/-- A string whose opening quote was read. -/
def stringAfterQuote? (cs : List Char) : Option (String × List Char) := do
  let (acc, rest) ← stringBody? (cs.length + 1) [] cs
  return (String.ofList acc.reverse, rest)

/-- The number that a list of decimal digits stands for. -/
def digitsValue (ds : List Char) : Nat :=
  ds.foldl (fun n d => n * 10 + (d.toNat - '0'.toNat)) 0

/-- The leading decimal digits, at least one of them. -/
def someDigits? (cs : List Char) : Option (List Char × List Char) :=
  let ds := cs.takeWhile Char.isDigit
  if ds.isEmpty then none else some (ds, cs.dropWhile Char.isDigit)

/-- The digits after a point, if there is one. -/
def fraction? : List Char → Option (Option (List Char) × List Char)
  | '.' :: cs => do
    let (ds, rest) ← someDigits? cs
    return (some ds, rest)
  | cs => some (none, cs)

/-- The exponent, if there is one. -/
def exponent? : List Char → Option (Option Int × List Char)
  | c :: cs =>
    if c = 'e' ∨ c = 'E' then do
      let (negative, cs) := match cs with
        | '-' :: r => (true, r)
        | '+' :: r => (false, r)
        | r => (false, r)
      let (ds, rest) ← someDigits? cs
      let n : Int := digitsValue ds
      return (some (if negative then -n else n), rest)
    else some (none, c :: cs)
  | [] => some (none, [])

/-- The number nearest to `digits * 10 ^ exponent`. -/
def nearest (ds : List Char) (exponent : Int) : Float :=
  let far : Int := ds.length + 400
  let exponent := max (-far) (min 400 exponent)
  Float.ofScientific (digitsValue ds) (exponent < 0) exponent.natAbs

/-- A number. Leading zeros are no digits, and a number beyond the largest
    finite one is not read. -/
def number (cs : List Char) : Option (Json × List Char) := do
  let (negative, cs) := match cs with
    | '-' :: r => (true, r)
    | r => (false, r)
  let (whole, rest) ← someDigits? cs
  if whole.length ≠ 1 ∧ whole.head? = some '0' then none
  let (fraction, rest) ← fraction? rest
  let (exponent, rest) ← exponent? rest
  let magnitude : Int := digitsValue whole
  let n := if negative then -magnitude else magnitude
  let isInteger := fraction.isNone && exponent.isNone && !(negative && magnitude == 0)
    && decide (Int64.minValue.toInt ≤ n) && decide (n ≤ maxNatural)
  if isInteger then return (int n, rest)
  let decimals := fraction.getD []
  let x := nearest (whole ++ decimals) (exponent.getD 0 - decimals.length)
  if x.isFinite then return (float (if negative then -x else x), rest) else none

mutual

/-- A value and the characters after it. -/
def value? : Nat → List Char → Option (Json × List Char)
  | 0, _ => none
  | fuel + 1, cs =>
    match skipBlank cs with
    | '[' :: rest =>
      match skipBlank rest with
      | ']' :: rest => some (array [], rest)
      | rest => do
        let (items, rest) ← items? fuel rest
        return (array items, rest)
    | '\x7b' :: rest =>
      match skipBlank rest with
      | '\x7d' :: rest => some (object [], rest)
      | rest => do
        let (members, rest) ← pairs? fuel rest
        return (object members, rest)
    | '"' :: rest => do
      let (s, rest) ← stringAfterQuote? rest
      return (string s, rest)
    | 'n' :: rest => do return (null, ← afterWord? ['u', 'l', 'l'] rest)
    | 't' :: rest => do return (bool true, ← afterWord? ['r', 'u', 'e'] rest)
    | 'f' :: rest => do return (bool false, ← afterWord? ['a', 'l', 's', 'e'] rest)
    | cs => number cs

/-- The items of an array up to its closing bracket. -/
def items? : Nat → List Char → Option (List Json × List Char)
  | 0, _ => none
  | fuel + 1, cs => do
    let (item, rest) ← value? fuel cs
    match skipBlank rest with
    | ',' :: rest =>
      let (items, rest) ← items? fuel rest
      return (item :: items, rest)
    | ']' :: rest => return ([item], rest)
    | _ => none

/-- The members of an object up to its closing brace. -/
def pairs? : Nat → List Char → Option (List (String × Json) × List Char)
  | 0, _ => none
  | fuel + 1, cs =>
    match skipBlank cs with
    | '"' :: rest => do
      let (name, rest) ← stringAfterQuote? rest
      match skipBlank rest with
      | ':' :: rest =>
        let (item, rest) ← value? fuel rest
        match skipBlank rest with
        | ',' :: rest =>
          let (members, rest) ← pairs? fuel rest
          return ((name, item) :: members, rest)
        | '\x7d' :: rest => return ([(name, item)], rest)
        | _ => none
      | _ => none
    | _ => none

end

/-- The value that a text holds, with nothing but blanks around it. -/
def parse? (text : String) : Option Json := do
  let cs := text.toList
  let (value, rest) ← value? (2 * cs.length + 1) cs
  if (skipBlank rest).isEmpty then some value else none

/-- The digits of a control character in an escape. -/
def controlEscape (c : Char) : List Char :=
  let n := c.toNat
  ['\\', 'u', '0', '0', Nat.digitChar (n / 16), Nat.digitChar (n % 16)]

/-- The text of a string, in quotes. -/
def quote (s : String) : String :=
  let body := s.toList.flatMap fun c =>
    if c = '"' then ['\\', '"']
    else if c = '\\' then ['\\', '\\']
    else if c.toNat < 0x20 then controlEscape c
    else [c]
  String.ofList ('"' :: body ++ ['"'])

mutual

/-- The text of a value. A number that is not finite has no text of its own and
    is written as null. -/
def render : Json → String
  | null => "null"
  | bool b => if b then "true" else "false"
  | int n => toString n
  | float x => if x.isFinite then Decimal.render x else "null"
  | string s => quote s
  | array items => "[" ++ String.intercalate "," (renderItems items) ++ "]"
  | object members => "\x7b" ++ String.intercalate "," (renderMembers members) ++ "\x7d"

/-- The texts of the items of an array. -/
def renderItems : List Json → List String
  | [] => []
  | item :: items => render item :: renderItems items

/-- The texts of the members of an object. -/
def renderMembers : List (String × Json) → List String
  | [] => []
  | (name, item) :: members => (quote name ++ ":" ++ render item) :: renderMembers members

end

end Json

end GraphAttention
