import Knitting.Json.Numeral
import Knitting.Json.Value

set_option autoImplicit false

/-! # Reading JSON

`Json.parse?` accepts exactly the texts of the JSON grammar. Whether the escapes of a string stand
for characters is looked at only when the string is read (`Json.unescape?`), and a number only when
the number is read (`Numeral.reading?`); so what nobody reads need only be well formed. -/

namespace Knitting.Json

/-- Whether a character can stand between the parts of a value. -/
def isSpace (c : Char) : Bool := c = ' ' || c = '\n' || c = '\t' || c = '\r'

def skipSpaces (cs : List Char) : List Char := cs.dropWhile isSpace

/-! ## Strings -/

def hexValue? (c : Char) : Option Nat :=
  if '0' ≤ c ∧ c ≤ '9' then some (c.toNat - '0'.toNat)
  else if 'a' ≤ c ∧ c ≤ 'f' then some (c.toNat - 'a'.toNat + 10)
  else if 'A' ≤ c ∧ c ≤ 'F' then some (c.toNat - 'A'.toNat + 10)
  else none

def hex4? (a b c d : Char) : Option Nat := do
  return 4096 * (← hexValue? a) + 256 * (← hexValue? b) + 16 * (← hexValue? c) + (← hexValue? d)

/-- The characters that a letter after a backslash can stand for. -/
def shortEscape? (c : Char) : Option Char :=
  match c with
  | '"' => some '"'
  | '\\' => some '\\'
  | '/' => some '/'
  | 'b' => some '\x08'
  | 'f' => some '\x0c'
  | 'n' => some '\n'
  | 'r' => some '\r'
  | 't' => some '\t'
  | _ => none

/-- What stands before the closing quotation mark of a string, and what follows the mark. Control
characters cannot stand there, and every escape has its form. -/
def takeRaw : List Char → Option (List Char × List Char)
  | [] => none
  | '"' :: cs => some ([], cs)
  | '\\' :: 'u' :: a :: b :: c :: d :: cs => do
    let _ ← hex4? a b c d
    let (raw, rest) ← takeRaw cs
    return ('\\' :: 'u' :: a :: b :: c :: d :: raw, rest)
  | '\\' :: c :: cs => do
    let _ ← shortEscape? c
    let (raw, rest) ← takeRaw cs
    return ('\\' :: c :: raw, rest)
  | c :: cs =>
    if c.toNat < 0x20 || c = '\\' then none
    else do
      let (raw, rest) ← takeRaw cs
      return (c :: raw, rest)

/-- Whether a number is the first half of a character beyond the first 65536. -/
def isHighHalf (n : Nat) : Bool := 0xD800 ≤ n && n < 0xDC00

/-- Whether a number is the second half of such a character. -/
def isLowHalf (n : Nat) : Bool := 0xDC00 ≤ n && n < 0xE000

/-- The text that stands between quotation marks, with its escapes resolved. The two halves of a
character must stand side by side. -/
def unescapeChars? : List Char → Option (List Char)
  | [] => some []
  | '\\' :: 'u' :: a :: b :: c :: d :: '\\' :: 'u' :: a' :: b' :: c' :: d' :: cs => do
    let n ← hex4? a b c d
    if isHighHalf n then
      let n' ← hex4? a' b' c' d'
      if isLowHalf n' then
        let rest ← unescapeChars? cs
        return Char.ofNat (0x10000 + (n - 0xD800) * 0x400 + (n' - 0xDC00)) :: rest
      else none
    else if isLowHalf n then none
    else
      let rest ← unescapeChars? ('\\' :: 'u' :: a' :: b' :: c' :: d' :: cs)
      return Char.ofNat n :: rest
  | '\\' :: 'u' :: a :: b :: c :: d :: cs => do
    let n ← hex4? a b c d
    if isHighHalf n || isLowHalf n then none
    else
      let rest ← unescapeChars? cs
      return Char.ofNat n :: rest
  | '\\' :: c :: cs => do
    let e ← shortEscape? c
    let rest ← unescapeChars? cs
    return e :: rest
  | c :: cs => do
    let rest ← unescapeChars? cs
    return c :: rest

/-- The text that stands between quotation marks. -/
def unescape? (raw : String) : Option String := (unescapeChars? raw.toList).map String.ofList

/-! ## Values -/

/-- A numeral at the start of a text, and what follows it. -/
def takeNumber (cs : List Char) : Option (Json × List Char) := do
  let (_, rest) ← takeNumeral cs
  return (.number (String.ofList (cs.take (cs.length - rest.length))), rest)

mutual

/-- The value at the start of a text and what follows it. The bound falls with every value, item and
field that is begun, so twice the length of the text is always enough. -/
def takeValue : Nat → List Char → Option (Json × List Char)
  | 0, _ => none
  | bound + 1, cs =>
    match skipSpaces cs with
    | 'n' :: 'u' :: 'l' :: 'l' :: rest => some (.null, rest)
    | 't' :: 'r' :: 'u' :: 'e' :: rest => some (.bool true, rest)
    | 'f' :: 'a' :: 'l' :: 's' :: 'e' :: rest => some (.bool false, rest)
    | '"' :: rest => do
      let (raw, rest) ← takeRaw rest
      return (.text (String.ofList raw), rest)
    | '[' :: rest =>
      match skipSpaces rest with
      | ']' :: rest => some (.array [], rest)
      | rest => (takeItems bound rest).map fun (items, rest) => (.array items, rest)
    | '\x7b' :: rest =>
      match skipSpaces rest with
      | '\x7d' :: rest => some (.object [], rest)
      | rest => (takeFields bound rest).map fun (fields, rest) => (.object fields, rest)
    | rest => takeNumber rest

/-- The items of an array from one of them on, and what follows its closing bracket. -/
def takeItems : Nat → List Char → Option (List Json × List Char)
  | 0, _ => none
  | bound + 1, cs => do
    let (item, rest) ← takeValue bound cs
    match skipSpaces rest with
    | ',' :: rest =>
      let (items, rest) ← takeItems bound rest
      return (item :: items, rest)
    | ']' :: rest => return ([item], rest)
    | _ => none

/-- The fields of an object from one of them on, and what follows its closing brace. -/
def takeFields : Nat → List Char → Option (List (String × Json) × List Char)
  | 0, _ => none
  | bound + 1, cs =>
    match skipSpaces cs with
    | '"' :: rest => do
      let (raw, rest) ← takeRaw rest
      match skipSpaces rest with
      | ':' :: rest =>
        let (value, rest) ← takeValue bound rest
        match skipSpaces rest with
        | ',' :: rest =>
          let (fields, rest) ← takeFields bound rest
          return ((String.ofList raw, value) :: fields, rest)
        | '\x7d' :: rest => return ([(String.ofList raw, value)], rest)
        | _ => none
      | _ => none
    | _ => none

end

def parse? (s : String) : Option Json :=
  let cs := s.toList
  match takeValue (2 * cs.length + 1) cs with
  | some (j, rest) => if (skipSpaces rest).isEmpty then some j else none
  | none => none

end Knitting.Json
