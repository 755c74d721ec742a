import Knitting.Text.Digit

set_option autoImplicit false

/-! # JSON values and their text

A JSON value keeps numbers and strings as they are written: a number as its numeral, a string as
what stands between its quotation marks. So a value says exactly what its text says, and reading a
number or a string out of it is a separate step. -/

namespace Knitting

/-- A JSON value. -/
inductive Json where
  | null
  | bool (b : Bool)
  | number (numeral : String)
  /-- A string by what stands between its quotation marks. -/
  | text (raw : String)
  | array (items : List Json)
  /-- Fields with what stands between the quotation marks of their names, in order. -/
  | object (fields : List (String × Json))
  deriving Repr, Inhabited

namespace Json

/-! ## Strings -/

/-- The escaped form of a character: short escapes where there are any, four hexadecimal digits for
other control characters, and nothing for the rest. -/
def escapeChar (c : Char) : List Char :=
  match c with
  | '"' => ['\\', '"']
  | '\\' => ['\\', '\\']
  | '\x08' => ['\\', 'b']
  | '\x0c' => ['\\', 'f']
  | '\n' => ['\\', 'n']
  | '\r' => ['\\', 'r']
  | '\t' => ['\\', 't']
  | c =>
    if c.toNat < 0x20 then
      ['\\', 'u', '0', '0', Nat.digitChar (c.toNat / 16), Nat.digitChar (c.toNat % 16)]
    else [c]

/-- What stands between the quotation marks for a text. -/
def escape (s : String) : String := String.ofList (s.toList.flatMap escapeChar)

def ofText (s : String) : Json := .text (escape s)

/-- The JSON string of a text that is there, or else `null`. -/
def ofText? (s : Option String) : Json := (s.map ofText).getD .null

def ofNat (n : Nat) : Json := .number (toString n)

def ofInt (n : Int) : Json := .number (toString n)

def ofFields (fields : List (String × Json)) : Json := .object fields

/-! ## Compact text -/

def quote (raw : String) : String := "\"" ++ raw ++ "\""

mutual

def compact : Json → String
  | null => "null"
  | bool b => if b then "true" else "false"
  | number numeral => numeral
  | text raw => quote raw
  | array items => "[" ++ compactItems items ++ "]"
  | object fields => "\x7b" ++ compactFields fields ++ "\x7d"

def compactItems : List Json → String
  | [] => ""
  | [item] => item.compact
  | item :: rest => item.compact ++ "," ++ compactItems rest

def compactFields : List (String × Json) → String
  | [] => ""
  | [(name, value)] => quote name ++ ":" ++ value.compact
  | (name, value) :: rest => quote name ++ ":" ++ value.compact ++ "," ++ compactFields rest

end

/-! ## Indented text -/

/-- A new line at a depth, two spaces for each level. -/
def newLine (depth : Nat) : String := "\n" ++ String.ofList (List.replicate (2 * depth) ' ')

mutual

/-- The text of a value with each item and field on a line of its own. -/
def indented (depth : Nat) : Json → String
  | null => "null"
  | bool b => if b then "true" else "false"
  | number numeral => numeral
  | text raw => quote raw
  | array [] => "[]"
  | array items => "[" ++ indentedItems (depth + 1) items ++ newLine depth ++ "]"
  | object [] => "\x7b\x7d"
  | object fields => "\x7b" ++ indentedFields (depth + 1) fields ++ newLine depth ++ "\x7d"

def indentedItems (depth : Nat) : List Json → String
  | [] => ""
  | [item] => newLine depth ++ item.indented depth
  | item :: rest => newLine depth ++ item.indented depth ++ "," ++ indentedItems depth rest

def indentedFields (depth : Nat) : List (String × Json) → String
  | [] => ""
  | [(name, value)] => newLine depth ++ quote name ++ ": " ++ value.indented depth
  | (name, value) :: rest =>
    newLine depth ++ quote name ++ ": " ++ value.indented depth ++ ","
      ++ indentedFields depth rest

end

def pretty (j : Json) : String := j.indented 0

end Json

end Knitting
