set_option autoImplicit false

/-! # Lines

A line ends at a line feed, and a carriage return right before it belongs to the end of the line.
What follows the last line feed is a line of its own unless it is empty. -/

namespace Knitting.Text

def lines : List Char → List (List Char)
  | [] => []
  | '\r' :: '\n' :: cs => [] :: lines cs
  | c :: cs =>
    if c = '\n' then [] :: lines cs
    else match lines cs with
      | [] => [[c]]
      | l :: ls => (c :: l) :: ls

/-- What stands after the first occurrence of `word` in a text, if there is one. -/
def after? (word : List Char) : List Char → Option (List Char)
  | [] => if word.isEmpty then some [] else none
  | c :: cs =>
    if word.isPrefixOf (c :: cs) then some ((c :: cs).drop word.length) else after? word cs

end Knitting.Text
