set_option autoImplicit false

/-! # Blanks and words

What separates words is every character with the Unicode property `White_Space`. -/

namespace Knitting.Text

/-- Whether a character has the Unicode property `White_Space`. -/
def isBlank (c : Char) : Bool :=
  let n := c.toNat
  (9 ≤ n && n ≤ 13) || n == 0x20 || n == 0x85 || n == 0xA0 || n == 0x1680 ||
    (0x2000 ≤ n && n ≤ 0x200A) || n == 0x2028 || n == 0x2029 || n == 0x202F || n == 0x205F ||
    n == 0x3000

/-- The pieces of a text between its blanks, empty ones included. -/
def pieces : List Char → List (List Char)
  | [] => [[]]
  | c :: cs =>
    match pieces cs with
    | [] => [[c]]
    | p :: ps => if isBlank c then [] :: p :: ps else (c :: p) :: ps

def words (cs : List Char) : List String :=
  ((pieces cs).filter fun p => !p.isEmpty).map String.ofList

def trimEnd (cs : List Char) : List Char := (cs.reverse.dropWhile isBlank).reverse

end Knitting.Text
