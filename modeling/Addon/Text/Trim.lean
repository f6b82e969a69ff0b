import Addon.Unicode.Blank

/-!
# Blanks and words

Cutting blanks off a text and cutting a text into words at its blanks.
-/

namespace Addon.Text

/-- A text without the blanks on its sides. -/
def trim (cs : List Char) : List Char :=
  ((cs.dropWhile Unicode.isBlank).reverse.dropWhile Unicode.isBlank).reverse

/-- The words of a text: its longest parts without blanks. -/
def words : List Char → List (List Char)
  | [] => []
  | c :: rest =>
    if Unicode.isBlank c then words rest
    else match rest with
      | [] => [[c]]
      | d :: _ =>
        if Unicode.isBlank d then [c] :: words rest
        else match words rest with
          | [] => [[c]]
          | word :: others => (c :: word) :: others

end Addon.Text
