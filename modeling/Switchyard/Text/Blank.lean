import Switchyard.Text.Ranges

/-!
# Blanks

A blank is a character that separates words: the ASCII blanks and separators, the next-line and
no-break characters, and the spaces of other scripts.
-/

namespace Switchyard.Text

/-- The blanks: tab to carriage return, the four information separators, and every space. -/
def blanks : Ranges :=
  ⟨[9, 14, 28, 33, 133, 134, 160, 161, 5760, 5761, 8192, 8203, 8232, 8234, 8239, 8240, 8287, 8288,
    12288, 12289]⟩

def isBlank (c : Char) : Bool := blanks.has c

/-- The words of a text: its maximal runs of characters that are no blanks. -/
def words (s : String) : List String :=
  (go [] s.toList).map String.ofList
where
  /-- Collects words; `word` holds the characters of the open one, last first. -/
  go (word : List Char) : List Char → List (List Char)
    | [] => if word.isEmpty then [] else [word.reverse]
    | c :: rest =>
      if isBlank c then
        if word.isEmpty then go [] rest else word.reverse :: go [] rest
      else go (c :: word) rest

/-- The text without the characters of some sort at its two ends. -/
def without (sort : Char → Bool) (s : String) : String :=
  String.ofList (((s.toList.dropWhile sort).reverse.dropWhile sort).reverse)

/-- The text without the blanks at its two ends. -/
def strip (s : String) : String := without isBlank s

/-- Whether the character is white space to the checks of data: a blank that is no
information separator. -/
def isSpace (c : Char) : Bool := isBlank c && !(28 ≤ c.toNat && c.toNat ≤ 31)

/-- The text of a number that is checked, without the white space at its two ends. -/
def trim (s : String) : String := without isSpace s

end Switchyard.Text
