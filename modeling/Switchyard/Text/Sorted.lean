/-!
# Texts in order

Texts are ordered by their code points, the first difference deciding.
-/

namespace Switchyard.Text

def sorted (xs : List String) : List String := xs.mergeSort fun a b => !decide (b < a)

def sortedSet (xs : List String) : List String := (sorted xs).eraseDups

def joined (separator : String) (parts : List String) : String := separator.intercalate parts

end Switchyard.Text
