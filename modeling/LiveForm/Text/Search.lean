/-!
# Searching texts

* `occursIn`: a run of characters occurs in another.
* `textOccursIn`: a text occurs in another.
-/

namespace LiveForm

/-- A run of characters occurs in another. -/
def occursIn (part : List Char) : List Char → Bool
  | [] => part.isEmpty
  | c :: cs => part.isPrefixOf (c :: cs) || occursIn part cs

/-- A text occurs in another. -/
def textOccursIn (part whole : String) : Bool := occursIn part.toList whole.toList

end LiveForm
