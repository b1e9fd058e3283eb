/-!
# Searches for patterns

Whether a pattern occurs in a text is left to a search, of which nothing is assumed here.

* `Pattern.Search`: what a search gives.
-/

namespace LiveForm.Pattern

/-- An error, other than one about the form of a pattern, that breaks off a search and what asked
for it. -/
structure Interruption where
  className : String
  deriving DecidableEq

/-- Why a search gives no answer. -/
inductive Fault where
  /-- The text is no pattern. -/
  | malformed
  | interrupted (cause : Interruption)

/-- A search tells whether a pattern occurs in a text. -/
abbrev Search := (pattern text : String) → Except Fault Bool

end LiveForm.Pattern
