/-!
# Labels

The names of a source text with their addresses, in the order of their definitions.
-/

namespace ByteMachine.Source

/-- Names and their addresses. -/
abbrev Labels := List (String × Nat)

/-- The address of the first definition of a name. -/
def Labels.address? (labels : Labels) (name : String) : Option Nat := labels.lookup name

end ByteMachine.Source
