/-
This file holds the named parameters of one statement.

The names are in the order in which the statement mentions them first. Two sets of parameters
are equal when they give equal values to the same names, in whatever order.
-/

import DocQuery.Value.Json

namespace DocQuery

/-- The values of the parameters of a statement, by name. -/
abbrev Bindings := Dictionary Value

namespace Bindings

/-- The parameters as a JSON object. -/
def toJson (bindings : Bindings) : Json :=
  .object (Value.entriesToJson bindings.entries)

/-- Whether both give equal values to the same names. -/
def equal (left right : Bindings) : Bool :=
  left.agree Value.equal right

end Bindings

end DocQuery
