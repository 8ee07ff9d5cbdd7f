/-
This file gives the values of a statement their parameters.

An assigned value is bound under the name of its field. A compared value is bound under the name
of its field, an underscore and a number. The numbers of a statement ascend, and one whose name is
bound already is skipped, so that a comparison never takes a name from anything else.
-/

import DocQuery.Filter.Condition
import DocQuery.Statement.Piece

namespace DocQuery

/-- The bindings of a statement and the number that its last comparison was given. -/
structure Parameters where
  bindings : Bindings
  lastNumber : Nat

namespace Parameters

/-- The parameters of a statement that has not compared anything. -/
def ofBindings (bindings : Bindings) : Parameters :=
  ⟨bindings, 0⟩

/-- Binds values under the names of their fields. -/
def bindAll (parameters : Parameters) (entries : List (String × Value)) : Parameters :=
  { parameters with bindings := parameters.bindings.insertAll entries }

/-- The name of a comparison of a field under a number. -/
def numbered (field : String) (number : Nat) : String :=
  field ++ "_" ++ Nat.repr number

/-- The first number that is not taken, among the given one and as many after it as the limit
says. -/
def firstFree (taken : Nat → Bool) : Nat → Nat → Nat
  | 0, number => number
  | limit + 1, number => if taken number then firstFree taken limit (number + 1) else number

/-- The number of the next comparison of a field. A name is skipped only if it is bound, so
there are no more skips than bindings. -/
def nextNumber (parameters : Parameters) (field : String) : Nat :=
  firstFree (fun number => parameters.bindings.contains (numbered field number))
    parameters.bindings.size (parameters.lastNumber + 1)

/-- Binds a compared value and tells the name. -/
def bindConstraint (parameters : Parameters) (constraint : Constraint) : String × Parameters :=
  let number := parameters.nextNumber constraint.1
  let name := numbered constraint.1 number
  (name, ⟨parameters.bindings.insert name constraint.2, number⟩)

end Parameters

/-! ### Conditions with their parameters -/

/-- A field and the name of the parameter that it is compared with. -/
abbrev Comparison := String × String

namespace Condition

mutual

/-- Binds the values that a condition compares, in order. -/
def bind : Condition Constraint → Parameters → Condition Comparison × Parameters
  | .compare constraint, parameters =>
    let (name, parameters) := parameters.bindConstraint constraint
    (.compare (constraint.1, name), parameters)
  | .group connective members, parameters =>
    let (members, parameters) := bindMembers members parameters
    (.group connective members, parameters)

/-- Binds the values that conditions compare, in order. -/
def bindMembers : List (Condition Constraint) → Parameters →
    List (Condition Comparison) × Parameters
  | [], parameters => ([], parameters)
  | member :: rest, parameters =>
    let (member, parameters) := bind member parameters
    let (rest, parameters) := bindMembers rest parameters
    (member :: rest, parameters)

end

end Condition

namespace Connective

/-- The text between the members of a group. -/
def separator : Connective → String
  | .and => " AND "
  | .or => " OR "

end Connective

namespace Condition

mutual

/-- The pieces of a condition: every group stands in parentheses. -/
def pieces : Condition Comparison → List Piece
  | .compare comparison => [.text comparison.1, .text " = ", .parameter comparison.2]
  | .group connective members =>
    .text "(" :: Piece.joined connective.separator (piecesOf members) ++ [.text ")"]

/-- The pieces of conditions, each for itself. -/
def piecesOf : List (Condition Comparison) → List (List Piece)
  | [] => []
  | member :: rest => member.pieces :: piecesOf rest

end

end Condition

end DocQuery
