/-
This file says what the text of each kind of query is made of.

A select and an update have a clause for their filter between two parts that the filter does not
reach. What a statement binds before its clause are the assignments, and what it binds after is
nothing.
-/

import DocQuery.Statement.Compiled

namespace DocQuery

namespace Statement

/-- A select whose columns can be listed is its columns and its table, its filter and its tail. -/
theorem serialize_select (schema : Schema) {table : String} (named : table ≠ "") (query : Select)
    {columns : String} (listed : query.projection.columns table = .ok columns)
    (initial : Bindings) :
    (select table query).serialize schema initial =
      (.ok ("SELECT " ++ columns ++ " FROM " ++ table ++
          Piece.writeAll (Filter.clause query.filter (Parameters.ofBindings initial)).1 ++
          query.tail ++ ";"),
        (Filter.clause query.filter (Parameters.ofBindings initial)).2.bindings) := by
  rw [serialize, write, if_neg (by exact named)]
  simp only [Select.write, listed, Except.map, Piece.finish_eq, Piece.writeAll, Piece.write,
    Piece.writeAll_append, List.cons_append, String.append_assoc, String.append_empty]

/-- The text of assignments. -/
def assignmentsText (query : Update) : String :=
  Piece.writeAll (Piece.joined ", " (query.assignments.names.map Update.assignment))

/-- The parameters of an update before its filter. -/
def assigned (query : Update) (initial : Bindings) : Parameters :=
  (Parameters.ofBindings initial).bindAll query.assignments.entries

/-- An update that assigns something is its table and its assignments, its filter and its
tail. -/
theorem serialize_update (schema : Schema) {table : String} (named : table ≠ "") (query : Update)
    (assigns : query.assignments.isEmpty = false) (initial : Bindings) :
    (update table query).serialize schema initial =
      (.ok ("UPDATE " ++ table ++ " SET " ++ assignmentsText query ++
          Piece.writeAll (Filter.clause query.filter (assigned query initial)).1 ++
          query.tail ++ ";"),
        (Filter.clause query.filter (assigned query initial)).2.bindings) := by
  rw [serialize, write, if_neg (by exact named)]
  simp only [Update.write, assigns, Bool.false_eq_true, if_false, assigned, assignmentsText,
    Except.map, Piece.finish_eq, Piece.writeAll, Piece.write, Piece.writeAll_append,
    List.cons_append, String.append_assoc, String.append_empty]

end Statement

end DocQuery
