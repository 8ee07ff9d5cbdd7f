/-
This file holds statements as sequences of pieces: text that stands as it is, and parameters,
which are written as a dollar sign and their name.

Which parameters a statement mentions, and in which order, is thus known without reading its
text again.
-/

import DocQuery.Text.Draft

namespace DocQuery

/-- A part of the text of a statement. -/
inductive Piece where
  | text (content : String)
  | parameter (name : String)
  deriving DecidableEq

namespace Piece

/-- The text of a piece. -/
def write : Piece → String
  | .text content => content
  | .parameter name => "$" ++ name

/-- The name of a parameter. -/
def parameter? : Piece → Option String
  | .text _ => none
  | .parameter name => some name

/-- The text of pieces in order. -/
def writeAll : List Piece → String
  | [] => ""
  | piece :: rest => piece.write ++ writeAll rest

/-- The names of the parameters among the pieces, in order. -/
def parameters (pieces : List Piece) : List String :=
  pieces.filterMap parameter?

/-- Sequences of pieces in order, with a text between neighbours. -/
def joined (separator : String) (sequences : List (List Piece)) : List Piece :=
  [Piece.text separator].intercalate sequences

/-- The finished text of a statement. -/
def finish (pieces : List Piece) : String :=
  ((Draft.empty.append (writeAll pieces)).terminate).text

/-! ### Pieces in a row -/

@[simp] theorem writeAll_append (left right : List Piece) :
    writeAll (left ++ right) = writeAll left ++ writeAll right := by
  induction left with
  | nil => simp [writeAll]
  | cons piece rest inductionHypothesis =>
    simp [writeAll, inductionHypothesis, String.append_assoc]

@[simp] theorem parameters_append (left right : List Piece) :
    parameters (left ++ right) = parameters left ++ parameters right :=
  List.filterMap_append

theorem finish_eq (pieces : List Piece) : finish pieces = writeAll pieces ++ ";" := by
  simp [finish, Draft.terminate, Draft.append, Draft.empty]

end Piece

end DocQuery
