/-
This file holds a text that is put together from left to right.

Every step appends to what is there and changes nothing of it, so a draft is the texts of its
steps in order.
-/

namespace DocQuery

/-- A text in the making. -/
structure Draft where
  text : String
  deriving DecidableEq

namespace Draft

/-- The draft without text. -/
def empty : Draft := ⟨""⟩

/-- Appends a text. -/
def append (draft : Draft) (text : String) : Draft :=
  ⟨draft.text ++ text⟩

/-- Appends a text and a line break. -/
def appendLine (draft : Draft) (text : String) : Draft :=
  (draft.append text).append "\n"

/-- Opens a group. -/
def openGroup (draft : Draft) : Draft :=
  draft.append "("

/-- Closes a group. -/
def closeGroup (draft : Draft) : Draft :=
  draft.append ")"

/-- Ends a statement. -/
def terminate (draft : Draft) : Draft :=
  draft.append ";"

/-- Whether nothing has been appended but empty texts. -/
def isEmpty (draft : Draft) : Bool :=
  draft.text.isEmpty

end Draft

end DocQuery
