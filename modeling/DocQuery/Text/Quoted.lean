/-
This file writes texts as string literals of statements.

A literal stands between quotes. Quotes and backslashes inside have a backslash in front, and
line feeds, carriage returns and tabs are written as a backslash and a letter. Every other
character stands for itself.
-/

namespace DocQuery.Text

/-- The characters by which a character of a literal is written. -/
def escapeQuoted (character : Char) : List Char :=
  if character = '"' then ['\\', '"']
  else if character = '\\' then ['\\', '\\']
  else if character = '\n' then ['\\', 'n']
  else if character = '\r' then ['\\', 'r']
  else if character = '\t' then ['\\', 't']
  else [character]

/-- The characters of the literal of a text. -/
def quotedCharacters (text : List Char) : List Char :=
  '"' :: text.flatMap escapeQuoted ++ ['"']

/-- The literal of a text. -/
def quoted (text : String) : String :=
  String.ofList (quotedCharacters text.toList)

end DocQuery.Text
