/-
This file holds the two searches in text by which a scripted backend and a statement log pick
statements out: whether a text contains a pattern, and whether it starts with one.
-/

namespace DocQuery.Text

/-- Whether the pattern stands somewhere in the characters, the empty one everywhere. -/
def occursIn (pattern : List Char) : List Char → Bool
  | [] => pattern.isEmpty
  | first :: rest => pattern.isPrefixOf (first :: rest) || occursIn pattern rest

/-- Whether the text contains the pattern. -/
def contains (text pattern : String) : Bool :=
  occursIn pattern.toList text.toList

/-- Whether the text starts with these characters. -/
def startsWith (text beginning : String) : Bool :=
  beginning.toList.isPrefixOf text.toList

theorem occursIn_iff (pattern text : List Char) :
    occursIn pattern text = true ↔ pattern <:+: text := by
  induction text with
  | nil => simp [occursIn]
  | cons first rest inductionHypothesis =>
    simp only [occursIn, Bool.or_eq_true, List.isPrefixOf_iff_prefix, inductionHypothesis,
      List.infix_cons_iff]

end DocQuery.Text
