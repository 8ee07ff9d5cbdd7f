/-
This file holds rules for texts that can be read in one way only.

A statement is written part after part, and no part says how long it is. What shows where a part
ends is the mark that comes next: a separator, the keyword of the next clause or the end of the
statement. So a way of writing items tells a feature of them in front of given marks if, whenever
two texts that begin with written items and go on with such a mark are the same, the feature is
the same for both items and what follows the items is the same text.

Each rule below makes a longer way of writing from shorter ones: one part behind the other,
a clause that may be left out, a list with separators. What a rule asks of the marks can be
computed, so nothing has to be said about the characters of a whole text.
-/

import Mathlib.Data.List.Basic
import DocQuery.Text.Integer

namespace DocQuery

/-! ### Marks -/

/-- Whether a text begins with one of the marks. -/
def GoesOn (marks : List String) (text : String) : Prop :=
  ∃ mark ∈ marks, ∃ later, text = mark ++ later

theorem goesOn_head (mark : String) (marks : List String) (later : String) :
    GoesOn (mark :: marks) (mark ++ later) :=
  ⟨mark, List.mem_cons_self, later, rfl⟩

theorem GoesOn.mono {marks more : List String} {text : String} (goesOn : GoesOn marks text)
    (among : marks ⊆ more) : GoesOn more text := by
  obtain ⟨mark, member, later, rfl⟩ := goesOn
  exact ⟨mark, among member, later, rfl⟩

/-- Whether none of the marks begins like the keyword: neither is one of them the beginning of the
keyword, nor the keyword that of one of them. -/
def Apart (keyword : String) (marks : List String) : Prop :=
  ∀ mark ∈ marks, ¬ keyword.toList <+: mark.toList ∧ ¬ mark.toList <+: keyword.toList

instance (keyword : String) (marks : List String) : Decidable (Apart keyword marks) :=
  inferInstanceAs (Decidable (∀ mark ∈ marks,
    ¬ keyword.toList <+: mark.toList ∧ ¬ mark.toList <+: keyword.toList))

theorem Apart.ne_append {keyword : String} {marks : List String} (apart : Apart keyword marks)
    {rest : String} (goesOn : GoesOn marks rest) (text : String) : rest ≠ keyword ++ text := by
  rintro rfl
  obtain ⟨mark, member, later, same⟩ := goesOn
  have characters : keyword.toList ++ text.toList = mark.toList ++ later.toList := by
    rw [← String.toList_append, same, String.toList_append]
  -- Two beginnings of one text: the shorter is the beginning of the longer.
  obtain ⟨notBefore, notBehind⟩ := apart mark member
  rcases List.prefix_or_prefix_of_prefix ⟨text.toList, characters⟩ ⟨later.toList, rfl⟩ with
    before | behind
  · exact notBefore before
  · exact notBehind behind

/-- Whether each of the marks begins with a character that does not continue a run. -/
def EndsRun (continues : Char → Bool) (marks : List String) : Prop :=
  ∀ mark ∈ marks, (mark.toList.head?.any fun character => !continues character) = true

instance (continues : Char → Bool) (marks : List String) : Decidable (EndsRun continues marks) :=
  inferInstanceAs (Decidable (∀ mark ∈ marks,
    (mark.toList.head?.any fun character => !continues character) = true))

/-- What begins with such a mark does not continue a run. -/
theorem EndsRun.head_ends {continues : Char → Bool} {marks : List String}
    (ends : EndsRun continues marks) {rest : String} (goesOn : GoesOn marks rest) :
    ∀ character ∈ rest.toList.head?, continues character = false := by
  obtain ⟨mark, member, later, rfl⟩ := goesOn
  have first := ends mark member
  rw [String.toList_append]
  cases shape : mark.toList with
  | nil =>
    rw [shape] at first
    cases first
  | cons character others =>
    rw [shape, List.head?_cons, Option.any_some, Bool.not_eq_true'] at first
    rintro _ ⟨⟩
    exact first

/-- In front of such a mark a run ends. -/
theorem EndsRun.takeWhile_append {continues : Char → Bool} {marks : List String}
    (ends : EndsRun continues marks) {run rest : String}
    (inside : run.toList.all continues = true) (goesOn : GoesOn marks rest) :
    (run ++ rest).toList.takeWhile continues = run.toList := by
  have first := ends.head_ends goesOn
  rw [String.toList_append, List.takeWhile_append_of_pos (List.all_eq_true.mp inside)]
  cases shape : rest.toList with
  | nil => rw [List.takeWhile_nil, List.append_nil]
  | cons character later =>
    rw [shape] at first
    have closing : ¬ continues character = true := by
      rw [first character rfl]
      exact Bool.false_ne_true
    rw [List.takeWhile_cons_of_neg closing, List.append_nil]

/-! ### Telling a feature -/

variable {Item Part Feature PartFeature : Type}

/-- What is written for valid items tells a feature of them, and where it ends, if one of the marks
follows. -/
def Tells (valid : Item → Prop) (write : Item → String) (feature : Item → Feature)
    (marks : List String) : Prop :=
  ∀ ⦃first second : Item⦄, valid first → valid second → ∀ ⦃rest other : String⦄,
    GoesOn marks rest → GoesOn marks other → write first ++ rest = write second ++ other →
      feature first = feature second ∧ rest = other

namespace Tells

variable {valid : Item → Prop} {write : Item → String} {feature : Item → Feature}
  {marks : List String}

/-- A run of characters tells itself where no mark continues it. -/
theorem run {continues : Char → Bool} (ends : EndsRun continues marks) :
    Tells (fun text => text.toList.all continues = true) id id marks := by
  intro first second firstInside secondInside rest other goesOn otherGoesOn same
  have characters := ends.takeWhile_append firstInside goesOn
  rw [show first ++ rest = second ++ other from same,
    ends.takeWhile_append secondInside otherGoesOn] at characters
  have equal : first = second := (String.toList_inj.mp characters).symm
  subst equal
  exact ⟨rfl, (String.append_right_inj first).mp same⟩

/-- The decimal text of a number tells the number in front of what is not a digit. -/
theorem number (ends : EndsRun Char.isDigit marks) :
    Tells (fun _ => True) Nat.repr id marks := by
  intro first second _ _ rest other goesOn otherGoesOn same
  obtain ⟨texts, rests⟩ := run ends (Text.all_isDigit_repr first) (Text.all_isDigit_repr second)
    goesOn otherGoesOn same
  have value := Text.readDigits?_repr first
  rw [show Nat.repr first = Nat.repr second from texts, Text.readDigits?_repr,
    Option.some_inj] at value
  exact ⟨value.symm, rests⟩

/-- Keywords of which none begins another tell what they stand for, whatever follows them. -/
theorem keyword {keyword : Item → String}
    (apart : ∀ first second, first ≠ second → Apart (keyword first) [keyword second])
    (marks : List String) : Tells (fun _ => True) keyword id marks := by
  intro first second _ _ rest other _ _ same
  by_cases equal : first = second
  · subst equal
    exact ⟨rfl, (String.append_right_inj _).mp same⟩
  · exact absurd same.symm
      ((apart first second equal).ne_append (goesOn_head (keyword second) [] other) rest)

/-- One of two ways of writing, if what is written in one way never begins like what is written in
the other. -/
theorem either {partValid : Part → Prop} {partWrite : Part → String}
    {partFeature : Part → PartFeature} (left : Tells valid write feature marks)
    (right : Tells partValid partWrite partFeature marks)
    (differ : ∀ item part, valid item → partValid part →
      ∀ rest other, write item ++ rest ≠ partWrite part ++ other) :
    Tells (Sum.elim valid partValid) (Sum.elim write partWrite) (Sum.map feature partFeature)
      marks := by
  rintro (first | first) (second | second) firstValid secondValid rest other goesOn otherGoesOn same
  · obtain ⟨features, rests⟩ := left firstValid secondValid goesOn otherGoesOn same
    exact ⟨congrArg Sum.inl features, rests⟩
  · exact absurd same (differ first second firstValid secondValid rest other)
  · exact absurd same.symm (differ second first secondValid firstValid other rest)
  · obtain ⟨features, rests⟩ := right firstValid secondValid goesOn otherGoesOn same
    exact ⟨congrArg Sum.inr features, rests⟩

/-- One way of writing for another: each item is written like a part of it, whose feature decides
what is asked for. -/
theorem transfer {partValid : Part → Prop} {partWrite : Part → String}
    {partFeature : Part → PartFeature} (tells : Tells partValid partWrite partFeature marks)
    (part : Item → Part) (isValid : ∀ item, valid item → partValid (part item))
    (text : ∀ item, valid item → write item = partWrite (part item))
    (decides : ∀ first second, valid first → valid second →
      partFeature (part first) = partFeature (part second) → feature first = feature second) :
    Tells valid write feature marks := by
  intro first second firstValid secondValid rest other goesOn otherGoesOn same
  rw [text first firstValid, text second secondValid] at same
  obtain ⟨features, rests⟩ :=
    tells (isValid first firstValid) (isValid second secondValid) goesOn otherGoesOn same
  exact ⟨decides first second firstValid secondValid features, rests⟩

/-- What tells a part tells every item of which this is a part. -/
theorem comap {partValid : Part → Prop} {partWrite : Part → String}
    {partFeature : Part → PartFeature} (tells : Tells partValid partWrite partFeature marks)
    (part : Item → Part) (isValid : ∀ item, valid item → partValid (part item)) :
    Tells valid (fun item => partWrite (part item)) (fun item => partFeature (part item)) marks :=
  tells.transfer part isValid (fun _ _ => rfl) fun _ _ _ _ same => same

/-- Whatever is written like a part tells at least its own text. -/
theorem text {partValid : Part → Prop} {partWrite : Part → String}
    {partFeature : Part → PartFeature} (tells : Tells partValid partWrite partFeature marks)
    (isPart : ∀ item, valid item → ∃ part, partValid part ∧ write item = partWrite part) :
    Tells valid write write marks := by
  intro first second firstValid secondValid rest other goesOn otherGoesOn same
  obtain ⟨part, partIsValid, partText⟩ := isPart first firstValid
  obtain ⟨otherPart, otherIsValid, otherText⟩ := isPart second secondValid
  have partSame := same
  rw [partText, otherText] at partSame
  have rests := (tells partIsValid otherIsValid goesOn otherGoesOn partSame).2
  subst rests
  exact ⟨(String.append_left_inj rest).mp same, rfl⟩

/-- The same text in front of every item tells nothing more. -/
theorem behind (tells : Tells valid write feature marks) (keyword : String) :
    Tells valid (fun item => keyword ++ write item) feature marks := by
  intro first second firstValid secondValid rest other goesOn otherGoesOn same
  rw [String.append_assoc, String.append_assoc, String.append_right_inj] at same
  exact tells firstValid secondValid goesOn otherGoesOn same

/-- One part behind the other. What is written for the second one, and the mark behind it, must be
the mark that the first one needs. -/
theorem append {later : Item → String} {laterFeature : Item → PartFeature}
    {between : List String} (front : Tells valid write feature between)
    (back : Tells valid later laterFeature marks)
    (opens : ∀ item rest, valid item → GoesOn marks rest → GoesOn between (later item ++ rest)) :
    Tells valid (fun item => write item ++ later item)
      (fun item => (feature item, laterFeature item)) marks := by
  intro first second firstValid secondValid rest other goesOn otherGoesOn same
  rw [String.append_assoc, String.append_assoc] at same
  obtain ⟨features, laterSame⟩ := front firstValid secondValid
    (opens first rest firstValid goesOn) (opens second other secondValid otherGoesOn) same
  obtain ⟨laterFeatures, rests⟩ := back firstValid secondValid goesOn otherGoesOn laterSame
  exact ⟨Prod.ext features laterFeatures, rests⟩

/-- One part behind the other with a text between them, which is the mark of the first one. -/
theorem thenBehind {keyword : String} {later : Item → String} {laterFeature : Item → PartFeature}
    (front : Tells valid write feature [keyword]) (back : Tells valid later laterFeature marks) :
    Tells valid (fun item => write item ++ (keyword ++ later item))
      (fun item => (feature item, laterFeature item)) marks :=
  front.append (back.behind keyword) fun item rest _ _ => by
    rw [String.append_assoc]
    exact goesOn_head keyword [] _

/-- A closing text is a mark of its own, whatever follows it. -/
theorem closed {closing : String} (tells : Tells valid write feature [closing])
    (marks : List String) : Tells valid (fun item => write item ++ closing) feature marks := by
  intro first second firstValid secondValid rest other _ _ same
  rw [String.append_assoc, String.append_assoc] at same
  obtain ⟨features, rests⟩ := tells firstValid secondValid (goesOn_head closing [] rest)
    (goesOn_head closing [] other) same
  exact ⟨features, (String.append_right_inj closing).mp rests⟩

end Tells

/-! ### Clauses -/

/-- A part behind its keyword, if there is one. -/
def clauseText (keyword : String) (write : Part → String) : Option Part → String
  | none => ""
  | some part => keyword ++ write part

theorem goesOn_clauseText (keyword : String) (write : Part → String) (part : Option Part)
    {marks : List String} {rest : String} (goesOn : GoesOn marks rest) :
    GoesOn (keyword :: marks) (clauseText keyword write part ++ rest) := by
  cases part with
  | none =>
    rw [clauseText, String.empty_append]
    exact goesOn.mono (List.subset_cons_self keyword marks)
  | some part =>
    rw [clauseText, String.append_assoc]
    exact goesOn_head keyword marks _

namespace Tells

variable {valid : Item → Prop} {write : Item → String} {feature : Item → Feature}
  {marks : List String}

/-- A clause that may be left out is seen from its keyword. -/
theorem clause (tells : Tells valid write feature marks) {keyword : String}
    (apart : Apart keyword marks) :
    Tells (fun part => ∀ item ∈ part, valid item) (clauseText keyword write)
      (Option.map feature) marks := by
  intro first second firstValid secondValid rest other goesOn otherGoesOn same
  cases first with
  | none =>
    cases second with
    | none => exact ⟨rfl, by simpa [clauseText] using same⟩
    | some second =>
      rw [clauseText, clauseText, String.empty_append, String.append_assoc] at same
      exact absurd same (apart.ne_append goesOn _)
  | some first =>
    cases second with
    | none =>
      rw [clauseText, clauseText, String.empty_append, String.append_assoc] at same
      exact absurd same.symm (apart.ne_append otherGoesOn _)
    | some second =>
      obtain ⟨features, rests⟩ := tells.behind keyword (firstValid first rfl)
        (secondValid second rfl) goesOn otherGoesOn same
      exact ⟨congrArg some features, rests⟩

/-- A clause behind other parts. -/
theorem thenClause {keyword : String} (front : Tells valid write feature (keyword :: marks))
    {partValid : Part → Prop} {partWrite : Part → String} {partFeature : Part → PartFeature}
    (tells : Tells partValid partWrite partFeature marks) (apart : Apart keyword marks)
    (part? : Item → Option Part)
    (isValid : ∀ item, valid item → ∀ part ∈ part? item, partValid part) :
    Tells valid (fun item => write item ++ clauseText keyword partWrite (part? item))
      (fun item => (feature item, (part? item).map partFeature)) marks :=
  front.append ((tells.clause apart).comap part? isValid)
    fun item _ _ goesOn => goesOn_clauseText keyword partWrite (part? item) goesOn

end Tells

/-! ### Lists -/

/-- Parts behind one another, each with a separator in front. -/
def laterText (separator : String) (write : Item → String) : List Item → String
  | [] => ""
  | item :: rest => separator ++ (write item ++ laterText separator write rest)

/-- A list is its first text and then the others, each with the separator in front. -/
theorem toList_intercalate (separator first : String) (others : List String) :
    (String.intercalate separator (first :: others)).toList =
      first.toList ++ others.flatMap fun text => separator.toList ++ text.toList := by
  induction others generalizing first with
  | nil => rw [String.intercalate_singleton, List.flatMap_nil, List.append_nil]
  | cons second others inductionHypothesis =>
    rw [String.intercalate_cons_cons, String.toList_append, String.toList_append,
      inductionHypothesis, List.append_assoc, List.flatMap_cons, List.append_assoc]

theorem goesOn_laterText (separator : String) (write : Item → String) (items : List Item)
    {marks : List String} {rest : String} (goesOn : GoesOn marks rest) :
    GoesOn (separator :: marks) (laterText separator write items ++ rest) := by
  cases items with
  | nil =>
    rw [laterText, String.empty_append]
    exact goesOn.mono (List.subset_cons_self separator marks)
  | cons item later =>
    rw [laterText, String.append_assoc]
    exact goesOn_head separator marks _

theorem laterText_cons (separator : String) (write : Item → String) (item : Item)
    (rest : List Item) :
    laterText separator write (item :: rest) =
      separator ++ String.intercalate separator ((item :: rest).map write) := by
  induction rest generalizing item with
  | nil =>
    rw [laterText, laterText, String.append_empty, List.map_singleton, String.intercalate_singleton]
  | cons next others inductionHypothesis =>
    rw [laterText, inductionHypothesis]
    simp only [List.map_cons, String.intercalate_cons_cons, String.append_assoc]

namespace Tells

variable {valid : Item → Prop} {write : Item → String} {feature : Item → Feature}
  {marks : List String}

theorem repeated {separator : String} (tells : Tells valid write feature (separator :: marks))
    (apart : Apart separator marks) :
    Tells (fun items => ∀ item ∈ items, valid item) (laterText separator write)
      (List.map feature) marks := by
  intro first second firstValid secondValid rest other goesOn otherGoesOn same
  -- A list that has ended goes on with a mark, and one that has not goes on with the separator.
  induction first generalizing second with
  | nil =>
    cases second with
    | nil => exact ⟨rfl, by simpa [laterText] using same⟩
    | cons item later =>
      rw [laterText, laterText, String.empty_append, String.append_assoc] at same
      exact absurd same (apart.ne_append goesOn _)
  | cons item items inductionHypothesis =>
    cases second with
    | nil =>
      rw [laterText, laterText, String.empty_append, String.append_assoc] at same
      exact absurd same.symm (apart.ne_append otherGoesOn _)
    | cons otherItem otherItems =>
      rw [List.forall_mem_cons] at firstValid secondValid
      simp only [laterText, String.append_assoc, String.append_right_inj] at same
      obtain ⟨features, laterSame⟩ := tells firstValid.1 secondValid.1
        (goesOn_laterText separator write items goesOn)
        (goesOn_laterText separator write otherItems otherGoesOn) same
      obtain ⟨laterFeatures, rests⟩ :=
        inductionHypothesis firstValid.2 secondValid.2 laterSame
      exact ⟨congrArg₂ List.cons features laterFeatures, rests⟩

/-- A list that is not empty, with a separator between neighbours. -/
theorem separated {separator : String} (tells : Tells valid write feature (separator :: marks))
    (apart : Apart separator marks) :
    Tells (fun items => items ≠ [] ∧ ∀ item ∈ items, valid item)
      (fun items => String.intercalate separator (items.map write)) (List.map feature) marks := by
  have later {items : List Item} (nonempty : items ≠ []) : laterText separator write items =
      separator ++ String.intercalate separator (items.map write) := by
    obtain ⟨item, rest, rfl⟩ := List.exists_cons_of_ne_nil nonempty
    exact laterText_cons separator write item rest
  -- With one more separator in front, the list is one of parts behind separators.
  intro first second firstValid secondValid rest other goesOn otherGoesOn same
  refine tells.repeated apart firstValid.2 secondValid.2 goesOn otherGoesOn ?_
  rw [later firstValid.1, later secondValid.1, String.append_assoc, String.append_assoc]
  exact congrArg (separator ++ ·) same

end Tells

end DocQuery
