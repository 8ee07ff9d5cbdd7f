/-
This file proves that no object of a JSON tree that was read from a text has a name twice.

A reading keeps the containers that are still open on a stack. An object among them gets its entries
one by one, and one whose name is there already takes the place of the earlier one. So the names of
every open object are distinct at any time. What is complete is not changed any more, and it is an
item of the innermost open container or the result.
-/

import DocQuery.Json.Reader

namespace DocQuery

namespace Json

/-! ### Trees with distinct names -/

mutual

/-- Whether no name occurs twice in an object of the tree. -/
def HasDistinctNames : Json → Prop
  | .array items => HaveDistinctNames items
  | .object entries => (Entries.names entries).Nodup ∧ HaveDistinctNamesIn entries
  | _ => True

/-- Whether no name occurs twice in an object of the items. -/
def HaveDistinctNames : List Json → Prop
  | [] => True
  | item :: rest => item.HasDistinctNames ∧ HaveDistinctNames rest

/-- Whether no name occurs twice in an object of the items of these entries. -/
def HaveDistinctNamesIn : List (String × Json) → Prop
  | [] => True
  | (_, item) :: rest => item.HasDistinctNames ∧ HaveDistinctNamesIn rest

end

theorem haveDistinctNames_iff (items : List Json) :
    HaveDistinctNames items ↔ ∀ item ∈ items, item.HasDistinctNames := by
  induction items with
  | nil => exact iff_of_true trivial (List.forall_mem_nil _)
  | cons item rest inductionHypothesis =>
    rw [HaveDistinctNames, inductionHypothesis, List.forall_mem_cons]

theorem haveDistinctNamesIn_iff (entries : List (String × Json)) :
    HaveDistinctNamesIn entries ↔ ∀ entry ∈ entries, entry.2.HasDistinctNames := by
  induction entries with
  | nil => exact iff_of_true trivial (List.forall_mem_nil _)
  | cons entry rest inductionHypothesis =>
    rw [HaveDistinctNamesIn, inductionHypothesis, List.forall_mem_cons]

/-- An entry is put into an object, be its name a new one or not. -/
theorem hasDistinctNames_put {entries : List (String × Json)} {value : Json} (name : String)
    (object : (Json.object entries).HasDistinctNames) (complete : value.HasDistinctNames) :
    (Json.object (Entries.put name value entries)).HasDistinctNames := by
  refine ⟨Entries.nodup_names_put name value object.1, ?_⟩
  rw [haveDistinctNamesIn_iff]
  intro entry member
  rcases Entries.mem_put member with rfl | earlier
  · exact complete
  · exact (haveDistinctNamesIn_iff entries).mp object.2 entry earlier

/-! ### Tokens -/

/-- Whether the value of a token, if it has one, has no name twice. -/
def Token.HasDistinctNames : Token → Prop
  | .scalar value => value.HasDistinctNames
  | _ => True

theorem hasDistinctNames_of_value? {numeral : Numeral} {value : Json}
    (written : numeral.value? = some value) : value.HasDistinctNames := by
  simp only [Numeral.value?] at written
  split at written
  · split at written
    · cases written
      trivial
    · split at written <;>
      · cases written
        trivial
  · obtain ⟨number, -, rfl⟩ := Option.map_eq_some_iff.mp written
    trivial

theorem hasDistinctNames_of_readNumber? {negative : Bool} {text rest : List Char} {token : Token}
    (read : readNumber? negative text = some (token, rest)) : token.HasDistinctNames := by
  obtain ⟨⟨numeral, behind⟩, -, valued⟩ := Option.bind_eq_some_iff.mp read
  obtain ⟨value, written, same⟩ := Option.bind_eq_some_iff.mp valued
  cases same
  exact hasDistinctNames_of_value? written

theorem hasDistinctNames_of_nextToken? {text rest : List Char} {token : Token}
    (read : nextToken? text = some (token, rest)) : token.HasDistinctNames := by
  unfold nextToken? at read
  split at read
  case h_7 =>
    obtain ⟨value, -, same⟩ := Option.map_eq_some_iff.mp read
    cases same
    trivial
  case h_11 => exact hasDistinctNames_of_readNumber? read
  case h_12 => exact hasDistinctNames_of_readNumber? read
  all_goals
    cases read
    trivial

theorem hasDistinctNames_of_tokensUpTo? {limit : Nat} {text : List Char} {tokens : List Token}
    (read : tokensUpTo? limit text = some tokens) :
    ∀ token ∈ tokens, token.HasDistinctNames := by
  fun_induction tokensUpTo? limit text generalizing tokens with
  | case1 =>
    cases read
    exact List.forall_mem_nil _
  | case2 => cases read
  | case3 limit text due inductionHypothesis =>
    obtain ⟨⟨token, behind⟩, first, others⟩ := Option.bind_eq_some_iff.mp read
    obtain ⟨rest, later, same⟩ := Option.bind_eq_some_iff.mp others
    cases same
    exact List.forall_mem_cons.mpr
      ⟨hasDistinctNames_of_nextToken? first, inductionHypothesis behind later⟩

/-! ### Readings -/

/-- Whether no object in an open container has a name twice, nor the container itself. -/
def Frame.HasDistinctNames : Frame → Prop
  | .array items => HaveDistinctNames items
  | .object entries => (Json.object entries).HasDistinctNames
  | .member entries _ => (Json.object entries).HasDistinctNames

/-- Whether the result, if there is one, has no name twice. -/
def Stage.HasDistinctNames : Stage → Prop
  | .nothing result => result.HasDistinctNames
  | _ => True

/-- What holds of a reading at any time: no object has a name twice, be it open or complete. -/
structure Reading.HasDistinctNames (reading : Reading) : Prop where
  stack : ∀ frame ∈ reading.stack, frame.HasDistinctNames
  stage : reading.stage.HasDistinctNames

section

variable {reading next : Reading} {token : Token}

theorem hasDistinctNames_completed {value : Json} {stack : List Frame}
    (taken : completed value stack = some next) (opened : ∀ frame ∈ stack, frame.HasDistinctNames)
    (complete : value.HasDistinctNames) : next.HasDistinctNames := by
  unfold completed at taken
  split at taken
  case h_1 =>
    cases taken
    exact ⟨List.forall_mem_nil _, complete⟩
  case h_2 items rest =>
    cases taken
    obtain ⟨array, others⟩ := List.forall_mem_cons.mp opened
    exact ⟨List.forall_mem_cons.mpr ⟨⟨complete, array⟩, others⟩, trivial⟩
  case h_3 entries name rest =>
    cases taken
    obtain ⟨object, others⟩ := List.forall_mem_cons.mp opened
    exact ⟨List.forall_mem_cons.mpr ⟨hasDistinctNames_put name object complete, others⟩, trivial⟩
  case h_4 => cases taken

theorem hasDistinctNames_enter {frame : Frame} {stage : Stage}
    (taken : reading.enter frame stage = some next) (holds : reading.HasDistinctNames)
    (empty : frame.HasDistinctNames) (due : stage.HasDistinctNames) : next.HasDistinctNames := by
  rw [Reading.enter] at taken
  split at taken
  · cases taken
    exact ⟨List.forall_mem_cons.mpr ⟨empty, holds.stack⟩, due⟩
  · cases taken

theorem hasDistinctNames_takeValue (holds : reading.HasDistinctNames)
    (scalar : token.HasDistinctNames) (taken : reading.takeValue token = some next) :
    next.HasDistinctNames := by
  cases token with
  | openArray => exact hasDistinctNames_enter taken holds trivial trivial
  | openObject => exact hasDistinctNames_enter taken holds ⟨List.nodup_nil, trivial⟩ trivial
  | string value => exact hasDistinctNames_completed taken holds.stack trivial
  | scalar value => exact hasDistinctNames_completed taken holds.stack scalar
  | closeArray => cases taken
  | closeObject => cases taken
  | comma => cases taken
  | colon => cases taken

theorem hasDistinctNames_takeName (holds : reading.HasDistinctNames)
    (taken : reading.takeName token = some next) : next.HasDistinctNames := by
  unfold Reading.takeName at taken
  split at taken
  · split at taken
    next stack =>
      cases taken
      obtain ⟨object, others⟩ := List.forall_mem_cons.mp (stack ▸ holds.stack)
      exact ⟨List.forall_mem_cons.mpr ⟨object, others⟩, trivial⟩
    next => cases taken
  · cases taken

theorem hasDistinctNames_close (holds : reading.HasDistinctNames)
    (taken : reading.close token = some next) : next.HasDistinctNames := by
  unfold Reading.close at taken
  split at taken
  · split at taken
    next items rest stack =>
      obtain ⟨array, others⟩ := List.forall_mem_cons.mp (stack ▸ holds.stack)
      have complete : (Json.array items.reverse).HasDistinctNames := by
        rw [Json.HasDistinctNames, haveDistinctNames_iff]
        intro item member
        exact (haveDistinctNames_iff items).mp array item (List.mem_reverse.mp member)
      exact hasDistinctNames_completed taken others complete
    next => cases taken
  · split at taken
    next stack =>
      obtain ⟨object, others⟩ := List.forall_mem_cons.mp (stack ▸ holds.stack)
      exact hasDistinctNames_completed taken others object
    next => cases taken
  · cases taken

theorem hasDistinctNames_step (holds : reading.HasDistinctNames)
    (scalar : token.HasDistinctNames) (taken : reading.step token = some next) :
    next.HasDistinctNames := by
  unfold Reading.step at taken
  split at taken
  · exact hasDistinctNames_takeValue holds scalar taken
  · exact hasDistinctNames_close holds taken
  · exact hasDistinctNames_takeValue holds scalar taken
  · exact hasDistinctNames_takeName holds taken
  · exact hasDistinctNames_close holds taken
  · exact hasDistinctNames_takeName holds taken
  · cases taken
    exact ⟨holds.stack, trivial⟩
  · split at taken <;>
    · cases taken
      exact ⟨holds.stack, trivial⟩
  · exact hasDistinctNames_close holds taken
  · cases taken

theorem hasDistinctNames_foldlM {tokens : List Token} (holds : reading.HasDistinctNames)
    (scalars : ∀ token ∈ tokens, token.HasDistinctNames)
    (run : tokens.foldlM Reading.step reading = some next) : next.HasDistinctNames := by
  induction tokens generalizing reading with
  | nil =>
    cases run
    exact holds
  | cons token rest inductionHypothesis =>
    obtain ⟨first, others⟩ := List.forall_mem_cons.mp scalars
    rw [List.foldlM_cons] at run
    obtain ⟨between, taken, later⟩ := Option.bind_eq_some_iff.mp run
    exact inductionHypothesis (hasDistinctNames_step holds first taken) others later

end

/-- No object of a tree that a text writes has a name twice, even where one of the text has. -/
theorem hasDistinctNames_of_read? {text : String} {tree : Json} (read : read? text = some tree) :
    tree.HasDistinctNames := by
  obtain ⟨tokens, cut, run⟩ := Option.bind_eq_some_iff.mp read
  obtain ⟨reading, taken, result⟩ := Option.bind_eq_some_iff.mp run
  have start : Reading.HasDistinctNames ⟨[], .value⟩ := ⟨List.forall_mem_nil _, trivial⟩
  have holds := hasDistinctNames_foldlM start (hasDistinctNames_of_tokensUpTo? cut) taken
  split at result
  next stage =>
    cases result
    have done := holds.stage
    rw [stage] at done
    exact done
  next => cases result

end Json
end DocQuery
