/-
This file proves that every parameter that a statement mentions stands for the value that was
given for it.

Two kinds of names share the bindings of a statement. Assigned values are bound under the names of
their fields, which may have been bound before and then keep their place; compared values are bound
behind them under numbered names, which never are. So an assignment may replace what was there
at the start, but nothing that a statement binds is replaced by the same statement, and
a name that is mentioned is found with its value in the end.
-/

import DocQuery.Proofs.Numbering

namespace DocQuery

/-! ### The names of comparisons -/

namespace Parameters

/-- The names of comparisons that are bound one after the other. -/
def constraintNames (parameters : Parameters) : List Constraint → List String
  | [] => []
  | constraint :: rest =>
    (parameters.bindConstraint constraint).1 ::
      (parameters.bindConstraint constraint).2.constraintNames rest

theorem constraintNames_append (parameters : Parameters) (left right : List Constraint) :
    parameters.constraintNames (left ++ right) =
      parameters.constraintNames left ++
        (parameters.bindConstraints left).constraintNames right := by
  induction left generalizing parameters with
  | nil => rfl
  | cons constraint rest inductionHypothesis =>
    rw [List.cons_append, constraintNames, constraintNames, inductionHypothesis,
      bindConstraints, List.cons_append]

/-- Comparisons add their names to what is bound, in order. -/
theorem names_bindConstraints (parameters : Parameters) (constraints : List Constraint) :
    (parameters.bindConstraints constraints).bindings.names =
      parameters.bindings.names ++ parameters.constraintNames constraints := by
  induction constraints generalizing parameters with
  | nil => exact (List.append_nil _).symm
  | cons constraint rest inductionHypothesis =>
    have first : (parameters.bindConstraint constraint).2.bindings.names =
        parameters.bindings.names ++ [(parameters.bindConstraint constraint).1] := by
      rw [Dictionary.names, entries_bindConstraint, Entries.names_append]
      rfl
    rw [bindConstraints, inductionHypothesis, first, constraintNames, List.append_assoc,
      List.singleton_append]

/-- The names of comparisons are those of their numbered entries. -/
theorem constraintNames_eq {parameters : Parameters} {constraints : List Constraint}
    {numbers : List Nat}
    (entries : (parameters.bindConstraints constraints).bindings.entries =
      parameters.bindings.entries ++ numberedEntries constraints numbers) :
    parameters.constraintNames constraints =
      Entries.names (numberedEntries constraints numbers) := by
  have names := parameters.names_bindConstraints constraints
  rw [Dictionary.names, entries, Entries.names_append] at names
  exact (List.append_cancel_left names).symm

/-- The entries of comparisons hold the values that are compared, in order. -/
theorem Numbering.values_eq {bound : List String} {last : Nat} {constraints : List Constraint}
    {numbers : List Nat} (numbering : Numbering bound last constraints numbers) :
    (numberedEntries constraints numbers).map Prod.snd = constraints.map Prod.snd := by
  induction numbering with
  | nil last => rfl
  | cons least later inductionHypothesis =>
    rw [numberedEntries, List.zipWith_cons_cons, List.map_cons, List.map_cons,
      ← inductionHypothesis]
    rfl

end Parameters

/-- Where names do not repeat, some of the entries are found under their names. -/
theorem Entries.map_find?_names {Item : Type} {part entries : List (String × Item)}
    (distinct : (names entries).Nodup) (among : part ⊆ entries) :
    (names part).map (fun name => find? name entries) = part.map fun entry => some entry.2 := by
  rw [names, List.map_map]
  exact List.map_congr_left fun entry member => find?_of_mem distinct (among member)

/-! ### The parameters among the pieces -/

theorem Piece.parameters_cons_text (content : String) (pieces : List Piece) :
    parameters (text content :: pieces) = parameters pieces := rfl

theorem Piece.parameters_joined (separator : String) (sequences : List (List Piece)) :
    parameters (joined separator sequences) = sequences.flatMap parameters := by
  match sequences with
  | [] => rfl
  | [single] => rw [joined, List.intercalate_singleton, List.flatMap_singleton]
  | first :: second :: rest =>
    have later := parameters_joined separator (second :: rest)
    have between : parameters [text separator] = [] := rfl
    rw [joined] at later
    rw [joined, List.intercalate_cons_cons, parameters_append, parameters_append, later, between,
      List.append_nil]
    rfl

namespace Condition

mutual

/-- A bound condition mentions the names of its comparisons, in order. -/
theorem parameters_pieces_bind : (condition : Condition Constraint) → (parameters : Parameters) →
    Piece.parameters (condition.bind parameters).1.pieces =
      parameters.constraintNames condition.leaves
  | .compare constraint, parameters => by
    rw [bind, leaves, Parameters.constraintNames, Parameters.constraintNames]
    rfl
  | .group connective members, parameters => by
    have inner := parameters_piecesOf_bindMembers members parameters
    rw [bind, leaves, ← inner, ← Piece.parameters_joined connective.separator]
    dsimp only
    rw [pieces, Piece.parameters_append]
    exact List.append_nil _

theorem parameters_piecesOf_bindMembers : (members : List (Condition Constraint)) →
    (parameters : Parameters) →
    (piecesOf (bindMembers members parameters).1).flatMap Piece.parameters =
      parameters.constraintNames (leavesOf members)
  | [], _ => rfl
  | member :: rest, parameters => by
    rw [bindMembers, leavesOf, Parameters.constraintNames_append, ← bind_snd,
      ← parameters_pieces_bind member parameters, ← parameters_piecesOf_bindMembers rest]
    dsimp only
    rw [piecesOf, List.flatMap_cons]

end

end Condition

/-- The constraints of a filter, if there is one. -/
def Filter.constraints? (filter : Option Filter) : List Constraint :=
  (filter.map constraints).getD []

theorem Filter.clause_eq (filter : Option Filter) (parameters : Parameters) :
    Piece.parameters (clause filter parameters).1 =
        parameters.constraintNames (constraints? filter) ∧
      (clause filter parameters).2 = parameters.bindConstraints (constraints? filter) := by
  cases filter with
  | none => exact ⟨rfl, rfl⟩
  | some filter =>
    refine ⟨?_, clause_snd filter parameters⟩
    rw [clause, Option.bind_some, constraints?, Option.map_some, Option.getD_some,
      ← leaves_condition? filter]
    cases filter.condition? with
    | none => rfl
    | some condition => exact condition.parameters_pieces_bind parameters

/-! ### What a statement is given -/

namespace Statement

/-- The values that a statement assigns or stores, by the names of their fields. -/
def stored : Statement → List (String × Value)
  | update _ query => query.assignments.entries
  | create _ query => query.content.entries
  | _ => []

/-- The values that a statement compares, by the names of their fields. -/
def compared : Statement → List Constraint
  | select _ query => Filter.constraints? query.filter
  | update _ query => Filter.constraints? query.filter
  | _ => []

theorem nodup_names_stored (statement : Statement) :
    (Entries.names statement.stored).Nodup := by
  cases statement with
  | update table query => exact query.assignments.distinct
  | create table query => exact query.content.distinct
  | _ => exact List.nodup_nil

/-- Sequences that mention one name each mention these names. -/
theorem parameters_joined_map (separator : String) (pieces : String → List Piece)
    (single : ∀ name, Piece.parameters (pieces name) = [name]) (names : List String) :
    Piece.parameters (Piece.joined separator (names.map pieces)) = names := by
  rw [Piece.parameters_joined, List.flatMap_map, List.flatMap_congr fun name _ => single name,
    List.flatMap_singleton']

theorem ofDefinition_eq_ok {definition : Except Error String} {parameters final : Parameters}
    {pieces : List Piece} (written : ofDefinition definition parameters = (.ok pieces, final)) :
    Piece.parameters pieces = [] ∧ final = parameters := by
  cases definition with
  | error error => cases written
  | ok text =>
    cases written
    exact ⟨rfl, rfl⟩

theorem select_eq_ok {table : String} {query : Select} {parameters final : Parameters}
    {pieces : List Piece} (written : query.write table parameters = (.ok pieces, final)) :
    Piece.parameters pieces = parameters.constraintNames (Filter.constraints? query.filter) ∧
      final = parameters.bindConstraints (Filter.constraints? query.filter) := by
  obtain ⟨names, bound⟩ := Filter.clause_eq query.filter parameters
  rw [Select.write] at written
  split at written
  · cases written
  · cases written
    rw [← names, ← bound, Piece.parameters_append]
    exact ⟨List.append_nil _, rfl⟩

theorem update_eq_ok {table : String} {query : Update} {parameters final : Parameters}
    {pieces : List Piece} (written : query.write table parameters = (.ok pieces, final)) :
    Piece.parameters pieces = query.assignments.names ++
        (parameters.bindAll query.assignments.entries).constraintNames
          (Filter.constraints? query.filter) ∧
      final = (parameters.bindAll query.assignments.entries).bindConstraints
        (Filter.constraints? query.filter) := by
  obtain ⟨names, bound⟩ :=
    Filter.clause_eq query.filter (parameters.bindAll query.assignments.entries)
  have assigned :=
    parameters_joined_map ", " Update.assignment (fun _ => rfl) query.assignments.names
  rw [Update.write] at written
  split at written
  · cases written
  · cases written
    rw [← names, ← bound, Piece.parameters_append, Piece.parameters_append,
      Piece.parameters_cons_text, assigned]
    exact ⟨List.append_nil _, rfl⟩

theorem create_eq_ok {table : String} {query : Create} {parameters final : Parameters}
    {pieces : List Piece} (written : query.write table parameters = (.ok pieces, final)) :
    Piece.parameters pieces = query.content.names ∧
      final = parameters.bindAll query.content.entries := by
  have stored := parameters_joined_map ", " Create.member (fun _ => rfl) query.content.names
  rw [Create.write] at written
  split at written
  · rename_i empty
    cases written
    have none : query.content.entries = [] := List.isEmpty_iff.mp empty
    rw [Dictionary.names, none]
    exact ⟨rfl, rfl⟩
  · cases written
    rw [Piece.parameters_append, Piece.parameters_cons_text, stored]
    exact ⟨List.append_nil _, rfl⟩

/-- A statement that is written mentions the names of its assignments and then those of its
comparisons, and binds them in this order. -/
theorem write_eq_ok {schema : Schema} {statement : Statement} {parameters final : Parameters}
    {pieces : List Piece} (written : statement.write schema parameters = (.ok pieces, final)) :
    Piece.parameters pieces = Entries.names statement.stored ++
        (parameters.bindAll statement.stored).constraintNames statement.compared ∧
      final = (parameters.bindAll statement.stored).bindConstraints statement.compared := by
  rw [write.eq_def] at written
  split at written
  · cases written
  · cases statement with
    | defineTable table => exact ofDefinition_eq_ok written
    | defineField table field => exact ofDefinition_eq_ok written
    | defineIndex table field => exact ofDefinition_eq_ok written
    | select table query => exact select_eq_ok written
    | update table query => exact update_eq_ok written
    | create table query =>
      obtain ⟨names, bound⟩ := create_eq_ok written
      exact ⟨names.trans (List.append_nil _).symm, bound⟩

/-- What a statement assigns is bound before it compares anything. -/
theorem stored_subset (statement : Statement) (initial : Bindings) :
    statement.stored ⊆ (initial.insertAll statement.stored).entries := fun _ member =>
  Entries.mem_of_find? (initial.find?_insertAll_of_mem statement.nodup_names_stored member)

theorem serialize_eq_ok {schema : Schema} {statement : Statement} {initial final : Bindings}
    {sent : String} (serialized : statement.serialize schema initial = (.ok sent, final)) :
    ∃ pieces parameters,
      statement.write schema (Parameters.ofBindings initial) = (.ok pieces, parameters) ∧
      sent = Piece.writeAll pieces ++ ";" ∧ final = parameters.bindings := by
  rcases written : statement.write schema (Parameters.ofBindings initial) with
    ⟨error | pieces, parameters⟩
  · rw [serialize, written] at serialized
    cases serialized
  · rw [serialize, written] at serialized
    cases serialized
    exact ⟨pieces, parameters, rfl, Piece.finish_eq pieces, rfl⟩

section Bound

variable {statement : Statement} {initial final : Bindings} {numbers : List Nat}
  (entries : final.entries = (initial.insertAll statement.stored).entries ++
    Parameters.numberedEntries statement.compared numbers)

include entries

/-- Numbered names are put behind all that was bound, and therefore are new. -/
theorem numbered_fresh :
    (Entries.names (Parameters.numberedEntries statement.compared numbers)).Nodup ∧
      ∀ name ∈ Entries.names (Parameters.numberedEntries statement.compared numbers),
        name ∉ (initial.insertAll statement.stored).names := by
  have distinct := final.distinct
  rw [entries, Entries.names_append, List.nodup_append] at distinct
  exact ⟨distinct.2.1, fun name member earlier => distinct.2.2 name earlier name member rfl⟩

theorem nodup_mentioned :
    (Entries.names (statement.stored ++
      Parameters.numberedEntries statement.compared numbers)).Nodup := by
  obtain ⟨nodup, fresh⟩ := numbered_fresh entries
  rw [Entries.names_append, List.nodup_append]
  refine ⟨statement.nodup_names_stored, nodup, ?_⟩
  rintro name given other member rfl
  obtain ⟨entry, among, rfl⟩ := List.mem_map.mp given
  exact fresh entry.1 member
    (List.mem_map_of_mem (statement.stored_subset initial among))

/-- Assignments and comparisons are found under the names by which they are mentioned. -/
theorem map_find?_mentioned
    (numbering : Parameters.Numbering (initial.insertAll statement.stored).names 0
      statement.compared numbers) :
    (Entries.names (statement.stored ++
        Parameters.numberedEntries statement.compared numbers)).map final.find? =
      (statement.stored ++ statement.compared).map fun entry => some entry.2 := by
  have among : statement.stored ++ Parameters.numberedEntries statement.compared numbers ⊆
      final.entries := by
    rw [entries]
    exact List.append_subset.mpr ⟨List.subset_append_of_subset_left _
      (statement.stored_subset initial), List.subset_append_right _ _⟩
  have found := Entries.map_find?_names final.distinct among
  have values := congrArg (List.map some) numbering.values_eq
  rw [List.map_map, List.map_map] at values
  refine found.trans ?_
  rw [List.map_append, List.map_append]
  exact congrArg _ values

/-- What was bound at the start and is not assigned is still there. -/
theorem find?_kept
    {name : String} {value : Value} (found : initial.find? name = some value)
    (other : name ∉ Entries.names statement.stored) : final.find? name = some value := by
  have bound : (initial.insertAll statement.stored).find? name = some value := by
    rw [initial.find?_insertAll_other other, found]
  refine Entries.find?_of_mem final.distinct ?_
  rw [entries]
  exact List.mem_append_left _ (Entries.mem_of_find? bound)

/-- Names that were there keep their places, and the new ones come behind them. -/
theorem names_bound :
    final.names = initial.names ++
      (Entries.names (statement.stored ++
        Parameters.numberedEntries statement.compared numbers)).filter
          fun name => decide (name ∉ initial.names) := by
  have assigned := initial.names_insertAll statement.nodup_names_stored
  have numbered : (Entries.names (Parameters.numberedEntries statement.compared numbers)).filter
        (fun name => decide (name ∉ initial.names)) =
      Entries.names (Parameters.numberedEntries statement.compared numbers) := by
    refine List.filter_eq_self.mpr fun name member => decide_eq_true fun earlier => ?_
    refine (numbered_fresh entries).2 name member ?_
    rw [assigned]
    exact List.mem_append_left _ earlier
  rw [Entries.names_append, List.filter_append, numbered, ← List.append_assoc, ← assigned,
    Dictionary.names, entries, Entries.names_append, Dictionary.names]

end Bound

/-- The parameters of a statement, with or without bindings at the start, whatever these hold. They
are the names of its assignments in order, then those of its comparisons in order, which have the
least numbers that ascend and are free beside the assignments. Looked up in the end, they give the
values of the assignments and of the comparisons, each in its place, and no two of them are the
same. What was bound at the start and is not assigned is still there, every name that was there
keeps its place, and the new ones come behind them as they are mentioned. -/
theorem parameters_resolve {schema : Schema} {statement : Statement} {initial final : Bindings}
    {sent : String} (serialized : statement.serialize schema initial = (.ok sent, final)) :
    ∃ (pieces : List Piece) (numbers : List Nat),
      (statement.write schema (Parameters.ofBindings initial)).1 = .ok pieces ∧
      sent = Piece.writeAll pieces ++ ";" ∧
      Parameters.Numbering (initial.insertAll statement.stored).names 0 statement.compared
        numbers ∧
      Piece.parameters pieces = Entries.names statement.stored ++
        Entries.names (Parameters.numberedEntries statement.compared numbers) ∧
      (Piece.parameters pieces).map final.find? =
        (statement.stored ++ statement.compared).map (fun entry => some entry.2) ∧
      (Piece.parameters pieces).Nodup ∧
      (∀ name value, initial.find? name = some value →
        name ∉ Entries.names statement.stored → final.find? name = some value) ∧
      final.names = initial.names ++
        (Piece.parameters pieces).filter fun name => decide (name ∉ initial.names) := by
  -- Everything follows from the entries: what was bound with the assignments, then the comparisons.
  obtain ⟨pieces, parameters, written, text, bound⟩ := serialize_eq_ok serialized
  obtain ⟨mentioned, grown⟩ := write_eq_ok written
  obtain ⟨numbers, numbering, entries⟩ :=
    (Parameters.GrownFrom.refl
      ((Parameters.ofBindings initial).bindAll statement.stored)).exists_numbering
        statement.compared
  rw [Parameters.constraintNames_eq entries, ← Entries.names_append] at mentioned
  rw [← grown, ← bound] at entries
  refine ⟨pieces, numbers, by rw [written], text, numbering, ?_, ?_, ?_, ?_, ?_⟩
  · rw [mentioned, Entries.names_append]
  · rw [mentioned]
    exact map_find?_mentioned entries numbering
  · rw [mentioned]
    exact nodup_mentioned entries
  · exact fun name value found other => find?_kept entries found other
  · rw [mentioned]
    exact names_bound entries

/-- An update that assigns a field whose name looks like that of a comparison. -/
def clashing : Statement :=
  .update "User" ⟨Dictionary.ofList [("name_1", .int 1), ("age", .int 2)],
    some ⟨Dictionary.ofList [("name", .int 3), ("age", .int 4)], [], []⟩, none, Options.unset⟩

/-- Bindings that hold an assigned name, and one that a comparison would have got. -/
def clashingBindings : Bindings :=
  Dictionary.ofList [("name_2", .int 5), ("age", .int 6)]

/-- The comparisons get the numbers 3 and 4, since the names with 1 and 2 are taken. -/
theorem parameters_resolve_clashing :
    ∃ final pieces,
      clashing.serialize ⟨Dictionary.empty⟩ clashingBindings =
        (.ok ("UPDATE User SET name_1 = $name_1, age = $age " ++
          "WHERE (name = $name_3 AND age = $age_4);"), final) ∧
      Piece.writeAll pieces ++ ";" = "UPDATE User SET name_1 = $name_1, age = $age " ++
        "WHERE (name = $name_3 AND age = $age_4);" ∧
      final.names = ["name_2", "age", "name_1", "name_3", "age_4"] ∧
      (Piece.parameters pieces).map final.find? =
        [some (.int 1), some (.int 2), some (.int 3), some (.int 4)] ∧
      final.find? "name_2" = some (.int 5) := by
  have serialized : clashing.serialize ⟨Dictionary.empty⟩ clashingBindings =
      (.ok ("UPDATE User SET name_1 = $name_1, age = $age " ++
        "WHERE (name = $name_3 AND age = $age_4);"),
        (clashing.serialize ⟨Dictionary.empty⟩ clashingBindings).2) :=
    Prod.ext rfl rfl
  obtain ⟨pieces, numbers, -, text, -, -, resolved, -, kept, -⟩ := parameters_resolve serialized
  exact ⟨_, pieces, serialized, text.symm, rfl, resolved,
    kept "name_2" (.int 5) rfl (by decide)⟩

end Statement

end DocQuery
