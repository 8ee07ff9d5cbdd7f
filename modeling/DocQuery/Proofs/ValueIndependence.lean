/-
This file proves that values reach a statement through its bindings alone.

The argument is about a single run. When every value of a statement and every value that is bound
before it is replaced, writing the statement gives the same text or the same error, and bindings
in which the values are replaced in the same way. Each step of the writing has this property,
the search for free numbers included, which reads the bindings but asks for names only. Two
statements that differ in their values become the same one when every value is forgotten, so
they are written alike.
-/

import DocQuery.Proofs.Numbering

namespace DocQuery

/-! ### Replacing the values of a dictionary -/

namespace Entries

variable {Item Other : Type}

/-- The entries with every value replaced. -/
def mapItems (change : Item → Other) (entries : List (String × Item)) : List (String × Other) :=
  entries.map fun entry => (entry.1, change entry.2)

@[simp] theorem names_mapItems (change : Item → Other) (entries : List (String × Item)) :
    names (mapItems change entries) = names entries := by
  rw [names, names, mapItems, List.map_map]
  rfl

theorem find?_mapItems (change : Item → Other) (name : String)
    (entries : List (String × Item)) :
    find? name (mapItems change entries) = (find? name entries).map change := by
  induction entries with
  | nil => rfl
  | cons entry rest inductionHypothesis =>
    rw [mapItems] at inductionHypothesis
    rw [mapItems, List.map_cons, find?, find?, inductionHypothesis]
    split <;> rfl

theorem put_mapItems (change : Item → Other) (name : String) (item : Item)
    (entries : List (String × Item)) :
    put name (change item) (mapItems change entries) = mapItems change (put name item entries) := by
  induction entries with
  | nil => rfl
  | cons entry rest inductionHypothesis =>
    by_cases same : entry.1 = name
    · simp [mapItems, put, same]
    · have later := inductionHypothesis
      simp only [mapItems] at later
      simp [mapItems, put, same, later]

end Entries

namespace Dictionary

variable {Item Other : Type}

/-- The dictionary with every value replaced. -/
def map (change : Item → Other) (dictionary : Dictionary Item) : Dictionary Other :=
  ⟨Entries.mapItems change dictionary.entries, by
    rw [Entries.names_mapItems]
    exact dictionary.distinct⟩

@[simp] theorem names_map (change : Item → Other) (dictionary : Dictionary Item) :
    (dictionary.map change).names = dictionary.names :=
  Entries.names_mapItems change dictionary.entries

@[simp] theorem size_map (change : Item → Other) (dictionary : Dictionary Item) :
    (dictionary.map change).size = dictionary.size :=
  List.length_map _

@[simp] theorem isEmpty_map (change : Item → Other) (dictionary : Dictionary Item) :
    (dictionary.map change).isEmpty = dictionary.isEmpty :=
  List.isEmpty_map

@[simp] theorem contains_map (change : Item → Other) (dictionary : Dictionary Item)
    (name : String) : (dictionary.map change).contains name = dictionary.contains name := by
  rw [Bool.eq_iff_iff, contains_iff, contains_iff, names_map]

theorem find?_map (change : Item → Other) (dictionary : Dictionary Item) (name : String) :
    (dictionary.map change).find? name = (dictionary.find? name).map change :=
  Entries.find?_mapItems change name dictionary.entries

theorem insert_map (change : Item → Other) (dictionary : Dictionary Item) (name : String)
    (item : Item) :
    (dictionary.map change).insert name (change item) = (dictionary.insert name item).map change :=
  Dictionary.ext (Entries.put_mapItems change name item dictionary.entries)

theorem insertAll_map (change : Item → Other) (dictionary : Dictionary Item)
    (entries : List (String × Item)) :
    (dictionary.map change).insertAll (Entries.mapItems change entries) =
      (dictionary.insertAll entries).map change := by
  induction entries generalizing dictionary with
  | nil => rfl
  | cons entry rest inductionHypothesis =>
    have first := insert_map change dictionary entry.1 entry.2
    have later := inductionHypothesis (dictionary.insert entry.1 entry.2)
    rw [← first] at later
    exact later

/-- Dictionaries with the same names are the same once their values are forgotten. -/
theorem map_const_eq {left right : Dictionary Item} (same : left.names = right.names)
    (item : Other) : left.map (fun _ => item) = right.map (fun _ => item) := by
  have entries (dictionary : Dictionary Item) :
      Entries.mapItems (fun _ => item) dictionary.entries =
        dictionary.names.map fun name => (name, item) := by
    rw [Entries.mapItems, names, Entries.names, List.map_map]
    rfl
  refine Dictionary.ext ?_
  show Entries.mapItems (fun _ => item) left.entries =
    Entries.mapItems (fun _ => item) right.entries
  rw [entries, entries, same]

end Dictionary

/-! ### Replacing the values of a filter -/

/-- The constraint with its value replaced. -/
def Constraint.mapValue (change : Value → Value) (constraint : Constraint) : Constraint :=
  (constraint.1, change constraint.2)

namespace Condition

variable {Leaf Other : Type}

mutual

/-- The condition with every leaf replaced. -/
def map (change : Leaf → Other) : Condition Leaf → Condition Other
  | .compare leaf => .compare (change leaf)
  | .group connective members => .group connective (mapAll change members)

/-- The conditions with every leaf replaced. -/
def mapAll (change : Leaf → Other) : List (Condition Leaf) → List (Condition Other)
  | [] => []
  | member :: rest => member.map change :: mapAll change rest

end

theorem mapAll_append (change : Leaf → Other) (left right : List (Condition Leaf)) :
    mapAll change (left ++ right) = mapAll change left ++ mapAll change right := by
  induction left with
  | nil => rfl
  | cons member rest inductionHypothesis => simp [mapAll, inductionHypothesis]

theorem mapAll_map_compare (change : Leaf → Other) (leaves : List Leaf) :
    mapAll change (leaves.map .compare) = (leaves.map change).map .compare := by
  induction leaves with
  | nil => rfl
  | cons leaf rest inductionHypothesis => simp [mapAll, map, inductionHypothesis]

theorem mapAll_part (change : Leaf → Other) (connective : Connective)
    (members : List (Condition Leaf)) :
    mapAll change (part connective members) = part connective (mapAll change members) := by
  cases members <;> rfl

theorem ofParts_mapAll (change : Leaf → Other) (parts : List (Condition Leaf)) :
    ofParts (mapAll change parts) = (ofParts parts).map (map change) := by
  match parts with
  | [] => rfl
  | [_] => rfl
  | _ :: _ :: _ => rfl

end Condition

namespace Filter

mutual

/-- The filter with every value replaced. -/
def mapValues (change : Value → Value) : Filter → Filter
  | ⟨fields, all, any⟩ =>
    ⟨fields.map change, mapValuesAll change all, mapValuesAll change any⟩

/-- The filters with every value replaced. -/
def mapValuesAll (change : Value → Value) : List Filter → List Filter
  | [] => []
  | filter :: rest => filter.mapValues change :: mapValuesAll change rest

end

mutual

/-- Replacing values replaces the leaves of the condition and keeps its groups. -/
theorem condition?_mapValues (change : Value → Value) : (filter : Filter) →
    (filter.mapValues change).condition? =
      filter.condition?.map (Condition.map (Constraint.mapValue change))
  | ⟨fields, all, any⟩ => by
    rw [mapValues, condition?, condition?, conditions_mapValuesAll change all,
      conditions_mapValuesAll change any, ← Condition.ofParts_mapAll, Condition.mapAll_append,
      Condition.mapAll_append, Condition.mapAll_part, Condition.mapAll_part,
      Condition.mapAll_part, Condition.mapAll_map_compare]
    rfl

theorem conditions_mapValuesAll (change : Value → Value) : (filters : List Filter) →
    conditions (mapValuesAll change filters) =
      Condition.mapAll (Constraint.mapValue change) (conditions filters)
  | [] => rfl
  | filter :: rest => by
    rw [mapValuesAll, conditions, conditions, Condition.mapAll_append,
      condition?_mapValues change filter, conditions_mapValuesAll change rest]
    cases filter.condition? <;> rfl

end

end Filter

/-! ### Replacing values and binding -/

namespace Parameters

/-- The parameters with every value replaced. -/
def mapValues (change : Value → Value) (parameters : Parameters) : Parameters :=
  { parameters with bindings := parameters.bindings.map change }

/-- The search for a number looks at names only. -/
theorem nextNumber_mapValues (change : Value → Value) (parameters : Parameters) (field : String) :
    (parameters.mapValues change).nextNumber field = parameters.nextNumber field := by
  simp only [nextNumber, mapValues, Dictionary.contains_map, Dictionary.size_map]

theorem bindConstraint_mapValues (change : Value → Value) (parameters : Parameters)
    (constraint : Constraint) :
    (parameters.mapValues change).bindConstraint (constraint.mapValue change) =
      ((parameters.bindConstraint constraint).1,
        (parameters.bindConstraint constraint).2.mapValues change) := by
  simp only [bindConstraint, Constraint.mapValue, nextNumber_mapValues]
  simp only [mapValues, Dictionary.insert_map]

theorem bindAll_mapValues (change : Value → Value) (parameters : Parameters)
    (entries : List (String × Value)) :
    (parameters.mapValues change).bindAll (Entries.mapItems change entries) =
      (parameters.bindAll entries).mapValues change := by
  simp only [bindAll, mapValues, Dictionary.insertAll_map]

end Parameters

namespace Condition

mutual

theorem bind_mapValues (change : Value → Value) : (condition : Condition Constraint) →
    (parameters : Parameters) →
    (condition.map (Constraint.mapValue change)).bind (parameters.mapValues change) =
      ((condition.bind parameters).1, (condition.bind parameters).2.mapValues change)
  | .compare constraint, parameters => by
    rw [map, bind, bind, Parameters.bindConstraint_mapValues]
    rfl
  | .group connective members, parameters => by
    rw [map, bind, bind, bindMembers_mapValues change members parameters]

theorem bindMembers_mapValues (change : Value → Value) :
    (members : List (Condition Constraint)) → (parameters : Parameters) →
    bindMembers (mapAll (Constraint.mapValue change) members) (parameters.mapValues change) =
      ((bindMembers members parameters).1, (bindMembers members parameters).2.mapValues change)
  | [], _ => rfl
  | member :: rest, parameters => by
    rw [mapAll, bindMembers, bindMembers, bind_mapValues change member parameters]
    simp only [bindMembers_mapValues change rest (member.bind parameters).2]

end

end Condition

theorem Filter.clause_mapValues (change : Value → Value) (filter : Option Filter)
    (parameters : Parameters) :
    clause (filter.map (mapValues change)) (parameters.mapValues change) =
      ((clause filter parameters).1, (clause filter parameters).2.mapValues change) := by
  have conditions : (filter.map (mapValues change)).bind condition? =
      (filter.bind condition?).map (Condition.map (Constraint.mapValue change)) := by
    cases filter with
    | none => rfl
    | some filter => exact condition?_mapValues change filter
  rw [clause, clause, conditions]
  cases filter.bind condition? with
  | none => rfl
  | some condition => simp only [Option.map_some, Condition.bind_mapValues]

/-! ### Replacing the values of a statement -/

/-- The select with every value of its filter replaced. -/
def Select.mapValues (change : Value → Value) (query : Select) : Select :=
  { query with filter := query.filter.map (Filter.mapValues change) }

/-- The update with every value that it assigns or compares replaced. -/
def Update.mapValues (change : Value → Value) (query : Update) : Update :=
  { query with
    assignments := query.assignments.map change
    filter := query.filter.map (Filter.mapValues change) }

/-- The create with every value of its content replaced. -/
def Create.mapValues (change : Value → Value) (query : Create) : Create :=
  { query with content := query.content.map change }

namespace Statement

/-- The statement with every value replaced. -/
def mapValues (change : Value → Value) : Statement → Statement
  | .select table query => .select table (query.mapValues change)
  | .update table query => .update table (query.mapValues change)
  | .create table query => .create table (query.mapValues change)
  | definition => definition

theorem table_mapValues (change : Value → Value) (statement : Statement) :
    (statement.mapValues change).table = statement.table := by
  cases statement <;> rfl

/-- A writing with the values of its parameters replaced. -/
def mapWriting (change : Value → Value) (writing : Writing) : Writing :=
  (writing.1, writing.2.mapValues change)

theorem select_write_mapValues (change : Value → Value) (table : String) (query : Select)
    (parameters : Parameters) :
    (query.mapValues change).write table (parameters.mapValues change) =
      mapWriting change (query.write table parameters) := by
  simp only [Select.write, Select.mapValues]
  cases query.projection.columns table with
  | error error => rfl
  | ok columns =>
    simp only [Filter.clause_mapValues]
    rfl

theorem update_write_mapValues (change : Value → Value) (table : String) (query : Update)
    (parameters : Parameters) :
    (query.mapValues change).write table (parameters.mapValues change) =
      mapWriting change (query.write table parameters) := by
  have bound : (parameters.mapValues change).bindAll (query.assignments.map change).entries =
      (parameters.bindAll query.assignments.entries).mapValues change :=
    Parameters.bindAll_mapValues change parameters query.assignments.entries
  simp only [Update.write, Update.mapValues, Dictionary.isEmpty_map, Dictionary.names_map, bound,
    Filter.clause_mapValues]
  split <;> rfl

theorem create_write_mapValues (change : Value → Value) (table : String) (query : Create)
    (parameters : Parameters) :
    (query.mapValues change).write table (parameters.mapValues change) =
      mapWriting change (query.write table parameters) := by
  have key : (query.mapValues change).keyClause = query.keyClause := rfl
  have names : (query.mapValues change).content.names = query.content.names :=
    Dictionary.names_map change query.content
  have empty : (query.mapValues change).content.isEmpty = query.content.isEmpty :=
    Dictionary.isEmpty_map change query.content
  have bound : (parameters.mapValues change).bindAll (query.mapValues change).content.entries =
      (parameters.bindAll query.content.entries).mapValues change :=
    Parameters.bindAll_mapValues change parameters query.content.entries
  rw [Create.write, Create.write, key, names, empty, bound]
  split <;> rfl

/-- Writing a statement with other values writes the same pieces. -/
theorem write_mapValues (change : Value → Value) (schema : Schema) (statement : Statement)
    (parameters : Parameters) :
    (statement.mapValues change).write schema (parameters.mapValues change) =
      mapWriting change (statement.write schema parameters) := by
  unfold write
  rw [table_mapValues]
  by_cases unnamed : statement.table = ""
  · rw [if_pos unnamed, if_pos unnamed]
    rfl
  · rw [if_neg unnamed, if_neg unnamed]
    cases statement with
    | select table query => exact select_write_mapValues change table query parameters
    | update table query => exact update_write_mapValues change table query parameters
    | create table query => exact create_write_mapValues change table query parameters
    | defineTable table => rfl
    | defineField table field => rfl
    | defineIndex table field => rfl

theorem serialize_mapValues (change : Value → Value) (schema : Schema) (statement : Statement)
    (initial : Bindings) :
    (statement.mapValues change).serialize schema (initial.map change) =
      ((statement.serialize schema initial).1,
        (statement.serialize schema initial).2.map change) := by
  have written := write_mapValues change schema statement (Parameters.ofBindings initial)
  have start : Parameters.ofBindings (initial.map change) =
      (Parameters.ofBindings initial).mapValues change := rfl
  rw [serialize, start, written]
  rfl

/-! ### Statements that differ in their values -/

/-- The statement with null for every value: what remains are the table and all names, the nesting
of the filter, the order, the options and the key. -/
def forgetValues (statement : Statement) : Statement :=
  statement.mapValues fun _ => .null

/-- Two statements that differ only in their values, serialized from bindings with the same names,
have the same text or the same error, and bindings with the same names. -/
theorem serialize_eq_of_forgetValues_eq (schema : Schema) {left right : Statement}
    (alike : left.forgetValues = right.forgetValues) {initial other : Bindings}
    (names : initial.names = other.names) :
    (left.serialize schema initial).1 = (right.serialize schema other).1 ∧
      (left.serialize schema initial).2.names = (right.serialize schema other).2.names := by
  have first := serialize_mapValues (fun _ => .null) schema left initial
  have second := serialize_mapValues (fun _ => .null) schema right other
  have same : (left.serialize schema initial).1 = (right.serialize schema other).1 ∧
      (left.serialize schema initial).2.map (fun _ => Value.null) =
        (right.serialize schema other).2.map (fun _ => Value.null) := by
    rw [← Prod.mk.injEq, ← first, ← second, Dictionary.map_const_eq names Value.null]
    exact congrArg (fun statement => serialize schema statement _) alike
  refine ⟨same.1, ?_⟩
  have bound := congrArg Dictionary.names same.2
  rwa [Dictionary.names_map, Dictionary.names_map] at bound

/-- An update that assigns and compares text, over a name that is bound already. -/
def nameChange (assigned compared : String) : Statement :=
  .update "User" ⟨Dictionary.ofList [("name", .string assigned)],
    some (Filter.ofAny [⟨Dictionary.ofList [("name", .string compared)], [], []⟩]), none,
    Options.unset⟩

/-- Text that looks like the end of a statement changes nothing. -/
theorem serialize_nameChange_eq :
    (nameChange "Ann" "Bob").forgetValues =
      (nameChange "$name_2" "'); REMOVE TABLE User;").forgetValues ∧
    (Dictionary.ofList [("name_1", Value.int 1)]).names =
      (Dictionary.ofList [("name_1", Value.string "x")]).names ∧
    ((nameChange "Ann" "Bob").serialize ⟨Dictionary.empty⟩
          (Dictionary.ofList [("name_1", Value.int 1)])).1 =
        ((nameChange "$name_2" "'); REMOVE TABLE User;").serialize ⟨Dictionary.empty⟩
          (Dictionary.ofList [("name_1", Value.string "x")])).1 ∧
      ((nameChange "Ann" "Bob").serialize ⟨Dictionary.empty⟩
          (Dictionary.ofList [("name_1", Value.int 1)])).2.names =
        ((nameChange "$name_2" "'); REMOVE TABLE User;").serialize ⟨Dictionary.empty⟩
          (Dictionary.ofList [("name_1", Value.string "x")])).2.names := by
  have alike : (nameChange "Ann" "Bob").forgetValues =
      (nameChange "$name_2" "'); REMOVE TABLE User;").forgetValues := rfl
  have names : (Dictionary.ofList [("name_1", Value.int 1)]).names =
      (Dictionary.ofList [("name_1", Value.string "x")]).names := rfl
  exact ⟨alike, names, serialize_eq_of_forgetValues_eq ⟨Dictionary.empty⟩ alike names⟩

end Statement

end DocQuery
