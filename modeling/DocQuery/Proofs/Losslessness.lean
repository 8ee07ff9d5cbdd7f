/-
This file proves that a query can be recovered from its text and its bindings, up to what makes no
difference to what it asks for.

The text tells the table, the columns, the order, the numbers and the hints, the fields that are
assigned and the key of a new record. The values are those of the bindings, where an update has its
assignments in front and a create has nothing but its content. The filter is not recovered itself
but as the expression that it became, which means the same under the same bindings.
-/

import DocQuery.Proofs.Placeholders
import DocQuery.Proofs.QueryReading

namespace DocQuery

/-! ### What a serialized query is made of -/

section Serialized

variable {schema : Schema} {table sent : String} {initial final : Bindings}

/-- A select that is serialized wants a column at least. -/
theorem Select.serialize_eq_ok {query : Select} (named : table ≠ "")
    (serialized : (Statement.select table query).serialize schema initial = (.ok sent, final)) :
    query.projection ≠ .only [] ∧
      sent = Select.text (Parameters.ofBindings initial) (table, query) ++ ";" ∧
      final = (Filter.clause query.filter (Parameters.ofBindings initial)).2.bindings := by
  cases listing : query.projection.columns table with
  | error error =>
    rw [Statement.serialize, Statement.write, if_neg (by exact named)] at serialized
    simp only [Select.write, listing] at serialized
    cases serialized
  | ok columns =>
    obtain ⟨wanted, text⟩ := Projection.columns_eq_ok listing
    rw [Statement.serialize_select schema named query listing] at serialized
    cases serialized
    refine ⟨wanted, ?_, rfl⟩
    rw [Select.text, ← text]

/-- An update that is serialized assigns something. -/
theorem Update.serialize_eq_ok {query : Update} (named : table ≠ "")
    (serialized : (Statement.update table query).serialize schema initial = (.ok sent, final)) :
    query.assignments.names ≠ [] ∧
      sent = Update.text (Parameters.ofBindings initial) (table, query) ++ ";" ∧
      final = (Filter.clause query.filter
        ((Parameters.ofBindings initial).bindAll query.assignments.entries)).2.bindings := by
  cases empty : query.assignments.isEmpty with
  | true =>
    rw [Statement.serialize, Statement.write, if_neg (by exact named)] at serialized
    simp only [Update.write, empty] at serialized
    cases serialized
  | false =>
    rw [Statement.serialize_update schema named query empty] at serialized
    cases serialized
    refine ⟨?_, rfl, rfl⟩
    intro none
    rw [Dictionary.isEmpty, List.map_eq_nil_iff.mp none] at empty
    cases empty

/-- What a create has behind its key is seen from its keyword. -/
theorem Create.serialize_eq_ok {query : Create} (named : table ≠ "")
    (serialized : (Statement.create table query).serialize schema initial = (.ok sent, final)) :
    (∃ rest, sent = "CREATE ONLY " ++ table ++ query.keyClause ++ (" CONTENT " ++ rest)) ∧
      final = initial.insertAll query.content.entries := by
  rw [Statement.serialize, Statement.write, if_neg (by exact named)] at serialized
  simp only [Create.write] at serialized
  split at serialized
  · rename_i empty
    cases serialized
    rw [List.isEmpty_iff.mp empty]
    have content : " CONTENT \x7b\x7d" = " CONTENT " ++ "\x7b\x7d" := rfl
    refine ⟨⟨"\x7b\x7d" ++ ";", ?_⟩, rfl⟩
    simp only [Piece.finish_eq, content, Piece.writeAll, Piece.write, String.append_assoc,
      String.append_empty]
  · cases serialized
    have content : " CONTENT \x7b " = " CONTENT " ++ "\x7b " := rfl
    refine ⟨⟨"\x7b " ++ (Piece.writeAll (Piece.joined ", " (query.content.names.map member)) ++
      (" \x7d" ++ ";")), ?_⟩, rfl⟩
    simp only [Piece.finish_eq, content, Piece.writeAll_append, Piece.writeAll, Piece.write,
      String.append_assoc, String.append_empty, List.cons_append]

end Serialized

/-! ### Queries that ask for the same -/

theorem PlainName.ne_empty {name : String} (plain : PlainName name) : name ≠ "" := by
  rintro rfl
  revert plain
  decide

theorem Filter.hasPlainNames_of_constraints {filter : Option Filter}
    (plain : ∀ name ∈ Entries.names (constraints? filter), PlainName name) :
    HasPlainNames filter := by
  rintro given ⟨⟩ constraint member
  exact plain constraint.1 (List.mem_map_of_mem member)

namespace Statement

/-- The names that a query writes: those of its table and of fields. -/
def writtenNames : Statement → List String
  | select table query =>
    table :: (query.projection.fields ++ query.order.names ++
      Entries.names (Filter.constraints? query.filter))
  | update table query =>
    table :: (query.assignments.names ++ Entries.names (Filter.constraints? query.filter))
  | create table query => table :: query.content.names
  | _ => []

/-- Queries that ask for the same. Leaving out no column is the same as returning all of them,
a hint against parallel execution is the same as none, a time limit counts in whole milliseconds
and filters count by the records that they admit. Everything else is the same. -/
inductive AskAlike : Statement → Statement → Prop
  | select (table : String) {query other : Select}
      (projection : query.projection.normal = other.projection.normal)
      (order : query.order = other.order)
      (limit : query.limit = other.limit)
      (offset : query.offset = other.offset)
      (parallel : query.options.isParallel = other.options.isParallel)
      (timeout : query.options.timeout.map Duration.milliseconds =
        other.options.timeout.map Duration.milliseconds)
      (filter : ∀ holds, Filter.admits query.filter holds = Filter.admits other.filter holds) :
      AskAlike (.select table query) (.select table other)
  | update (table : String) {query other : Update}
      (assignments : query.assignments = other.assignments)
      (returning : query.returning = other.returning)
      (parallel : query.options.isParallel = other.options.isParallel)
      (timeout : query.options.timeout.map Duration.milliseconds =
        other.options.timeout.map Duration.milliseconds)
      (filter : ∀ holds, Filter.admits query.filter holds = Filter.admits other.filter holds) :
      AskAlike (.update table query) (.update table other)
  | create (table : String) (query : Create) : AskAlike (.create table query) (.create table query)

/-- The kinds of queries. -/
inductive Kind where
  | select
  | update
  | create
  deriving DecidableEq

/-- The keyword that queries of a kind begin with. -/
def Kind.keyword : Kind → String
  | .select => "SELECT "
  | .update => "UPDATE "
  | .create => "CREATE ONLY "

theorem Kind.apart (first second : Kind) (different : first ≠ second) :
    Apart first.keyword [second.keyword] := by
  revert different
  cases first <;> cases second <;> decide

/-- The kind of a statement that is a query. -/
def kind? : Statement → Option Kind
  | select _ _ => some .select
  | update _ _ => some .update
  | create _ _ => some .create
  | _ => none

section Alike

variable {schema otherSchema : Schema} {table otherTable sent : String} {final : Bindings}

theorem readable_select {query : Select}
    (plain : ∀ name ∈ (select table query).writtenNames, PlainName name)
    (wanted : query.projection ≠ .only []) : query.Readable table := by
  rw [writtenNames, List.forall_mem_cons, List.forall_mem_append, List.forall_mem_append] at plain
  obtain ⟨tablePlain, ⟨columns, order⟩, constraints⟩ := plain
  exact ⟨tablePlain, wanted, columns, fun entry member => order _ (List.mem_map_of_mem member),
    Filter.hasPlainNames_of_constraints constraints⟩

theorem readable_update {query : Update}
    (plain : ∀ name ∈ (update table query).writtenNames, PlainName name)
    (assigns : query.assignments.names ≠ []) : query.Readable table := by
  rw [writtenNames, List.forall_mem_cons, List.forall_mem_append] at plain
  obtain ⟨tablePlain, assignments, constraints⟩ := plain
  exact ⟨tablePlain, assigns, assignments, Filter.hasPlainNames_of_constraints constraints⟩

theorem select_alike {query other : Select}
    (plain : ∀ name ∈ (select table query).writtenNames, PlainName name)
    (otherPlain : ∀ name ∈ (select otherTable other).writtenNames, PlainName name)
    (serialized : (select table query).serialize schema Dictionary.empty = (.ok sent, final))
    (otherSerialized :
      (select otherTable other).serialize otherSchema Dictionary.empty = (.ok sent, final)) :
    AskAlike (.select table query) (.select otherTable other) := by
  obtain ⟨wanted, text, bound⟩ :=
    Select.serialize_eq_ok (plain table List.mem_cons_self).ne_empty serialized
  obtain ⟨otherWanted, otherText, otherBound⟩ :=
    Select.serialize_eq_ok (otherPlain otherTable List.mem_cons_self).ne_empty otherSerialized
  have readable := readable_select plain wanted
  have otherReadable := readable_select otherPlain otherWanted
  have features := (@Select.tells _ (table, query) (otherTable, other) readable otherReadable
    _ _ (goesOn_head ";" [] "") (goesOn_head ";" [] "") (text.symm.trans otherText)).1
  simp only [Prod.mk.injEq] at features
  obtain ⟨projections, rfl, conditions, orders, limits, offsets, flags, times⟩ := features
  exact .select table projections (Dictionary.ext orders) limits offsets flags times
    (Filter.admits_eq_of_clause_eq readable.filter otherReadable.filter conditions
      (bound.symm.trans otherBound))

/-- The assignments of an update are the first bindings. -/
theorem assignments_first {query : Update}
    (bound : final = (Filter.clause query.filter
      ((Parameters.ofBindings Dictionary.empty).bindAll query.assignments.entries)).2.bindings) :
    query.assignments.entries <+: final.entries := by
  have assigned : ((Parameters.ofBindings Dictionary.empty).bindAll
      query.assignments.entries).bindings = query.assignments :=
    query.assignments.ofList_entries
  have kept := Parameters.prefix_bindConstraints
    ((Parameters.ofBindings Dictionary.empty).bindAll query.assignments.entries)
    (Filter.constraints? query.filter)
  rwa [assigned, ← (Filter.clause_eq query.filter _).2, ← bound] at kept

theorem update_alike {query other : Update}
    (plain : ∀ name ∈ (update table query).writtenNames, PlainName name)
    (otherPlain : ∀ name ∈ (update otherTable other).writtenNames, PlainName name)
    (serialized : (update table query).serialize schema Dictionary.empty = (.ok sent, final))
    (otherSerialized :
      (update otherTable other).serialize otherSchema Dictionary.empty = (.ok sent, final)) :
    AskAlike (.update table query) (.update otherTable other) := by
  obtain ⟨assigns, text, bound⟩ :=
    Update.serialize_eq_ok (plain table List.mem_cons_self).ne_empty serialized
  obtain ⟨otherAssigns, otherText, otherBound⟩ :=
    Update.serialize_eq_ok (otherPlain otherTable List.mem_cons_self).ne_empty otherSerialized
  have readable := readable_update plain assigns
  have otherReadable := readable_update otherPlain otherAssigns
  have features := (@Update.tells _ (table, query) (otherTable, other) readable otherReadable
    _ _ (goesOn_head ";" [] "") (goesOn_head ";" [] "") (text.symm.trans otherText)).1
  simp only [Prod.mk.injEq] at features
  obtain ⟨rfl, names, conditions, modes, times, flags⟩ := features
  -- Both lists of assignments are at the front of the same bindings, and equally long.
  have assignments : query.assignments = other.assignments := by
    have lengths : query.assignments.entries.length = other.assignments.entries.length := by
      have := congrArg List.length names
      rwa [Dictionary.names, Dictionary.names, Entries.names, Entries.names, List.length_map,
        List.length_map] at this
    exact Dictionary.ext ((List.prefix_of_prefix_length_le (assignments_first bound)
      (assignments_first otherBound) lengths.le).eq_of_length lengths)
  exact .update table assignments modes flags times
    (Filter.admits_eq_of_clause_eq readable.filter otherReadable.filter conditions
      (bound.symm.trans otherBound))

theorem create_alike {query other : Create} (plain : PlainName table)
    (otherPlain : PlainName otherTable)
    (serialized : (create table query).serialize schema Dictionary.empty = (.ok sent, final))
    (otherSerialized :
      (create otherTable other).serialize otherSchema Dictionary.empty = (.ok sent, final)) :
    AskAlike (.create table query) (.create otherTable other) := by
  obtain ⟨⟨rest, text⟩, bound⟩ := Create.serialize_eq_ok plain.ne_empty serialized
  obtain ⟨⟨otherRest, otherText⟩, otherBound⟩ :=
    Create.serialize_eq_ok otherPlain.ne_empty otherSerialized
  have features := (@Create.tells (table, query) (otherTable, other) plain otherPlain _ _
    (goesOn_head " CONTENT " [] rest) (goesOn_head " CONTENT " [] otherRest)
    (text.symm.trans otherText)).1
  have tables : table = otherTable := congrArg Prod.fst features
  have keys : query.key = other.key := congrArg Prod.snd features
  have content : query.content = other.content := by
    rw [← query.content.ofList_entries, ← other.content.ofList_entries]
    exact bound.symm.trans otherBound
  have same : query = other := by
    obtain ⟨key, entries⟩ := query
    obtain ⟨otherKey, otherEntries⟩ := other
    exact congrArg₂ Create.mk keys content
  rw [tables, same]
  exact .create otherTable other

/-- A query begins with the keyword of its kind. -/
theorem serialize_kind {statement : Statement} {kind : Kind} (query : statement.kind? = some kind)
    (plain : ∀ name ∈ statement.writtenNames, PlainName name)
    (serialized : statement.serialize schema Dictionary.empty = (.ok sent, final)) :
    ∃ rest, sent = kind.keyword ++ rest := by
  cases statement with
  | select table query =>
    cases query
    have text := (Select.serialize_eq_ok (plain table List.mem_cons_self).ne_empty serialized).2.1
    rw [text, Select.text]
    simp only [String.append_assoc]
    exact ⟨_, rfl⟩
  | update table query =>
    cases query
    have text := (Update.serialize_eq_ok (plain table List.mem_cons_self).ne_empty serialized).2.1
    rw [text, Update.text]
    simp only [String.append_assoc]
    exact ⟨_, rfl⟩
  | create table query =>
    cases query
    obtain ⟨⟨rest, text⟩, -⟩ :=
      Create.serialize_eq_ok (plain table List.mem_cons_self).ne_empty serialized
    rw [text]
    simp only [String.append_assoc]
    exact ⟨_, rfl⟩
  | _ => cases query

/-- Two queries over plain names that are serialized on their own, with the same text and the same
bindings, ask for the same. -/
theorem askAlike_of_serialize_eq {statement other : Statement}
    (isQuery : statement.isDefinition = false) (otherIsQuery : other.isDefinition = false)
    (plain : ∀ name ∈ statement.writtenNames, PlainName name)
    (otherPlain : ∀ name ∈ other.writtenNames, PlainName name)
    (serialized : statement.serialize schema Dictionary.empty = (.ok sent, final))
    (otherSerialized : other.serialize otherSchema Dictionary.empty = (.ok sent, final)) :
    AskAlike statement other := by
  have kinds {kind otherKind : Kind} (isKind : statement.kind? = some kind)
      (isOtherKind : other.kind? = some otherKind) : kind = otherKind := by
    obtain ⟨rest, text⟩ := serialize_kind isKind plain serialized
    obtain ⟨otherRest, otherText⟩ := serialize_kind isOtherKind otherPlain otherSerialized
    by_contra different
    exact (Kind.apart kind otherKind different).ne_append
      (goesOn_head otherKind.keyword [] otherRest) rest (otherText.symm.trans text)
  cases statement with
  | select table query =>
    cases other with
    | select otherTable other => exact select_alike plain otherPlain serialized otherSerialized
    | update otherTable other => cases kinds rfl rfl
    | create otherTable other => cases kinds rfl rfl
    | _ => cases otherIsQuery
  | update table query =>
    cases other with
    | update otherTable other => exact update_alike plain otherPlain serialized otherSerialized
    | select otherTable other => cases kinds rfl rfl
    | create otherTable other => cases kinds rfl rfl
    | _ => cases otherIsQuery
  | create table query =>
    cases other with
    | create otherTable other =>
      exact create_alike (plain table List.mem_cons_self)
        (otherPlain otherTable List.mem_cons_self) serialized otherSerialized
    | select otherTable other => cases kinds rfl rfl
    | update otherTable other => cases kinds rfl rfl
    | _ => cases otherIsQuery
  | _ => cases isQuery

end Alike

/-- A select with keywords for names, and with much that makes no difference. -/
def wordy : Statement :=
  .select "User" ⟨some ⟨Dictionary.ofList [("FROM", .int 1)], [Filter.empty], []⟩, .without [],
    Dictionary.ofList [("LIMIT", .descending)], some 5, none, ⟨some ⟨1, 500000⟩, some false⟩⟩

/-- The same request without what makes no difference. -/
def terse : Statement :=
  .select "User" ⟨some ⟨Dictionary.ofList [("FROM", .int 1)], [], []⟩, .all,
    Dictionary.ofList [("LIMIT", .descending)], some 5, none, ⟨some ⟨1, 0⟩, none⟩⟩

theorem askAlike_wordy_terse :
    (wordy.serialize ⟨Dictionary.empty⟩ Dictionary.empty).1 =
      .ok ("SELECT * FROM User WHERE (FROM = $FROM_1) " ++
        "ORDER BY LIMIT desc LIMIT 5 TIMEOUT 1000ms;") ∧
    terse.serialize ⟨Dictionary.empty⟩ Dictionary.empty =
      wordy.serialize ⟨Dictionary.empty⟩ Dictionary.empty ∧
    AskAlike wordy terse := by
  have serialized : wordy.serialize ⟨Dictionary.empty⟩ Dictionary.empty =
      (.ok ("SELECT * FROM User WHERE (FROM = $FROM_1) " ++
        "ORDER BY LIMIT desc LIMIT 5 TIMEOUT 1000ms;"),
        (wordy.serialize ⟨Dictionary.empty⟩ Dictionary.empty).2) := Prod.ext rfl rfl
  have same : terse.serialize ⟨Dictionary.empty⟩ Dictionary.empty =
      wordy.serialize ⟨Dictionary.empty⟩ Dictionary.empty := rfl
  exact ⟨congrArg Prod.fst serialized, same,
    askAlike_of_serialize_eq rfl rfl (by decide) (by decide) serialized (same.trans serialized)⟩

end Statement

end DocQuery
