/-
This file proves that the text of a select, an update or a create tells what was asked for, as far
as it is in the text.

Every clause is written by one of the rules for unique reading, with the keywords of the clauses
behind it as its marks, so the order in which a kind of query writes its clauses is the order of
the marks. Clauses of which the text does not show the whole, such as a filter, tell at least what
was written for them. A field may be called like a keyword: what makes a keyword is its place.
-/

import DocQuery.Proofs.FilterText
import DocQuery.Proofs.NameReading
import DocQuery.Proofs.StatementText

namespace DocQuery

variable {marks : List String}

/-! ### Filters -/

namespace Tells

/-- A group tells its expression, whatever follows it. -/
theorem group (marks : List String) :
    Tells (fun formula : Formula => formula.isGroup = true) Formula.write id marks := by
  intro first second firstGroup secondGroup rest other _ _ same
  have read := Formula.read?_write_append firstGroup rest
  rw [same, Formula.read?_write_append secondGroup other, Option.some_inj] at read
  have equal : first = second := (congrArg Prod.fst read).symm
  subst equal
  exact ⟨rfl, (String.append_right_inj _).mp same⟩

end Tells

namespace Filter

/-- The constraints of a filter are on plain names. -/
def HasPlainNames (filter : Option Filter) : Prop :=
  ∀ given ∈ filter, ∀ constraint ∈ given.constraints, PlainName constraint.1

/-- Whether a record that satisfies the given comparisons is one that is asked for: each is if there
is no filter. -/
def admits (filter : Option Filter) (holds : Constraint → Bool) : Bool :=
  filter.elim true (meets holds)

/-- A filter without constraints asks for nothing. -/
theorem meets_of_isEmpty (holds : Constraint → Bool) {filter : Filter}
    (empty : filter.isEmpty = true) : filter.meets holds = true := by
  obtain ⟨fields, all, any⟩ := filter
  simp only [isEmpty, Bool.and_eq_true, Dictionary.isEmpty, List.isEmpty_iff] at empty
  obtain ⟨⟨noFields, noneOfAll⟩, noneOfAny⟩ := empty
  have branch : allMeet holds all = true := by
    refine (allMeet_iff holds all).mpr fun filter member asks => ?_
    rw [(areEmpty_iff all).mp noneOfAll filter member] at asks
    cases asks
  rw [meets, noFields, branch, noneOfAny]
  rfl

/-- The clause of a filter is an expression behind its keyword or nothing, and says under the
bindings of the filter what is asked for. -/
theorem exists_clauseText {filter : Option Filter} (plain : HasPlainNames filter)
    (parameters : Parameters) :
    ∃ formula : Option Formula, (∀ group ∈ formula, group.isGroup = true) ∧
      Piece.writeAll (clause filter parameters).1 =
        clauseText " WHERE " Formula.write formula ∧
      ∀ holds, formula.elim (some true)
        (Formula.evaluate? (clause filter parameters).2.bindings holds) =
          some (admits filter holds) := by
  cases filter with
  | none => exact ⟨none, nofun, rfl, fun _ => rfl⟩
  | some given =>
    by_cases asks : given.constraints = []
    · have empty : given.isEmpty = true := (isEmpty_iff_constraints given).mpr asks
      have level : given.condition? = none := by
        rw [← Option.isNone_iff_eq_none, isNone_condition?, empty]
      refine ⟨none, nofun, ?_, fun holds => ?_⟩
      · rw [clause, Option.bind_some, level]
        rfl
      · rw [admits, Option.elim_some, meets_of_isEmpty holds empty]
        rfl
    · obtain ⟨expression, text, formula, group, written, -, -, meaning⟩ :=
        clause_stated asks (plain given rfl) parameters
      refine ⟨some formula, ?_, ?_, meaning⟩
      · rintro _ ⟨⟩
        exact group
      · rw [text, ← written]
        rfl

/-- Filters with the same clause and the same bindings admit the same records. -/
theorem admits_eq_of_clause_eq {filter other : Option Filter} (plain : HasPlainNames filter)
    (otherPlain : HasPlainNames other) {parameters otherParameters : Parameters}
    (text : Piece.writeAll (clause filter parameters).1 =
      Piece.writeAll (clause other otherParameters).1)
    (bindings : (clause filter parameters).2.bindings =
      (clause other otherParameters).2.bindings) (holds : Constraint → Bool) :
    admits filter holds = admits other holds := by
  obtain ⟨formula, group, written, meaning⟩ := exists_clauseText plain parameters
  obtain ⟨otherFormula, otherGroup, otherWritten, otherMeaning⟩ :=
    exists_clauseText otherPlain otherParameters
  have apart : Apart " WHERE " [";"] := by decide
  have same : formula = otherFormula := by
    rw [written, otherWritten] at text
    have features := ((Tells.group [";"]).clause apart group otherGroup
      (goesOn_head ";" [] "") (goesOn_head ";" [] "") (congrArg (· ++ _) text)).1
    rwa [Option.map_id_fun] at features
  have value := meaning holds
  rw [same, bindings, otherMeaning holds, Option.some_inj] at value
  exact value.symm

end Filter

theorem Filter.goesOn_clause {filter : Option Filter} (plain : HasPlainNames filter)
    (parameters : Parameters) {rest : String} (goesOn : GoesOn marks rest) :
    GoesOn (" WHERE " :: marks) (Piece.writeAll (clause filter parameters).1 ++ rest) := by
  obtain ⟨formula, -, text, -⟩ := exists_clauseText plain parameters
  rw [text]
  exact goesOn_clauseText " WHERE " Formula.write formula goesOn

theorem Tells.filter (apart : Apart " WHERE " marks) :
    Tells (fun item : Option Filter × Parameters => Filter.HasPlainNames item.1)
      (fun item => Piece.writeAll (Filter.clause item.1 item.2).1)
      (fun item => Piece.writeAll (Filter.clause item.1 item.2).1) marks :=
  ((Tells.group marks).clause apart).text fun item plain => by
    obtain ⟨formula, group, text, -⟩ := Filter.exists_clauseText plain item.2
    exact ⟨formula, group, text⟩

/-! ### Names and columns -/

/-- Plain names with commas between them. -/
theorem Tells.names (ends : EndsRun RecordKey.continuesBare (", " :: marks))
    (apart : Apart ", " marks) :
    Tells (fun names => names ≠ [] ∧ ∀ name ∈ names, PlainName name) (String.intercalate ", ")
      id marks :=
  ((Tells.name ends).separated apart).transfer id (fun _ plain => plain)
    (fun names _ => by rw [List.map_id, id]) fun _ _ _ _ same => by simpa using same

namespace Projection

/-- A projection, where leaving out nothing is the same as returning everything. -/
def normal : Projection → Projection
  | .without [] => .all
  | projection => projection

/-- The fields that are left out, if any, or the wanted fields. -/
def form : Projection → Option (List String) ⊕ List String
  | .all => .inl none
  | .only fields => .inr fields
  | .without [] => .inl none
  | .without fields => .inl (some fields)

/-- All columns without those that are left out. -/
def starText (omitted : Option (List String)) : String :=
  "*" ++ clauseText " OMIT " (String.intercalate ", ") omitted

theorem columns_eq_ok {projection : Projection} {table columns : String}
    (listing : projection.columns table = .ok columns) :
    projection ≠ .only [] ∧
      columns = Sum.elim starText (String.intercalate ", ") projection.form := by
  cases projection with
  | all =>
    cases listing
    exact ⟨Projection.noConfusion, rfl⟩
  | only fields =>
    cases fields with
    | nil => cases listing
    | cons field rest =>
      cases listing
      exact ⟨fun same => List.cons_ne_nil _ _ (Projection.only.inj same), rfl⟩
  | without fields =>
    cases fields with
    | nil =>
      cases listing
      exact ⟨Projection.noConfusion, rfl⟩
    | cons field rest =>
      cases listing
      refine ⟨Projection.noConfusion, ?_⟩
      rw [form, Sum.elim_inl, starText, clauseText, ← String.append_assoc]
      · rfl
      · exact List.cons_ne_nil field rest

theorem normal_eq (projection : Projection) :
    projection.normal =
      Sum.elim (fun omitted => omitted.elim .all .without) .only projection.form := by
  match projection with
  | .all => rfl
  | .only _ => rfl
  | .without [] => rfl
  | .without (_ :: _) => rfl

/-- In this form, too, the names are plain and no list is empty. -/
theorem form_valid {projection : Projection} (wanted : projection ≠ .only [])
    (plain : ∀ name ∈ projection.fields, PlainName name) :
    Sum.elim (fun omitted : Option (List String) =>
        ∀ names ∈ omitted, names ≠ [] ∧ ∀ name ∈ names, PlainName name)
      (fun names => names ≠ [] ∧ ∀ name ∈ names, PlainName name) projection.form := by
  match projection with
  | .all => nofun
  | .only fields => exact ⟨fun empty => wanted (congrArg _ empty), plain⟩
  | .without [] => nofun
  | .without (field :: rest) =>
    rintro names ⟨⟩
    exact ⟨nofun, plain⟩

end Projection

/-- A star is not a name. -/
theorem star_ne_names {text : String} {names : List String}
    (valid : names ≠ [] ∧ ∀ name ∈ names, PlainName name) (rest other : String) :
    "*" ++ text ++ rest ≠ String.intercalate ", " names ++ other := by
  obtain ⟨name, others, rfl⟩ := List.exists_cons_of_ne_nil valid.1
  obtain ⟨first, later, shape, starts⟩ := (valid.2 name List.mem_cons_self).exists_cons
  have listed : ∃ behind, String.intercalate ", " (name :: others) = name ++ behind := by
    cases others with
    | nil => exact ⟨"", by rw [String.intercalate_singleton, String.append_empty]⟩
    | cons next others =>
      exact ⟨_, by rw [String.intercalate_cons_cons, String.append_assoc]⟩
  obtain ⟨behind, listed⟩ := listed
  intro same
  have characters := congrArg String.toList same
  simp only [listed, String.append_assoc, String.toList_append, shape] at characters
  have head : '*' = first := (List.cons.inj characters).1
  rw [← head] at starts
  exact absurd starts (by decide)

theorem Tells.columns :
    Tells (fun projection : Projection =>
        projection ≠ .only [] ∧ ∀ name ∈ projection.fields, PlainName name)
      (fun projection => Sum.elim Projection.starText (String.intercalate ", ") projection.form)
      Projection.normal [" FROM "] := by
  have names : Tells (fun names => names ≠ [] ∧ ∀ name ∈ names, PlainName name)
      (String.intercalate ", ") id [" FROM "] := Tells.names (by decide) (by decide)
  have apart : Apart " OMIT " [" FROM "] := by decide
  -- Without the star, what is left out is a clause of its own.
  have star := (names.clause apart).behind "*"
  refine (star.either names fun omitted fields _ valid rest other =>
    star_ne_names valid rest other).transfer Projection.form
      (fun projection valid => Projection.form_valid valid.1 valid.2) (fun _ _ => rfl) ?_
  intro first second _ _ same
  rw [Option.map_id, Sum.map_id_id] at same
  rw [Projection.normal_eq, Projection.normal_eq, show first.form = second.form from same]

/-! ### Order, numbers and hints -/

/-- A list that is written only if it is not empty. -/
def given? {Item : Type} : List Item → Option (List Item)
  | [] => none
  | items => some items

theorem given?_injective {Item : Type} : Function.Injective (@given? Item) := by
  have read : Function.LeftInverse (fun items => items.getD []) (given? : List Item → _)
    | [] => rfl
    | _ :: _ => rfl
  exact read.injective

theorem valid_given? {Item : Type} {valid : Item → Prop} {items : List Item}
    (all : ∀ item ∈ items, valid item) :
    ∀ some ∈ given? items, some ≠ [] ∧ ∀ item ∈ some, valid item := by
  cases items with
  | nil => nofun
  | cons item rest =>
    rintro _ ⟨⟩
    exact ⟨nofun, all⟩

/-- A flag as something that is there or not. -/
def flag? : Bool → Option Unit
  | true => some ()
  | false => none

theorem flag?_injective : Function.Injective flag? := by
  rintro (_ | _) (_ | _) <;> simp [flag?]

theorem Direction.apart (first second : Direction) (different : first ≠ second) :
    Apart first.keyword [second.keyword] := by
  revert different
  cases first <;> cases second <;> decide

theorem Returning.apart (first second : Returning) (different : first ≠ second) :
    Apart first.keyword [second.keyword] := by
  revert different
  cases first <;> cases second <;> decide

namespace Tells

/-- A name with a direction behind it. -/
theorem sorted (marks : List String) :
    Tells (fun entry : String × Direction => PlainName entry.1)
      (fun entry => entry.1 ++ " " ++ entry.2.keyword) id marks := by
  have field : Tells (fun entry : String × Direction => PlainName entry.1) Prod.fst Prod.fst
      [" "] :=
    (Tells.name (by decide)).comap Prod.fst fun _ plain => plain
  have direction : Tells (fun entry : String × Direction => PlainName entry.1)
      (fun entry => entry.2.keyword) Prod.snd marks :=
    (Tells.keyword Direction.apart marks).comap Prod.snd fun _ _ => trivial
  exact (field.thenBehind direction).transfer id (fun _ plain => plain)
    (fun _ _ => String.append_assoc) fun _ _ _ _ same => same

theorem order (apart : Apart ", " marks) :
    Tells (fun entries : List (String × Direction) =>
        entries ≠ [] ∧ ∀ entry ∈ entries, PlainName entry.1)
      (fun entries => String.intercalate ", "
        (entries.map fun entry => entry.1 ++ " " ++ entry.2.keyword)) id marks :=
  ((sorted (", " :: marks)).separated apart).transfer id (fun _ plain => plain) (fun _ _ => rfl)
    fun _ _ _ _ same => by simpa using same

theorem nothing (marks : List String) :
    Tells (fun _ : Unit => True) (fun _ => "") id marks :=
  Tells.keyword (fun _ _ different => absurd rfl different) marks

/-- A number with a unit behind it. -/
theorem milliseconds (marks : List String) :
    Tells (fun _ => True) (fun number => Nat.repr number ++ "ms") id marks :=
  (Tells.number (by decide)).closed marks

end Tells

/-- The hint for parallel execution as a clause. -/
theorem Options.parallelClause_eq (options : Options) :
    options.parallelClause =
      clauseText " PARALLEL" (fun _ : Unit => "") (flag? options.isParallel) := by
  rw [parallelClause]
  cases options.isParallel <;> rfl

/-- The hint for a time limit as a clause. -/
theorem Options.timeoutClause_eq (options : Options) :
    options.timeoutClause =
      clauseText " TIMEOUT " (fun number => Nat.repr number ++ "ms")
        (options.timeout.map Duration.milliseconds) := by
  rw [timeoutClause]
  cases options.timeout with
  | none => rfl
  | some span => exact String.append_assoc

namespace Select

theorem orderClause_eq (query : Select) :
    query.orderClause =
      clauseText " ORDER BY "
        (fun entries => String.intercalate ", "
          (entries.map fun entry => entry.1 ++ " " ++ entry.2.keyword))
        (given? query.order.entries) := by
  rw [orderClause, Dictionary.isEmpty]
  cases query.order.entries <;> rfl

theorem numberClause_eq (keyword : String) (number : Option UInt64) :
    numberClause keyword number = clauseText keyword Nat.repr (number.map UInt64.toNat) := by
  cases number <;> rfl

/-- A select that can be read: its names are plain, and it wants a column at least. -/
structure Readable (table : String) (query : Select) : Prop where
  table : PlainName table
  wanted : query.projection ≠ .only []
  columns : ∀ name ∈ query.projection.fields, PlainName name
  order : ∀ entry ∈ query.order.entries, PlainName entry.1
  filter : Filter.HasPlainNames query.filter

/-- The text of a select in front of the semicolon. -/
def text (parameters : Parameters) (item : String × Select) : String :=
  "SELECT " ++ Sum.elim Projection.starText (String.intercalate ", ") item.2.projection.form ++
    " FROM " ++ item.1 ++ Piece.writeAll (Filter.clause item.2.filter parameters).1 ++ item.2.tail

theorem tells (parameters : Parameters) :
    Tells (fun item : String × Select => Readable item.1 item.2) (text parameters)
      (fun item => (item.2.projection.normal, item.1,
        Piece.writeAll (Filter.clause item.2.filter parameters).1, item.2.order.entries,
        item.2.limit, item.2.offset, item.2.options.isParallel,
        item.2.options.timeout.map Duration.milliseconds)) [";"] := by
  have columns : Tells (fun item : String × Select => Readable item.1 item.2) _ _ [" FROM "] :=
    (Tells.columns.behind "SELECT ").comap (fun item => item.2.projection)
      fun _ valid => ⟨valid.wanted, valid.columns⟩
  -- Each clause takes its keyword off the front of the marks, so the rest are its own marks.
  have table : Tells (fun item : String × Select => Readable item.1 item.2) _ _
      [" WHERE ", " ORDER BY ", " LIMIT ", " START AT ", " PARALLEL", " TIMEOUT ", ";"] :=
    (Tells.name (by decide)).comap Prod.fst fun _ valid => valid.table
  have filtered := (columns.thenBehind table).append
    ((Tells.filter (by decide)).comap (fun item => (item.2.filter, parameters))
      fun _ valid => valid.filter)
    fun item _ valid goesOn => Filter.goesOn_clause valid.filter parameters goesOn
  have ordered := filtered.thenClause (Tells.order (by decide)) (by decide)
    (fun item => given? item.2.order.entries) fun _ valid => valid_given? valid.order
  have limited := ordered.thenClause (Tells.number (by decide)) (by decide)
    (fun item => item.2.limit.map UInt64.toNat) fun _ _ _ _ => trivial
  have moved := limited.thenClause (Tells.number (by decide)) (by decide)
    (fun item => item.2.offset.map UInt64.toNat) fun _ _ _ _ => trivial
  have parallel := moved.thenClause (Tells.nothing _) (by decide)
    (fun item => flag? item.2.options.isParallel) fun _ _ _ _ => trivial
  have timed := parallel.thenClause (Tells.milliseconds _) (by decide)
    (fun item => item.2.options.timeout.map Duration.milliseconds) fun _ _ _ _ => trivial
  refine timed.transfer id (fun _ valid => valid) ?_ ?_
  · intro item _
    rw [text, tail, orderClause_eq, numberClause_eq, numberClause_eq, Options.parallelClause_eq,
      Options.timeoutClause_eq]
    simp only [String.append_assoc, id]
  · intro first second _ _ same
    simp only [Prod.mk.injEq, Option.map_id_fun, id] at same
    obtain ⟨⟨⟨⟨⟨⟨⟨projections, tables⟩, conditions⟩, orders⟩, limits⟩, offsets⟩, flags⟩, times⟩ :=
      same
    have numbers := Option.map_injective fun _ _ => UInt64.toNat_inj.mp
    rw [projections, tables, conditions, given?_injective orders, numbers limits, numbers offsets,
      flag?_injective flags, times]

end Select

/-! ### Updates -/

/-- Sequences that are joined are written with the separator between their texts. -/
theorem Piece.writeAll_joined (separator : String) (sequences : List (List Piece)) :
    writeAll (joined separator sequences) =
      String.intercalate separator (sequences.map writeAll) := by
  match sequences with
  | [] => rfl
  | [single] => rw [joined, List.intercalate_singleton, List.map_singleton,
      String.intercalate_singleton]
  | first :: second :: rest =>
    have later := writeAll_joined separator (second :: rest)
    rw [joined] at later
    simp only [joined, List.intercalate_cons_cons, writeAll_append, later, List.map_cons,
      String.intercalate_cons_cons, writeAll, write, String.append_empty]

namespace Update

/-- An update that can be read: its names are plain, and it assigns something. -/
structure Readable (table : String) (query : Update) : Prop where
  table : PlainName table
  assigns : query.assignments.names ≠ []
  assignments : ∀ name ∈ query.assignments.names, PlainName name
  filter : Filter.HasPlainNames query.filter

/-- The text of an update in front of the semicolon. -/
def text (parameters : Parameters) (item : String × Update) : String :=
  "UPDATE " ++ item.1 ++ " SET " ++ Statement.assignmentsText item.2 ++
    Piece.writeAll (Filter.clause item.2.filter
      (parameters.bindAll item.2.assignments.entries)).1 ++ item.2.tail

theorem assignmentsText_eq (query : Update) :
    Statement.assignmentsText query =
      String.intercalate ", "
        (query.assignments.names.map fun name => name ++ (" = $" ++ name)) := by
  rw [Statement.assignmentsText, Piece.writeAll_joined, List.map_map]
  refine congrArg _ (List.map_congr_left fun name _ => ?_)
  show name ++ (" = " ++ ("$" ++ name ++ "")) = name ++ (" = " ++ "$" ++ name)
  rw [String.append_empty, String.append_assoc]

theorem tail_eq (query : Update) :
    query.tail =
      clauseText " RETURN " Returning.keyword query.returning ++ query.options.timeoutClause ++
        query.options.parallelClause := by
  rw [tail]
  cases query.returning <;> rfl

/-- An assignment tells its field. -/
theorem tells_assignment (ends : EndsRun RecordKey.continuesBare marks) :
    Tells PlainName (fun name => name ++ (" = $" ++ name)) id marks := by
  have field : Tells PlainName id id [" = $"] := Tells.name (by decide)
  exact (field.thenBehind (Tells.name ends)).transfer id (fun _ plain => plain) (fun _ _ => rfl)
    fun _ _ _ _ same => congrArg Prod.fst same

theorem tells_assignments (ends : EndsRun RecordKey.continuesBare (", " :: marks))
    (apart : Apart ", " marks) :
    Tells (fun names => names ≠ [] ∧ ∀ name ∈ names, PlainName name)
      (fun names => String.intercalate ", " (names.map fun name => name ++ (" = $" ++ name))) id
      marks :=
  ((tells_assignment ends).separated apart).transfer id (fun _ valid => valid) (fun _ _ => rfl)
    fun _ _ _ _ same => by simpa using same

theorem tells (parameters : Parameters) :
    Tells (fun item : String × Update => Readable item.1 item.2) (text parameters)
      (fun item => (item.1, item.2.assignments.names,
        Piece.writeAll (Filter.clause item.2.filter
          (parameters.bindAll item.2.assignments.entries)).1,
        item.2.returning, item.2.options.timeout.map Duration.milliseconds,
        item.2.options.isParallel)) [";"] := by
  have table : Tells (fun item : String × Update => Readable item.1 item.2) _ _ [" SET "] :=
    ((Tells.name (by decide)).behind "UPDATE ").comap Prod.fst fun _ valid => valid.table
  have assignments : Tells (fun item : String × Update => Readable item.1 item.2) _ _
      [" WHERE ", " RETURN ", " TIMEOUT ", " PARALLEL", ";"] :=
    (tells_assignments (by decide) (by decide)).comap (fun item => item.2.assignments.names)
      fun _ valid => ⟨valid.assigns, valid.assignments⟩
  have filtered := (table.thenBehind assignments).append
    ((Tells.filter (by decide)).comap
      (fun item => (item.2.filter, parameters.bindAll item.2.assignments.entries))
      fun _ valid => valid.filter)
    fun item _ valid goesOn => Filter.goesOn_clause valid.filter _ goesOn
  have returned := filtered.thenClause (Tells.keyword Returning.apart _) (by decide)
    (fun item => item.2.returning) fun _ _ _ _ => trivial
  have timed := returned.thenClause (Tells.milliseconds _) (by decide)
    (fun item => item.2.options.timeout.map Duration.milliseconds) fun _ _ _ _ => trivial
  have parallel := timed.thenClause (Tells.nothing _) (by decide)
    (fun item => flag? item.2.options.isParallel) fun _ _ _ _ => trivial
  refine parallel.transfer id (fun _ valid => valid) ?_ ?_
  · intro item _
    rw [text, tail_eq, assignmentsText_eq, Options.parallelClause_eq, Options.timeoutClause_eq]
    simp only [String.append_assoc, id]
  · intro first second _ _ same
    simp only [Prod.mk.injEq, Option.map_id_fun, id] at same
    obtain ⟨⟨⟨⟨⟨tables, names⟩, conditions⟩, modes⟩, times⟩, flags⟩ := same
    rw [tables, names, conditions, modes, times, flag?_injective flags]

end Update

/-! ### Creates -/

namespace Create

theorem keyClause_eq (query : Create) :
    query.keyClause = clauseText ":" RecordKey.write query.key := by
  rw [keyClause]
  cases query.key <;> rfl

/-- The start of a create tells its table and its key. -/
theorem tells : Tells (fun item : String × Create => PlainName item.1)
    (fun item => "CREATE ONLY " ++ item.1 ++ item.2.keyClause)
    (fun item => (item.1, item.2.key)) [" CONTENT "] := by
  have table : Tells (fun item : String × Create => PlainName item.1) _ _ [":", " CONTENT "] :=
    ((Tells.name (by decide)).behind "CREATE ONLY ").comap Prod.fst fun _ plain => plain
  have key := table.thenClause (Tells.key (by decide)) (by decide) (fun item => item.2.key)
    fun _ _ _ _ => trivial
  refine key.transfer id (fun _ plain => plain) ?_ ?_
  · intro item _
    rw [keyClause_eq]
    rfl
  · intro first second _ _ same
    simpa using same

end Create

end DocQuery
