/-
This file proves which statements the deployment of a table sends, and what its error tells.

The definitions of a table are its own, and then for each field its own and, if the field is
unique, that of its index. As the names in them lead back to the table and to its fields, their
texts can be given without any look-up. Sending goes through them in order and stops at the first
that the backend does not accept, so at every time what has been sent is a prefix. An index stands
directly behind its field and therefore is never sent before the field has been accepted.
-/

import DocQuery.Backend.Log
import DocQuery.Backend.Script
import DocQuery.Proofs.Declaration
import DocQuery.Proofs.ErrorContext
import DocQuery.Proofs.LocalErrors

namespace DocQuery

variable {State : Type}

/-! ### The definitions of a table -/

/-- What a definition is about: the table, a field of it, or the index of a field. -/
inductive Subject where
  | ofTable
  | ofField (field : Field)
  | ofIndex (field : Field)

namespace Subject

/-- The statement of a definition, which holds names only. -/
def statement (table : Table) : Subject → Statement
  | ofTable => .defineTable table.name
  | ofField field => .defineField table.name field.nameOrEmpty
  | ofIndex field => .defineIndex table.name field.nameOrEmpty

/-- The definition without the mark that ends a statement. -/
def definition (schema : Schema) (table : Table) : Subject → Except Error String
  | ofTable =>
    .ok ("DEFINE TABLE " ++ (if table.overwrite then "OVERWRITE " else "") ++ table.name ++
      " SCHEMAFULL PERMISSIONS NONE")
  | ofField field => field.definition schema table.name
  | ofIndex field =>
    .ok ("DEFINE INDEX " ++ field.nameOrEmpty ++ "_UNIQUE ON " ++ table.name ++ " FIELDS " ++
      field.nameOrEmpty ++ " UNIQUE")

/-- The text of a definition. -/
def text (schema : Schema) (table : Table) (subject : Subject) : Except Error String :=
  (subject.definition schema table).map fun text => text ++ ";"

end Subject

/-- A text that is sent with nothing bound. -/
def Compiled.ofText (text : String) : Compiled :=
  ⟨text, Dictionary.empty⟩

/-- The definitions of a field: its own and, if it is unique, that of its index. -/
def Field.subjects (field : Field) : List Subject :=
  .ofField field :: if field.isUnique then [.ofIndex field] else []

/-- The definitions of a table: its own, then those of its fields in order. -/
def Table.subjects (table : Table) : List Subject :=
  .ofTable :: table.fields.items.flatMap Field.subjects

theorem Statement.definitions_eq (table : Table) :
    definitions table = table.subjects.map (Subject.statement table) := by
  rw [definitions, Table.subjects, List.map_cons, List.map_flatMap, Subject.statement]
  refine congrArg (List.cons (Statement.defineTable table.name)) ?_
  refine congrArg (fun each => List.flatMap each table.fields.items) (funext fun field => ?_)
  rw [fieldDefinitions, Field.subjects, List.map_cons]
  cases field.isUnique <;> rfl

theorem Field.mem_subjects {field : Field} {subject : Subject} (member : subject ∈ field.subjects) :
    subject = .ofField field ∨ subject = .ofIndex field := by
  rw [subjects, List.mem_cons] at member
  refine member.imp_right fun later => ?_
  split at later
  · exact List.mem_singleton.mp later
  · cases later

theorem Table.ofField_mem_subjects {table : Table} {field : Field}
    (member : field ∈ table.fields.items) : Subject.ofField field ∈ table.subjects := by
  rw [subjects, List.mem_cons, List.mem_flatMap]
  exact .inr ⟨field, member, List.mem_cons_self⟩

theorem Table.subject_cases {table : Table} {subject : Subject}
    (member : subject ∈ table.subjects) :
    subject = .ofTable ∨ ∃ field ∈ table.fields.items,
      subject = .ofField field ∨ subject = .ofIndex field := by
  rw [subjects, List.mem_cons, List.mem_flatMap] at member
  refine member.imp_right ?_
  rintro ⟨field, among, mentioned⟩
  exact ⟨field, among, Field.mem_subjects mentioned⟩

namespace Schema.Files

variable {schema : Schema} {table : Table}

theorem definedTable_eq (files : schema.Files table) :
    schema.definedTable table.name = .ok table := by
  rw [definedTable, files.table?_eq]

theorem definedField_eq (files : schema.Files table) {field : Field}
    (member : field ∈ table.fields.items) :
    schema.definedField table.name field.nameOrEmpty = .ok (table, field) := by
  rw [definedField, files.definedTable_eq]
  dsimp only
  rw [(files.fieldsNamed.field?_eq member).2]

/-- The names in the definition of a table or of a field of it lead to that table and field. -/
theorem write_statement (files : schema.Files table) {subject : Subject}
    (member : subject ∈ table.subjects) (parameters : Parameters) :
    (subject.statement table).write schema parameters =
      Statement.ofDefinition (subject.definition schema table) parameters := by
  obtain rfl | ⟨field, among, cases⟩ := Table.subject_cases member
  · have written : schema.tableDefinition table.name =
        Subject.ofTable.definition schema table := by
      rw [tableDefinition, files.definedTable_eq]
      rfl
    rw [← written]
    exact if_neg files.name_ne
  · have found := files.definedField_eq among
    have named := (files.fieldsNamed.field?_eq among).1
    rcases cases with rfl | rfl
    · have written : schema.fieldDefinition table.name field.nameOrEmpty =
          (Subject.ofField field).definition schema table := by
        rw [fieldDefinition, found]
        rfl
      rw [← written]
      exact if_neg files.name_ne
    · have written : schema.indexDefinition table.name field.nameOrEmpty =
          (Subject.ofIndex field).definition schema table := by
        rw [indexDefinition, found, Subject.definition]
        dsimp only [bind, Except.bind]
        rw [named]
        rfl
      rw [← written]
      exact if_neg files.name_ne

/-- Each definition of a table is serialized to its text, and binds nothing. -/
theorem serialize_statement (files : schema.Files table) {subject : Subject}
    (member : subject ∈ table.subjects) (initial : Bindings) :
    (subject.statement table).serialize schema initial = (subject.text schema table, initial) := by
  rw [Statement.serialize, files.write_statement member, Subject.text]
  cases subject.definition schema table with
  | error error => rfl
  | ok text =>
    simp only [Statement.ofDefinition, Except.map, Piece.finish_eq, Piece.writeAll, Piece.write,
      String.append_empty]
    rfl

theorem compile_statement (files : schema.Files table) {subject : Subject}
    (member : subject ∈ table.subjects) :
    (subject.statement table).compile schema =
      (subject.text schema table).map Compiled.ofText := by
  rw [Statement.compile, files.serialize_statement member]
  cases subject.text schema table <;> rfl

end Schema.Files

/-! ### Sending texts in order -/

namespace Log

/-- The entries of texts that were all accepted. -/
def acceptances (texts : List String) : List LogEntry :=
  texts.map fun text => ⟨Compiled.ofText text, false⟩

/-- The log after texts that were all accepted. -/
def accept (log : Log) (texts : List String) : Log :=
  ⟨log.entries ++ acceptances texts⟩

theorem accept_nil (log : Log) : log.accept [] = log := by
  rw [accept, acceptances, List.map_nil, List.append_nil]

theorem accept_cons (log : Log) (text : String) (rest : List String) :
    (log.record ⟨Compiled.ofText text, false⟩).accept rest = log.accept (text :: rest) := by
  rw [accept, accept, record, List.append_assoc, List.singleton_append, acceptances, acceptances,
    List.map_cons]

end Log

namespace Backend

theorem run_logged_of_ok {backend : Backend State} {compiled : Compiled} {state next : State}
    {response : Response} (accepts : backend.execute compiled state = (.ok response, next))
    (log : Log) :
    backend.logged.run compiled (state, log) =
      (.ok response, (next, log.record ⟨compiled, false⟩)) := by
  simp only [run, logged, accepts]

theorem run_logged_of_error {backend : Backend State} {compiled : Compiled} {state next : State}
    {rejection : Error} (rejects : backend.execute compiled state = (.error rejection, next))
    (log : Log) :
    backend.logged.run compiled (state, log) =
      (.error ⟨.executionFailed compiled.text compiled.bindings, rejection.failures⟩,
        (next, log.record ⟨compiled, true⟩)) := by
  simp only [run, logged, rejects, Error.context_ofFailure]

/-- The backend accepts texts one after the other and moves from a state to another. -/
inductive Accepts (backend : Backend State) : List String → State → State → Prop
  | nil (state : State) : Accepts backend [] state state
  | cons {text : String} {rest : List String} {state next last : State} {response : Response}
      (here : backend.execute (Compiled.ofText text) state = (.ok response, next))
      (later : Accepts backend rest next last) : Accepts backend (text :: rest) state last

/-- Texts are all accepted, or there is a first one that is rejected. -/
theorem accepts_or_rejects (backend : Backend State) (entries : List (Subject × String))
    (state : State) :
    (∃ last, backend.Accepts (entries.map Prod.snd) state last) ∨
    ∃ before subject text after middle rejection last,
      entries = before ++ (subject, text) :: after ∧
      backend.Accepts (before.map Prod.snd) state middle ∧
      backend.execute (Compiled.ofText text) middle = (.error rejection, last) := by
  induction entries generalizing state with
  | nil => exact .inl ⟨state, .nil state⟩
  | cons entry rest inductionHypothesis =>
    rcases answer : backend.execute (Compiled.ofText entry.2) state with ⟨_ | response, next⟩
    · exact .inr ⟨[], entry.1, entry.2, rest, state, _, next, rfl, .nil state, answer⟩
    · obtain ⟨last, accepts⟩ | ⟨before, subject, text, after, middle, rejection, last, rfl,
        accepts, rejects⟩ := inductionHypothesis next
      · exact .inl ⟨last, .cons answer accepts⟩
      · exact .inr ⟨entry :: before, subject, text, after, middle, rejection, last, rfl,
          .cons answer accepts, rejects⟩

end Backend

/-- Definitions as they are sent. -/
def compiledOf (table : Table) (definitions : List (Subject × String)) :
    List (Statement × Compiled) :=
  definitions.map fun entry => (entry.1.statement table, Compiled.ofText entry.2)

namespace TableHandle

/-- Definitions that are accepted are entered into the log, and sending goes on behind them. -/
theorem submitAll_append (backend : Backend State) (table : Table)
    {before : List (Subject × String)} (rest : List (Subject × String)) (index : Nat)
    {state middle : State} (log : Log)
    (accepts : backend.Accepts (before.map Prod.snd) state middle) :
    submitAll backend.logged table.name index (compiledOf table (before ++ rest)) (state, log) =
      submitAll backend.logged table.name (index + before.length) (compiledOf table rest)
        (middle, log.accept (before.map Prod.snd)) := by
  induction before generalizing index state log with
  | nil =>
    cases accepts
    rw [List.map_nil, Log.accept_nil]
    rfl
  | cons entry others inductionHypothesis =>
    rcases accepts with _ | ⟨here, later⟩
    have next := inductionHypothesis (index + 1) (log.record ⟨Compiled.ofText entry.2, false⟩) later
    rw [compiledOf] at next
    rw [List.cons_append, compiledOf, List.map_cons, submitAll, Backend.run_logged_of_ok here]
    dsimp only
    rw [next, Log.accept_cons, List.length_cons, Nat.add_right_comm, Nat.add_assoc]
    rfl

/-- A definition that is rejected is entered into the log and ends the sending. -/
theorem submitAll_rejected (backend : Backend State) (table : Table) (subject : Subject)
    (text : String) (rest : List (Subject × String)) (index : Nat) {state last : State} (log : Log)
    {rejection : Error}
    (rejects : backend.execute (Compiled.ofText text) state = (.error rejection, last)) :
    submitAll backend.logged table.name index (compiledOf table ((subject, text) :: rest))
        (state, log) =
      (.error ⟨.partialDeployment table.name (subject.statement table).field? index,
        .executionFailed text Dictionary.empty :: rejection.failures⟩,
        (last, log.record ⟨Compiled.ofText text, true⟩)) := by
  rw [compiledOf, List.map_cons, submitAll, Backend.run_logged_of_error rejects]
  dsimp only
  rw [Error.context_ofFailure]
  rfl

end TableHandle

/-! ### Compiling the definitions -/

namespace Subject

/-- Definitions all have a text, or there is a first one that has none. -/
theorem texts_or_failure (schema : Schema) (table : Table) (subjects : List Subject) :
    (∃ definitions : List (Subject × String), subjects = definitions.map Prod.fst ∧
      ∀ entry ∈ definitions, entry.1.text schema table = .ok entry.2) ∨
    ∃ (definitions : List (Subject × String)) (failing : Subject) (after : List Subject)
      (error : Error), subjects = definitions.map Prod.fst ++ failing :: after ∧
      (∀ entry ∈ definitions, entry.1.text schema table = .ok entry.2) ∧
      failing.text schema table = .error error := by
  induction subjects with
  | nil => exact .inl ⟨[], rfl, List.forall_mem_nil _⟩
  | cons subject rest inductionHypothesis =>
    cases here : subject.text schema table with
    | error error =>
      exact .inr ⟨[], subject, rest, error, rfl, List.forall_mem_nil _, here⟩
    | ok text =>
      obtain ⟨definitions, rfl, texts⟩ | ⟨definitions, failing, after, error, rfl, texts, fails⟩ :=
        inductionHypothesis
      · exact .inl ⟨(subject, text) :: definitions, rfl, List.forall_mem_cons.mpr ⟨here, texts⟩⟩
      · exact .inr ⟨(subject, text) :: definitions, failing, after, error, rfl,
          List.forall_mem_cons.mpr ⟨here, texts⟩, fails⟩

end Subject

/-- The definitions of a table, each with its text. -/
structure Table.HasTexts (table : Table) (schema : Schema)
    (definitions : List (Subject × String)) : Prop where
  subjects_eq : table.subjects = definitions.map Prod.fst
  text_eq : ∀ entry ∈ definitions, entry.1.text schema table = .ok entry.2

namespace TableHandle

variable {database : Database} {table : Table}

/-- Compiling goes past definitions that have a text. -/
theorem compileAll_append (files : database.schema.Files table)
    {definitions : List (Subject × String)} (rest : List Subject)
    (members : ∀ subject ∈ definitions.map Prod.fst ++ rest, subject ∈ table.subjects)
    (texts : ∀ entry ∈ definitions, entry.1.text database.schema table = .ok entry.2) :
    compileAll database
        ((definitions.map Prod.fst ++ rest).map (Subject.statement table)) =
      (compileAll database (rest.map (Subject.statement table))).map
        fun compiled => compiledOf table definitions ++ compiled := by
  induction definitions with
  | nil =>
    rw [List.map_nil, List.nil_append]
    cases compileAll database (rest.map (Subject.statement table)) <;> rfl
  | cons entry others inductionHypothesis =>
    rw [List.map_cons, List.cons_append] at members ⊢
    rw [List.forall_mem_cons] at members texts
    rw [List.map_cons, compileAll, Database.compile, files.compile_statement members.1, texts.1,
      inductionHypothesis members.2 texts.2]
    cases compileAll database (rest.map (Subject.statement table)) <;> rfl

/-- A table of which each definition has a text is set up by sending the texts. -/
theorem deploy_of_texts (files : database.schema.Files table)
    {definitions : List (Subject × String)} (texts : table.HasTexts database.schema definitions)
    (backend : Backend State) (state : State) :
    deploy ⟨database, table⟩ backend state =
      submitAll backend table.name 0 (compiledOf table definitions) state := by
  have compiled := compileAll_append files []
    (by rw [List.append_nil, texts.subjects_eq]; exact fun _ => id) texts.text_eq
  rw [List.append_nil, ← texts.subjects_eq, ← Statement.definitions_eq, List.map_nil, compileAll,
    Except.map, List.append_nil] at compiled
  rw [deploy, compiled]

end TableHandle

/-! ### An index stands behind its field -/

/-- Every index in the list stands directly behind its field. -/
def IndicesFollow (subjects : List Subject) : Prop :=
  ∀ earlier later field, subjects = earlier ++ .ofIndex field :: later →
    ∃ previous, earlier = previous ++ [.ofField field]

namespace IndicesFollow

theorem append {left right : List Subject} (first : IndicesFollow left)
    (second : IndicesFollow right) : IndicesFollow (left ++ right) := by
  intro earlier later field parts
  rcases List.append_eq_append_iff.mp parts with ⟨between, rfl, rest⟩ | ⟨between, rfl, rest⟩
  · obtain ⟨previous, rfl⟩ := second between later field rest
    exact ⟨left ++ previous, (List.append_assoc _ _ _).symm⟩
  · cases between with
    | nil =>
      obtain ⟨previous, none⟩ := second [] later field rest.symm
      simp at none
    | cons index others =>
      rw [List.cons_append, List.cons.injEq] at rest
      obtain ⟨rfl, -⟩ := rest
      exact first earlier others field rfl

theorem ofField_subjects (field : Field) : IndicesFollow field.subjects := by
  intro earlier later other parts
  rw [Field.subjects] at parts
  split at parts
  · match earlier with
    | [] => cases parts
    | [own] =>
      cases parts
      exact ⟨[], rfl⟩
    | own :: index :: rest => simp at parts
  · match earlier with
    | [] => cases parts
    | own :: rest => simp at parts

theorem flatMap_subjects (fields : List Field) :
    IndicesFollow (fields.flatMap Field.subjects) := by
  induction fields with
  | nil =>
    intro earlier later field parts
    simp at parts
  | cons field rest inductionHypothesis =>
    rw [List.flatMap_cons]
    exact (ofField_subjects field).append inductionHypothesis

theorem table_subjects (table : Table) : IndicesFollow table.subjects := by
  have own : IndicesFollow [Subject.ofTable] := by
    intro earlier later field parts
    match earlier with
    | [] => cases parts
    | own :: rest => simp at parts
  exact own.append (flatMap_subjects table.fields.items)

end IndicesFollow

/-! ### What a deployment sends -/

/-- The first definition of a table is its own, and every other is about one of its fields. -/
theorem Table.subject_eq {table : Table} {before after : List Subject} {subject : Subject}
    (parts : table.subjects = before ++ subject :: after) :
    (before = [] ∧ subject = .ofTable) ∨
    (before ≠ [] ∧ ∃ field ∈ table.fields.items,
      subject = .ofField field ∨ subject = .ofIndex field) := by
  rw [subjects] at parts
  cases before with
  | nil => exact .inl ⟨rfl, (List.cons.inj parts).1.symm⟩
  | cons first rest =>
    rw [List.cons_append, List.cons.injEq] at parts
    have member : subject ∈ table.fields.items.flatMap Field.subjects := by
      rw [parts.2]
      exact List.mem_append_right _ List.mem_cons_self
    obtain ⟨field, among, mentioned⟩ := List.mem_flatMap.mp member
    exact .inr ⟨List.cons_ne_nil _ _, field, among, Field.mem_subjects mentioned⟩

/-- An index is among what was sent only behind the definition of its field, which was accepted. -/
def Table.SendsFieldsFirst (table : Table) (schema : Schema) (sent : List LogEntry) : Prop :=
  ∀ earlier later field, table.subjects = earlier ++ .ofIndex field :: later →
    earlier.length < sent.length →
      ∃ previous text, earlier = previous ++ [.ofField field] ∧
        (Subject.ofField field).text schema table = .ok text ∧
        sent[previous.length]? = some ⟨Compiled.ofText text, false⟩

/-- Where all definitions that were sent, but perhaps the last, were accepted, the definition of a
field stands accepted in front of its index. -/
theorem Table.HasTexts.sendsFieldsFirst {schema : Schema} {table : Table}
    {front back : List (Subject × String)} (texts : table.HasTexts schema (front ++ back))
    {last : List LogEntry} (single : last.length ≤ 1) :
    table.SendsFieldsFirst schema (Log.acceptances (front.map Prod.snd) ++ last) := by
  intro earlier later field parts sent
  obtain ⟨previous, rfl⟩ := IndicesFollow.table_subjects table earlier later field parts
  have within : previous.length < front.length := by
    simp only [Log.acceptances, List.length_append, List.length_map, List.length_singleton]
      at sent
    omega
  have subject : front[previous.length].1 = .ofField field := by
    have same := congrArg (fun subjects => subjects[previous.length]?)
      (texts.subjects_eq.symm.trans parts)
    simpa [List.getElem?_append, within] using same
  have text := texts.text_eq front[previous.length]
    (List.mem_append_left _ (List.getElem_mem within))
  rw [subject] at text
  refine ⟨previous, front[previous.length].2, rfl, text, ?_⟩
  simp [Log.acceptances, List.getElem?_append, within]

namespace TableHandle

/-- The statements of a deployment are compiled to the texts of the definitions, with nothing
bound. -/
structure CompilesToTexts (handle : TableHandle) : Prop where
  definitions_eq : Statement.definitions handle.table =
    handle.table.subjects.map (Subject.statement handle.table)
  compile_eq : ∀ subject ∈ handle.table.subjects,
    handle.database.compile (subject.statement handle.table) =
      (subject.text handle.database.schema handle.table).map Compiled.ofText

section Outcomes

variable (handle : TableHandle) (backend : Backend State) (state : State) (log : Log)

/-- A definition has no text, the first such gives a local error, and nothing is sent. -/
structure FailsToWrite (written : List (Subject × String)) (failing : Subject)
    (after : List Subject) (error : Error) : Prop where
  subjects_eq : handle.table.subjects = written.map Prod.fst ++ failing :: after
  text_eq : ∀ entry ∈ written, entry.1.text handle.database.schema handle.table = .ok entry.2
  fails : failing.text handle.database.schema handle.table = .error error
  isLocal : error.isLocal = true
  deploy_eq : handle.deploy backend.logged (state, log) = (.error error, (state, log))

/-- All texts are sent, once and in order, and accepted. -/
structure SendsAll (definitions : List (Subject × String)) (last : State) : Prop where
  texts : handle.table.HasTexts handle.database.schema definitions
  accepts : backend.Accepts (definitions.map Prod.snd) state last
  deploy_eq : handle.deploy backend.logged (state, log) =
    (.ok (), (last, log.accept (definitions.map Prod.snd)))

/-- The texts before one are accepted, and that one is rejected and is the last to be sent. -/
structure StopsAt (before : List (Subject × String)) (subject : Subject) (text : String)
    (after : List (Subject × String)) (middle last : State) (rejection error : Error) : Prop where
  texts : handle.table.HasTexts handle.database.schema (before ++ (subject, text) :: after)
  accepts : backend.Accepts (before.map Prod.snd) state middle
  rejects : backend.execute (Compiled.ofText text) middle = (.error rejection, last)
  deploy_eq : handle.deploy backend.logged (state, log) =
    (.error error, (last, (log.accept (before.map Prod.snd)).record ⟨Compiled.ofText text, true⟩))

end Outcomes

/-- What the error tells of a deployment that stopped at a text: the index of the text, the field
that it is about, the text itself and what the backend said. -/
structure RejectionTells (table : Table) (before : List (Subject × String)) (subject : Subject)
    (text : String) (rejection error : Error) : Prop where
  failure_eq : error.failure = .partialDeployment table.name error.failedField? before.length
  index_eq : error.statementIndex? = some before.length
  ofTable : before = [] → error.failedField? = none
  ofField : before ≠ [] → ∃ field ∈ table.fields.items, ∃ name,
    (subject = .ofField field ∨ subject = .ofIndex field) ∧
      field.name = some name ∧ error.failedField? = some name
  statement_eq : error.statement? = some text
  root_eq : error.root = rejection.root
  root_of_causeless : rejection.causes = [] → error.root = rejection

variable {database : Database} {table : Table} {backend : Backend State} {state : State}

theorem failsToWrite (files : database.schema.Files table) {written : List (Subject × String)}
    {failing : Subject} {after : List Subject} {error : Error}
    (all : table.subjects = written.map Prod.fst ++ failing :: after)
    (texts : ∀ entry ∈ written, entry.1.text database.schema table = .ok entry.2)
    (fails : failing.text database.schema table = .error error) (backend : Backend State)
    (state : State) (log : Log) :
    FailsToWrite ⟨database, table⟩ backend state log written failing after error := by
  have member : failing ∈ table.subjects := by
    rw [all]
    exact List.mem_append_right _ List.mem_cons_self
  have failed : database.compile (failing.statement table) = .error error := by
    rw [Database.compile, files.compile_statement member, fails]
    rfl
  have compiled := compileAll_append files (failing :: after) (by rw [all]; exact fun _ => id) texts
  rw [← all, ← Statement.definitions_eq, List.map_cons, compileAll, failed, Except.map] at compiled
  refine ⟨all, texts, fails, Statement.compile_failsLocally _ _ error failed, ?_⟩
  rw [deploy, compiled]

theorem sendsAll (files : database.schema.Files table) {definitions : List (Subject × String)}
    (texts : table.HasTexts database.schema definitions) {last : State}
    (accepts : backend.Accepts (definitions.map Prod.snd) state last) (log : Log) :
    SendsAll ⟨database, table⟩ backend state log definitions last := by
  have sent := submitAll_append backend table [] 0 log accepts
  rw [List.append_nil] at sent
  refine ⟨texts, accepts, ?_⟩
  rw [deploy_of_texts files texts, sent]
  rfl

theorem stopsAt (files : database.schema.Files table) {before after : List (Subject × String)}
    {subject : Subject} {text : String}
    (texts : table.HasTexts database.schema (before ++ (subject, text) :: after))
    {middle last : State} {rejection : Error}
    (accepts : backend.Accepts (before.map Prod.snd) state middle)
    (rejects : backend.execute (Compiled.ofText text) middle = (.error rejection, last))
    (log : Log) :
    ∃ error, StopsAt ⟨database, table⟩ backend state log before subject text after middle last
        rejection error ∧
      RejectionTells table before subject text rejection error := by
  have deployed : deploy ⟨database, table⟩ backend.logged (state, log) =
      (.error ⟨.partialDeployment table.name (subject.statement table).field? before.length,
        .executionFailed text Dictionary.empty :: rejection.failures⟩,
        (last, (log.accept (before.map Prod.snd)).record ⟨Compiled.ofText text, true⟩)) := by
    rw [deploy_of_texts files texts, submitAll_append backend table _ 0 log accepts, Nat.zero_add,
      submitAll_rejected backend table subject text after _ _ rejects]
  have innermost := (Error.root_eq_root (.partialDeployment table.name
    (subject.statement table).field? before.length)
    ⟨.executionFailed text Dictionary.empty, rejection.failures⟩).trans
      (Error.root_eq_root _ rejection)
  have position : table.subjects = before.map Prod.fst ++ subject :: after.map Prod.fst := by
    rw [texts.subjects_eq, List.map_append, List.map_cons]
  refine ⟨_, ⟨texts, accepts, rejects, deployed⟩, rfl, rfl, ?ofTable, ?ofField, rfl, innermost,
    fun single => innermost.trans (Error.root_eq_self single)⟩
  case ofTable =>
    rintro rfl
    obtain ⟨-, rfl⟩ | ⟨other, -⟩ := Table.subject_eq position
    · rfl
    · exact absurd rfl other
  case ofField =>
    intro later
    obtain ⟨none, -⟩ | ⟨-, field, among, about⟩ := Table.subject_eq position
    · exact absurd (List.map_eq_nil_iff.mp none) later
    · refine ⟨field, among, field.nameOrEmpty, about, (files.fieldsNamed.field?_eq among).1, ?_⟩
      rcases about with rfl | rfl <;> rfl

/-- What the deployment of a table sends, and how it ends. Its statements are compiled to the texts
of its definitions with nothing bound. If one of them has no text, the first such gives a local
error and nothing is sent. Otherwise either all texts are sent, once and in order, and accepted;
or those before some text are accepted and that text is rejected, and then it is the last to be
sent, and the error tells its index, the field that it is about, the text and what the backend
said. In each case an index is sent only behind the definition of its field, which was accepted. -/
theorem deploy_sends_in_order {tables : List Table} {defaults : Options} {database : Database}
    (declared : ∀ table ∈ tables, table.Declared)
    (built : Database.build tables defaults = .ok database) {table : Table}
    (member : table ∈ database.schema.tables.items) (backend : Backend State) (state : State)
    (log : Log) :
    CompilesToTexts ⟨database, table⟩ ∧
    ((∃ written failing after error,
        FailsToWrite ⟨database, table⟩ backend state log written failing after error) ∨
      (∃ definitions last, SendsAll ⟨database, table⟩ backend state log definitions last) ∨
      ∃ before subject text after middle last rejection error,
        StopsAt ⟨database, table⟩ backend state log before subject text after middle last
          rejection error ∧
        RejectionTells table before subject text rejection error) ∧
    ∀ sent : List LogEntry,
      (deploy ⟨database, table⟩ backend.logged (state, log)).2.2.entries = log.entries ++ sent →
        table.SendsFieldsFirst database.schema sent := by
  have files := Schema.files_of_build declared (Database.build_eq_ok built).1 member
  refine ⟨⟨Statement.definitions_eq table, fun subject among => files.compile_statement among⟩, ?_⟩
  obtain ⟨definitions, all, each⟩ | ⟨written, failing, after, error, all, each, fails⟩ :=
    Subject.texts_or_failure database.schema table table.subjects
  · have texts : table.HasTexts database.schema definitions := ⟨all, each⟩
    obtain ⟨last, accepts⟩ | ⟨before, subject, text, after, middle, rejection, last, rfl, accepts,
      rejects⟩ := backend.accepts_or_rejects definitions state
    · have outcome := sendsAll files texts accepts log
      refine ⟨.inr (.inl ⟨definitions, last, outcome⟩), fun sent entries => ?_⟩
      rw [outcome.deploy_eq] at entries
      obtain rfl := List.append_cancel_left entries
      have whole : table.HasTexts database.schema (definitions ++ []) := by rwa [List.append_nil]
      have accepted : table.SendsFieldsFirst database.schema
          (Log.acceptances (definitions.map Prod.snd) ++ []) :=
        whole.sendsFieldsFirst (Nat.zero_le 1)
      rwa [List.append_nil] at accepted
    · obtain ⟨error, outcome, tells⟩ := stopsAt files texts accepts rejects log
      refine ⟨.inr (.inr ⟨_, _, _, _, _, _, _, error, outcome, tells⟩), fun sent entries => ?_⟩
      rw [outcome.deploy_eq, Log.record, Log.accept, List.append_assoc] at entries
      obtain rfl := List.append_cancel_left entries
      exact texts.sendsFieldsFirst (Nat.le_refl 1)
  · have outcome := failsToWrite files all each fails backend state log
    refine ⟨.inl ⟨written, failing, after, error, outcome⟩, fun sent entries => ?_⟩
    rw [outcome.deploy_eq, List.self_eq_append_right] at entries
    intro earlier later field parts short
    rw [entries] at short
    exact absurd short (Nat.not_lt_zero _)

/-- The name of a user, which no other user has. -/
def uniqueName : Field :=
  { Field.ofKind (.scalar .string) with
    name := some "name", owner := some "User", isUnique := true }

/-- The table of users. -/
def users : Table :=
  ⟨"User", Dictionary.empty.insert "name" uniqueName, false⟩

/-- The database of users. -/
def usersDatabase : Database :=
  ⟨⟨Dictionary.empty.insert "User" users⟩, Options.unset⟩

/-- Where only the index is rejected, the field has been accepted before. -/
theorem deploy_users_in_order :
    (∀ table ∈ [users], table.Declared) ∧
    Database.build [users] Options.unset = .ok usersDatabase ∧
    users ∈ usersDatabase.schema.tables.items ∧
    ∃ error final,
      deploy ⟨usersDatabase, users⟩ Script.backend.logged
        (Script.empty.failOn "INDEX" "no", Log.empty) = (.error error, final) ∧
      error.statementIndex? = some 2 ∧ error.failedField? = some "name" ∧
      ∃ previous text,
        [Subject.ofTable, .ofField uniqueName] = previous ++ [.ofField uniqueName] ∧
        (Subject.ofField uniqueName).text usersDatabase.schema users = .ok text ∧
        final.2.entries[previous.length]? = some ⟨Compiled.ofText text, false⟩ := by
  have declared : ∀ table ∈ [users], table.Declared := by
    intro table member
    rw [List.mem_singleton.mp member]
    have made : Table.ofFields "User"
        [("name", { Field.ofKind (.scalar .string) with isUnique := true })] = .ok users := rfl
    exact .ofFields made
  have built : Database.build [users] Options.unset = .ok usersDatabase := rfl
  have member : users ∈ usersDatabase.schema.tables.items := List.mem_cons_self
  refine ⟨declared, built, member, _, _, rfl, rfl, rfl, ?_⟩
  exact (deploy_sends_in_order declared built member Script.backend
    (Script.empty.failOn "INDEX" "no") Log.empty).2.2 _ rfl _ [] uniqueName rfl (by decide)

end TableHandle

end DocQuery
