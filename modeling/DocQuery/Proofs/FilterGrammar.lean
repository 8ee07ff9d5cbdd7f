/-
This file proves which JSON trees are read as filters, and that no constraint of them is lost.

By the grammar of these trees, a filter is an object whose branches are arrays of filters. Whatever
stands under another name is the value of a constraint and is not looked into, even if it is an
object with names of branches. Reading takes the entries of an object one after the other, so there
is a step for each of them, which fills a branch or adds a constraint. As no name occurs twice in an
object, a branch that is filled was empty before and a constraint that is added is a new one, and so
each step adds exactly the constraints of its entry.
-/

import Mathlib.Data.List.Forall2
import DocQuery.Filter.Json
import DocQuery.Proofs.JsonNames

namespace DocQuery

namespace Json

/-! ### The grammar -/

/-- Whether the name is that of a branch of a filter. -/
def isBranchName (name : String) : Bool :=
  name == "AND" || name == "OR"

theorem isBranchName_iff (name : String) :
    isBranchName name = true ↔ name = "AND" ∨ name = "OR" := by
  simp [isBranchName]

theorem isBranchName_and : isBranchName "AND" = true := by decide

theorem isBranchName_or : isBranchName "OR" = true := by decide

mutual

/-- The trees of filters: objects in which every branch is the tree of one. Entries with other names
are not restricted. -/
inductive IsFilter : Json → Prop
  | object {entries : List (String × Json)}
      (branches : ∀ entry ∈ entries, isBranchName entry.1 = true → IsBranch entry.2) :
      IsFilter (.object entries)

/-- The trees of branches: arrays of trees of filters. -/
inductive IsBranch : Json → Prop
  | array {items : List Json} (filters : ∀ item ∈ items, IsFilter item) : IsBranch (.array items)

end

theorem isFilter_object_iff (entries : List (String × Json)) :
    IsFilter (.object entries) ↔
      ∀ entry ∈ entries, isBranchName entry.1 = true → IsBranch entry.2 :=
  ⟨fun | .object branches => branches, .object⟩

theorem isBranch_array_iff (items : List Json) :
    IsBranch (.array items) ↔ ∀ item ∈ items, IsFilter item :=
  ⟨fun | .array filters => filters, .array⟩

/-- The constraints that the entries of an object state themselves: those with other names than the
branches, in order, with their values. -/
def ownConstraints (entries : List (String × Json)) : List Constraint :=
  (entries.filter fun entry => !isBranchName entry.1).map fun entry =>
    (entry.1, Value.ofJson entry.2)

theorem ownConstraints_cons (entry : String × Json) (rest : List (String × Json)) :
    ownConstraints (entry :: rest) =
      if isBranchName entry.1 then ownConstraints rest
      else (entry.1, Value.ofJson entry.2) :: ownConstraints rest := by
  cases isBranch : isBranchName entry.1 with
  | true => simp [ownConstraints, isBranch]
  | false => simp [ownConstraints, isBranch]

theorem length_ownConstraints (entries : List (String × Json)) :
    (ownConstraints entries).length = entries.countP fun entry => !isBranchName entry.1 := by
  rw [ownConstraints, List.length_map, List.countP_eq_length_filter]

theorem ownConstraints_append (left right : List (String × Json)) :
    ownConstraints (left ++ right) = ownConstraints left ++ ownConstraints right := by
  rw [ownConstraints, List.filter_append, List.map_append]
  rfl

mutual

/-- The entries of all objects that stand for filters in the tree of a filter: those of the tree
itself and of the items of its branches, at every depth. -/
def filterEntries : Json → List (String × Json)
  | .object entries => entries ++ entriesBelow entries
  | _ => []

/-- The entries of the objects that stand for filters in the branches among these entries. -/
def entriesBelow : List (String × Json) → List (String × Json)
  | [] => []
  | (name, tree) :: rest =>
    (if isBranchName name then entriesInBranch tree else []) ++ entriesBelow rest

/-- The entries of the objects that stand for filters in a branch. -/
def entriesInBranch : Json → List (String × Json)
  | .array items => entriesInItems items
  | _ => []

/-- The entries of the objects that stand for filters in the items of a branch. -/
def entriesInItems : List Json → List (String × Json)
  | [] => []
  | item :: rest => item.filterEntries ++ entriesInItems rest

end

/-- The constraints that an entry stands for, its own one or those of its branch. -/
def constraintsAt (entry : String × Json) : List Constraint :=
  if isBranchName entry.1 then ownConstraints (entriesInBranch entry.2)
  else [(entry.1, Value.ofJson entry.2)]

/-- What the entries of an object stand for are its own constraints and those of the objects
below. -/
theorem flatMap_constraintsAt_perm (entries : List (String × Json)) :
    (entries.flatMap constraintsAt).Perm
      (ownConstraints entries ++ ownConstraints (entriesBelow entries)) := by
  induction entries with
  | nil => exact .nil
  | cons entry rest inductionHypothesis =>
    obtain ⟨name, tree⟩ := entry
    rw [List.flatMap_cons, ownConstraints_cons, entriesBelow, constraintsAt]
    cases isBranchName name with
    | true =>
      rw [if_pos rfl, if_pos rfl, if_pos rfl, ownConstraints_append]
      -- The constraints of this branch move behind those that the later entries state.
      exact (inductionHypothesis.append_left _).trans (List.perm_append_comm_assoc ..)
    | false =>
      rw [if_neg Bool.false_ne_true, if_neg Bool.false_ne_true, if_neg Bool.false_ne_true,
        List.nil_append, List.singleton_append, List.cons_append]
      exact inductionHypothesis.cons _

end Json

namespace Filter

open Json (isBranchName ownConstraints)

/-! ### One entry after the other -/

/-- What reading one entry makes of a filter. -/
inductive Adds (filter : Filter) : String × Json → Filter → Prop
  | all {tree : Json} {filters : List Filter} (read : ofBranch "AND" tree = .ok filters) :
      Adds filter ("AND", tree) { filter with all := filters }
  | any {tree : Json} {filters : List Filter} (read : ofBranch "OR" tree = .ok filters) :
      Adds filter ("OR", tree) { filter with any := filters }
  | field {name : String} (tree : Json) (other : isBranchName name = false) :
      Adds filter (name, tree)
        { filter with fields := filter.fields.insert name (Value.ofJson tree) }

variable {filter next result : Filter} {entry : String × Json} {rest : List (String × Json)}

/-- An entry is read exactly if it is no branch or one that is read. -/
theorem exists_adds_iff (filter : Filter) (entry : String × Json) :
    (∃ next, Adds filter entry next) ↔
      (isBranchName entry.1 = true → ∃ filters, ofBranch entry.1 entry.2 = .ok filters) := by
  constructor
  · rintro ⟨next, adds⟩ isBranch
    cases adds with
    | all read => exact ⟨_, read⟩
    | any read => exact ⟨_, read⟩
    | field tree other => exact absurd (isBranch.symm.trans other) Bool.true_eq_false.mp
  · intro readable
    obtain ⟨name, tree⟩ := entry
    cases isBranch : isBranchName name with
    | false => exact ⟨_, .field tree isBranch⟩
    | true =>
      obtain ⟨filters, read⟩ := readable isBranch
      rcases (Json.isBranchName_iff name).mp isBranch with rfl | rfl
      · exact ⟨_, .all read⟩
      · exact ⟨_, .any read⟩

/-- Entries are read one after the other. -/
theorem ofEntries_cons_eq_ok :
    ofEntries filter (entry :: rest) = .ok result ↔
      ∃ next, Adds filter entry next ∧ ofEntries next rest = .ok result := by
  obtain ⟨name, tree⟩ := entry
  constructor
  · intro read
    rw [ofEntries] at read
    by_cases isAll : name = "AND"
    · subst isAll
      rw [if_pos rfl] at read
      cases branch : ofBranch "AND" tree with
      | error error =>
        rw [branch] at read
        cases read
      | ok filters =>
        rw [branch] at read
        exact ⟨_, .all branch, read⟩
    · rw [if_neg isAll] at read
      by_cases isAny : name = "OR"
      · subst isAny
        rw [if_pos rfl] at read
        cases branch : ofBranch "OR" tree with
        | error error =>
          rw [branch] at read
          cases read
        | ok filters =>
          rw [branch] at read
          exact ⟨_, .any branch, read⟩
      · rw [if_neg isAny] at read
        have other : isBranchName name = false := by simp [isBranchName, isAll, isAny]
        exact ⟨_, .field tree other, read⟩
  · rintro ⟨next, adds, read⟩
    rw [ofEntries]
    cases adds with
    | all branch =>
      rw [if_pos rfl, branch]
      exact read
    | any branch =>
      rw [if_neg (by decide), if_pos rfl, branch]
      exact read
    | field tree other =>
      have noBranch := mt (Json.isBranchName_iff name).mpr (Bool.eq_false_iff.mp other)
      rw [if_neg fun same => noBranch (.inl same), if_neg fun same => noBranch (.inr same)]
      exact read

/-- The items of a branch are read one by one. -/
theorem ofItems_eq_ok {items : List Json} {filters : List Filter} :
    ofItems items = .ok filters ↔
      List.Forall₂ (fun item filter => ofJson item = .ok filter) items filters := by
  induction items generalizing filters with
  | nil =>
    rw [ofItems, List.forall₂_nil_left_iff, Except.ok.injEq, eq_comm]
  | cons item rest inductionHypothesis =>
    rw [ofItems, List.forall₂_cons_left_iff]
    cases first : ofJson item with
    | error error => exact iff_of_false nofun fun ⟨_, _, read, _⟩ => nomatch read
    | ok filter =>
      cases later : ofItems rest with
      | error error =>
        refine iff_of_false nofun fun ⟨_, others, _, read, _⟩ => ?_
        rw [← inductionHypothesis, later] at read
        cases read
      | ok others =>
        constructor
        · rintro ⟨⟩
          exact ⟨filter, others, rfl, inductionHypothesis.mp later, rfl⟩
        · rintro ⟨_, _, ⟨⟩, read, rfl⟩
          rw [← inductionHypothesis, later] at read
          cases read
          rfl

/-! ### What is accepted -/

mutual

/-- Exactly the trees of filters are read. -/
theorem exists_ofJson_iff : (tree : Json) →
    ((∃ filter, ofJson tree = .ok filter) ↔ tree.IsFilter)
  | .object entries => by
    rw [ofJson, Json.isFilter_object_iff]
    exact exists_ofEntries_iff entries Filter.empty
  | .null | .bool _ | .integer _ | .float _ | .string _ | .array _ => iff_of_false nofun nofun

theorem exists_ofEntries_iff : (entries : List (String × Json)) → (filter : Filter) →
    ((∃ result, ofEntries filter entries = .ok result) ↔
      ∀ entry ∈ entries, isBranchName entry.1 = true → entry.2.IsBranch)
  | [], filter => iff_of_true ⟨filter, rfl⟩ (List.forall_mem_nil _)
  | (name, tree) :: rest, filter => by
    simp only [ofEntries_cons_eq_ok, List.forall_mem_cons]
    rw [← exists_ofBranch_iff name tree, ← exists_adds_iff filter (name, tree), exists_comm]
    simp only [exists_and_left, exists_ofEntries_iff rest, exists_and_right]

theorem exists_ofBranch_iff : (name : String) → (tree : Json) →
    ((∃ filters, ofBranch name tree = .ok filters) ↔ tree.IsBranch)
  | _, .array items => by
    rw [Json.isBranch_array_iff]
    exact exists_ofItems_iff items
  | _, .null | _, .bool _ | _, .integer _ | _, .float _ | _, .string _ | _, .object _ =>
    iff_of_false nofun nofun

theorem exists_ofItems_iff : (items : List Json) →
    ((∃ filters, ofItems items = .ok filters) ↔ ∀ item ∈ items, item.IsFilter)
  | [] => iff_of_true ⟨[], rfl⟩ (List.forall_mem_nil _)
  | item :: rest => by
    rw [List.forall_mem_cons, ← exists_ofJson_iff item, ← exists_ofItems_iff rest]
    simp only [ofItems_eq_ok, List.forall₂_cons_left_iff]
    constructor
    · rintro ⟨_, filter, filters, first, later, -⟩
      exact ⟨⟨filter, first⟩, filters, later⟩
    · rintro ⟨⟨filter, first⟩, filters, later⟩
      exact ⟨_, filter, filters, first, later, rfl⟩

end

/-! ### What an entry changes -/

/-- The filters of the branch with this name. -/
def branch (filter : Filter) (name : String) : List Filter :=
  if name = "AND" then filter.all else filter.any

theorem branch_and (filter : Filter) : filter.branch "AND" = filter.all := if_pos rfl

theorem branch_or (filter : Filter) : filter.branch "OR" = filter.any := if_neg (by decide)

theorem constraints_eq (filter : Filter) :
    filter.constraints =
      filter.fields.entries ++ constraintsOf filter.all ++ constraintsOf filter.any := by
  obtain ⟨fields, all, any⟩ := filter
  rw [constraints]

/-- A filter lacks names if nothing stands yet in the places where entries with these names go. -/
structure Lacks (filter : Filter) (names : List String) : Prop where
  all : "AND" ∈ names → filter.all = []
  any : "OR" ∈ names → filter.any = []
  fields : ∀ name ∈ names, name ∉ filter.fields.names

theorem empty_lacks (names : List String) : Filter.empty.Lacks names :=
  ⟨fun _ => rfl, fun _ => rfl, fun _ _ => List.not_mem_nil⟩

section

variable {name : String} {names : List String} {tree : Json}

/-- A field that the filter lacks goes behind the ones that are there. -/
theorem Lacks.entries_insert (lacks : filter.Lacks (name :: names)) (value : Value) :
    (filter.fields.insert name value).entries = filter.fields.entries ++ [(name, value)] :=
  Entries.put_of_not_mem value (lacks.fields name List.mem_cons_self)

/-- After an entry, a filter still lacks the other names that it lacked before. -/
theorem Adds.lacks (adds : Adds filter entry next) (lacks : filter.Lacks (entry.1 :: names))
    (new : entry.1 ∉ names) : next.Lacks names := by
  cases adds with
  | all read =>
    exact ⟨fun member => absurd member new, fun member => lacks.any (.tail _ member),
      fun name member => lacks.fields name (.tail _ member)⟩
  | any read =>
    exact ⟨fun member => lacks.all (.tail _ member), fun member => absurd member new,
      fun name member => lacks.fields name (.tail _ member)⟩
  | @field key tree other =>
    refine ⟨fun member => lacks.all (.tail _ member), fun member => lacks.any (.tail _ member),
      fun name member => ?_⟩
    rw [Dictionary.names_insert, if_neg (lacks.fields key List.mem_cons_self), List.mem_append,
      List.mem_singleton, not_or]
    exact ⟨lacks.fields name (.tail _ member), fun same => new (same ▸ member)⟩

/-- A field is added behind the others, and a branch changes none. -/
theorem Adds.entries_fields (adds : Adds filter entry next)
    (lacks : filter.Lacks (entry.1 :: names)) (rest : List (String × Json)) :
    next.fields.entries ++ ownConstraints rest =
      filter.fields.entries ++ ownConstraints (entry :: rest) := by
  rw [Json.ownConstraints_cons]
  cases adds with
  | all read => rw [if_pos Json.isBranchName_and]
  | any read => rw [if_pos Json.isBranchName_or]
  | field tree other =>
    rw [if_neg (Bool.eq_false_iff.mp other), lacks.entries_insert, List.append_assoc,
      List.singleton_append]

/-- The branch of the entry's name is the one that the entry writes. -/
theorem Adds.branch_self (adds : Adds filter (name, tree) next)
    (isBranch : isBranchName name = true) : ofBranch name tree = .ok (next.branch name) := by
  cases adds with
  | all read => exact read
  | any read => exact read
  | field tree other => exact absurd (isBranch.symm.trans other) Bool.true_eq_false.mp

/-- An entry changes no branch with another name. -/
theorem Adds.branch_other (adds : Adds filter entry next) (isBranch : isBranchName name = true)
    (different : entry.1 ≠ name) : next.branch name = filter.branch name := by
  cases adds with
  | all read => rw [branch, branch, if_neg different.symm, if_neg different.symm]
  | any read =>
    have isAll := ((Json.isBranchName_iff name).mp isBranch).resolve_right different.symm
    rw [branch, branch, if_pos isAll, if_pos isAll]
  | field tree other => rfl

/-- An entry adds exactly the constraints that it stands for, if a branch does. -/
theorem Adds.constraints_perm (adds : Adds filter (name, tree) next)
    (lacks : filter.Lacks (name :: names))
    (ofFilters : ∀ filters, ofBranch name tree = .ok filters →
      (constraintsOf filters).Perm (ownConstraints (Json.entriesInBranch tree))) :
    next.constraints.Perm (filter.constraints ++ Json.constraintsAt (name, tree)) := by
  rw [constraints_eq, constraints_eq, Json.constraintsAt]
  cases adds with
  | all read =>
    rw [if_pos Json.isBranchName_and, lacks.all List.mem_cons_self, constraintsOf, List.append_nil,
      List.append_assoc, List.append_assoc]
    exact (((ofFilters _ read).append_right _).trans List.perm_append_comm).append_left _
  | any read =>
    rw [if_pos Json.isBranchName_or, lacks.any List.mem_cons_self, constraintsOf, List.append_nil]
    exact (ofFilters _ read).append_left _
  | field tree other =>
    rw [if_neg (Bool.eq_false_iff.mp other), lacks.entries_insert]
    simp only [List.append_assoc]
    -- The new field stands before both branches.
    exact (List.perm_append_comm.trans (.of_eq (List.append_assoc _ _ _))).append_left _

end

/-! ### What all entries make -/

section

variable {name : String} {tree : Json} {entries : List (String × Json)}

/-- The fields are the entries that are no branches, in order. -/
theorem entries_fields_of_ofEntries (read : ofEntries filter entries = .ok result)
    (distinct : (Entries.names entries).Nodup) (lacks : filter.Lacks (Entries.names entries)) :
    result.fields.entries = filter.fields.entries ++ ownConstraints entries := by
  induction entries generalizing filter with
  | nil =>
    cases read
    exact (List.append_nil _).symm
  | cons entry rest inductionHypothesis =>
    obtain ⟨next, adds, later⟩ := ofEntries_cons_eq_ok.mp read
    obtain ⟨new, others⟩ := List.nodup_cons.mp distinct
    rw [inductionHypothesis later others (adds.lacks lacks new), adds.entries_fields lacks]

/-- A branch without an entry stays as it is. -/
theorem branch_of_ofEntries (read : ofEntries filter entries = .ok result)
    (isBranch : isBranchName name = true) (absent : name ∉ Entries.names entries) :
    result.branch name = filter.branch name := by
  induction entries generalizing filter with
  | nil =>
    cases read
    rfl
  | cons entry rest inductionHypothesis =>
    obtain ⟨next, adds, later⟩ := ofEntries_cons_eq_ok.mp read
    rw [Entries.names_cons, List.mem_cons, not_or] at absent
    rw [inductionHypothesis later absent.2, adds.branch_other isBranch (Ne.symm absent.1)]

/-- A branch with an entry is the one that the entry writes. -/
theorem ofBranch_of_ofEntries (read : ofEntries filter entries = .ok result)
    (distinct : (Entries.names entries).Nodup) (isBranch : isBranchName name = true)
    (member : (name, tree) ∈ entries) : ofBranch name tree = .ok (result.branch name) := by
  induction entries generalizing filter with
  | nil => cases member
  | cons entry rest inductionHypothesis =>
    obtain ⟨next, adds, later⟩ := ofEntries_cons_eq_ok.mp read
    obtain ⟨new, others⟩ := List.nodup_cons.mp distinct
    rcases List.mem_cons.mp member with rfl | behind
    · rw [branch_of_ofEntries later isBranch new, adds.branch_self isBranch]
    · exact inductionHypothesis later others behind

end

mutual

/-- The constraints are those of the objects that stand for filters. -/
theorem constraints_ofJson_perm : (tree : Json) → {filter : Filter} →
    tree.HasDistinctNames → ofJson tree = .ok filter →
    filter.constraints.Perm (ownConstraints tree.filterEntries)
  | .object entries, filter, distinct, read => by
    rw [Json.filterEntries, Json.ownConstraints_append]
    exact (constraints_ofEntries_perm entries distinct.1 distinct.2 (empty_lacks _) read).trans
      (Json.flatMap_constraintsAt_perm entries)
  | .null, _, _, read | .bool _, _, _, read | .integer _, _, _, read | .float _, _, _, read
  | .string _, _, _, read | .array _, _, _, read => nomatch read

theorem constraints_ofEntries_perm : (entries : List (String × Json)) → {filter result : Filter} →
    (Entries.names entries).Nodup → Json.HaveDistinctNamesIn entries →
    filter.Lacks (Entries.names entries) → ofEntries filter entries = .ok result →
    result.constraints.Perm (filter.constraints ++ entries.flatMap Json.constraintsAt)
  | [], filter, result, _, _, _, read => by
    cases read
    exact .of_eq (List.append_nil _).symm
  | (name, tree) :: rest, filter, result, distinct, within, lacks, read => by
    obtain ⟨next, adds, later⟩ := ofEntries_cons_eq_ok.mp read
    obtain ⟨new, others⟩ := List.nodup_cons.mp distinct
    have first : next.constraints.Perm (filter.constraints ++ Json.constraintsAt (name, tree)) :=
      adds.constraints_perm lacks fun _ => constraints_ofBranch_perm name tree within.1
    rw [List.flatMap_cons, ← List.append_assoc]
    exact (constraints_ofEntries_perm rest others within.2 (adds.lacks lacks new) later).trans
      (first.append_right _)

theorem constraints_ofBranch_perm : (name : String) → (tree : Json) → {filters : List Filter} →
    tree.HasDistinctNames → ofBranch name tree = .ok filters →
    (constraintsOf filters).Perm (ownConstraints (Json.entriesInBranch tree))
  | _, .array items, _, distinct, read => constraints_ofItems_perm items distinct read
  | _, .null, _, _, read | _, .bool _, _, _, read | _, .integer _, _, _, read
  | _, .float _, _, _, read | _, .string _, _, _, read | _, .object _, _, _, read => nomatch read

theorem constraints_ofItems_perm : (items : List Json) → {filters : List Filter} →
    Json.HaveDistinctNames items → ofItems items = .ok filters →
    (constraintsOf filters).Perm (ownConstraints (Json.entriesInItems items))
  | [], filters, _, read => by
    cases read
    exact .nil
  | item :: rest, filters, distinct, read => by
    obtain ⟨filter, others, first, later, rfl⟩ :=
      List.forall₂_cons_left_iff.mp (ofItems_eq_ok.mp read)
    rw [constraintsOf, Json.entriesInItems, Json.ownConstraints_append]
    exact (constraints_ofJson_perm item distinct.1 first).append
      (constraints_ofItems_perm rest distinct.2 (ofItems_eq_ok.mpr later))

end

/-! ### Nothing is lost -/

/-- Exactly the trees of filters are read: objects in which an entry `AND` or `OR`, if there is one,
is an array of trees of filters, whatever the other entries are.

In a tree that a text writes, no object has a name twice. Let such a tree be read as a filter. The
fields of the filter are then the entries that are no branches, in order and with their values. The
filters of a branch are those of the items of its array, one for each and in order, and there are
none if the branch is absent. The constraints in the whole filter are those that the objects for
filters in the tree state, so there are as many as there are entries in these objects that are no
branches. -/
theorem ofJson_exact (tree : Json) :
    ((∃ filter, ofJson tree = .ok filter) ↔ tree.IsFilter) ∧
    (∀ text, Json.read? text = some tree → tree.HasDistinctNames) ∧
    ∀ filter, ofJson tree = .ok filter → tree.HasDistinctNames →
      ∃ entries, tree = .object entries ∧
        filter.fields.entries = ownConstraints entries ∧
        (∀ items, ("AND", .array items) ∈ entries →
          List.Forall₂ (fun item read => ofJson item = .ok read) items filter.all) ∧
        ("AND" ∉ Entries.names entries → filter.all = []) ∧
        (∀ items, ("OR", .array items) ∈ entries →
          List.Forall₂ (fun item read => ofJson item = .ok read) items filter.any) ∧
        ("OR" ∉ Entries.names entries → filter.any = []) ∧
        filter.constraints.Perm (ownConstraints tree.filterEntries) ∧
        filter.constraintCount = tree.filterEntries.countP fun entry => !isBranchName entry.1 := by
  refine ⟨exists_ofJson_iff tree, fun _ => Json.hasDistinctNames_of_read?,
    fun filter read distinct => ?_⟩
  have listed := constraints_ofJson_perm tree distinct read
  obtain ⟨entries, rfl⟩ : ∃ entries, tree = .object entries := by
    cases (exists_ofJson_iff tree).mp ⟨filter, read⟩
    exact ⟨_, rfl⟩
  have ofBoth : ∀ name, isBranchName name = true →
      (∀ items, (name, .array items) ∈ entries →
        List.Forall₂ (fun item read => ofJson item = .ok read) items (filter.branch name)) ∧
      (name ∉ Entries.names entries → filter.branch name = Filter.empty.branch name) :=
    fun name isBranch =>
      ⟨fun items member =>
        ofItems_eq_ok.mp (ofBranch_of_ofEntries read distinct.1 isBranch member),
      branch_of_ofEntries read isBranch⟩
  obtain ⟨ofAll, noAll⟩ := ofBoth "AND" Json.isBranchName_and
  obtain ⟨ofAny, noAny⟩ := ofBoth "OR" Json.isBranchName_or
  rw [branch_and] at noAll
  rw [branch_or] at noAny
  simp only [branch_and] at ofAll
  simp only [branch_or] at ofAny
  refine ⟨entries, rfl, ?_, ofAll, noAll, ofAny, noAny, listed, ?_⟩
  · exact entries_fields_of_ofEntries read distinct.1 (empty_lacks _)
  · rw [← length_constraints, listed.length_eq, Json.length_ownConstraints]

/-- The tree of `{"OR":[{"a":1},{"AND":[{"b":{"AND":true}}]}],"c":{"OR":7},"AND":[]}`. -/
def nestedTree : Json :=
  .object
    [("OR", .array
      [.object [("a", .integer 1)],
        .object [("AND", .array [.object [("b", .object [("AND", .bool true)])]])]]),
      ("c", .object [("OR", .integer 7)]), ("AND", .array [])]

/-- What is under `b` and `c` is a value, so its names are no branches. -/
theorem ofJson_exact_nested :
    nestedTree.HasDistinctNames ∧ nestedTree.IsFilter ∧
    ∃ filter, ofJson nestedTree = .ok filter ∧
      filter.fields.entries = [("c", Value.ofJson (.object [("OR", .integer 7)]))] ∧
      filter.all = [] ∧ filter.any.length = 2 ∧ filter.constraintCount = 3 := by
  have distinct : nestedTree.HasDistinctNames := by
    simp [nestedTree, Json.HasDistinctNames, Json.HaveDistinctNames, Json.HaveDistinctNamesIn]
  have isFilter : nestedTree.IsFilter := by
    simp [nestedTree, Json.isFilter_object_iff, Json.isBranch_array_iff, Json.isBranchName]
  obtain ⟨filter, read⟩ := (ofJson_exact nestedTree).1.mpr isFilter
  obtain ⟨entries, same, fields, ofAll, -, ofAny, -, -, count⟩ :=
    (ofJson_exact nestedTree).2.2 filter read distinct
  cases same
  have all := ofAll [] (by simp)
  have any := (ofAny _ List.mem_cons_self).length_eq
  exact ⟨distinct, isFilter, filter, read, fields, List.forall₂_nil_left_iff.mp all, any.symm,
    count⟩

end Filter

end DocQuery
