/-
This file proves which parameters the comparisons of a filter get.

A comparison is bound under the name of its field and a number, and the numbers of a statement
ascend. Two facts carry everything. A numbered name tells its field and its number, whatever
digits and underscores the field ends in, since the digits behind the last underscore are those
of the number. And the names that a filter itself has bound bear numbers that are already
passed, so a search above them meets only names that were bound before the filter. The search
may therefore look at the growing bindings and still find the least number that is free in the
bindings from which the filter started.

The nesting of a filter plays no part in this: binding a condition binds its leaves in order.
-/

import Mathlib.Data.List.Nodup
import Mathlib.Data.List.Perm.Subperm
import Mathlib.Order.Bounds.Basic
import DocQuery.Statement.Compiled

namespace DocQuery

/-- Where a separator occurs in neither of two lists, it shows where each of them ends. -/
theorem List.append_cons_cancel {Item : Type} {separator : Item} {left right : List Item}
    {leftRest rightRest : List Item} (leftFree : separator ∉ left) (rightFree : separator ∉ right)
    (same : left ++ separator :: leftRest = right ++ separator :: rightRest) :
    left = right ∧ leftRest = rightRest := by
  rcases List.append_eq_append_iff.mp same with ⟨between, rfl, tail⟩ | ⟨between, rfl, tail⟩
  · cases between with
    | nil => exact ⟨by simp, by simpa using tail⟩
    | cons first later =>
      have head : separator = first := (List.cons.inj tail).1
      exact absurd (by simp [head]) rightFree
  · cases between with
    | nil => exact ⟨by simp, by simpa using tail.symm⟩
    | cons first later =>
      have head : separator = first := (List.cons.inj tail).1
      exact absurd (by simp [head]) leftFree

namespace Parameters

/-! ### Numbered names -/

theorem underscore_not_mem_repr (number : Nat) : '_' ∉ (Nat.repr number).toList := by
  intro member
  rw [Nat.repr_eq_ofList_toDigits, String.toList_ofList] at member
  exact absurd (Nat.isDigit_of_mem_toDigits (by decide) (by decide) member) (by decide)

/-- A numbered name determines its field and its number. -/
theorem numbered_injective {field other : String} {number next : Nat}
    (same : numbered field number = numbered other next) : field = other ∧ number = next := by
  have characters : (Nat.repr number).toList.reverse ++ '_' :: field.toList.reverse =
      (Nat.repr next).toList.reverse ++ '_' :: other.toList.reverse := by
    simpa [numbered] using congrArg (fun name => name.toList.reverse) same
  obtain ⟨digits, fields⟩ := List.append_cons_cancel
    (fun member => underscore_not_mem_repr number (List.mem_reverse.mp member))
    (fun member => underscore_not_mem_repr next (List.mem_reverse.mp member)) characters
  have read := Text.readDigits?_repr number
  rw [List.reverse_injective digits, Text.readDigits?_repr, Option.some_inj] at read
  exact ⟨String.toList_inj.mp (List.reverse_injective fields), read.symm⟩

/-! ### The search for a free number -/

/-- The finished runs of the search for a free number, which has no limit: from a number that is
taken it goes on to the next one, and at one that is free it ends. -/
inductive Search (taken : Nat → Bool) : Nat → Nat → Prop
  | found {number : Nat} (free : taken number = false) : Search taken number number
  | next {number result : Nat} (isTaken : taken number = true)
      (later : Search taken (number + 1) result) : Search taken number result

/-- Up to a number that is free, the search finds the least one. -/
theorem firstFree_isLeast (taken : Nat → Bool) (limit start : Nat)
    (free : ∃ number, start ≤ number ∧ number ≤ start + limit ∧ taken number = false) :
    IsLeast {number | start ≤ number ∧ taken number = false} (firstFree taken limit start) := by
  induction limit generalizing start with
  | zero =>
    obtain ⟨number, above, below, free⟩ := free
    have same : number = start := by omega
    subst same
    exact ⟨⟨le_rfl, free⟩, fun other member => member.1⟩
  | succ limit inductionHypothesis =>
    unfold firstFree
    split
    · rename_i here
      obtain ⟨number, above, below, free⟩ := free
      have later : start ≠ number := by
        rintro rfl
        simp [here] at free
      obtain ⟨found, least⟩ :=
        inductionHypothesis (start + 1) ⟨number, by omega, by omega, free⟩
      refine ⟨⟨le_trans (Nat.le_succ start) found.1, found.2⟩, ?_⟩
      rintro other ⟨otherAbove, otherFree⟩
      have different : start ≠ other := by
        rintro rfl
        simp [here] at otherFree
      exact least ⟨by omega, otherFree⟩
    · rename_i here
      exact ⟨⟨le_rfl, by simpa using here⟩, fun other member => member.1⟩

/-- The search ends if there is a least number that is free, and ends there. -/
theorem search_of_isLeast {taken : Nat → Bool} {start number : Nat}
    (least : IsLeast {number | start ≤ number ∧ taken number = false} number) :
    Search taken start number := by
  obtain ⟨⟨above, free⟩, below⟩ := least
  induction steps : number - start generalizing start with
  | zero =>
    have same : start = number := by omega
    subst same
    exact .found free
  | succ remaining inductionHypothesis =>
    have here : taken start = true := by
      by_contra other
      have := below ⟨le_rfl, by simpa using other⟩
      omega
    have passed : start ≠ number := by
      rintro rfl
      simp [here] at free
    refine .next here (inductionHypothesis ?_ (by omega) (by omega))
    exact fun other member => below ⟨le_trans (Nat.le_succ start) member.1, member.2⟩

/-- Among as many numbers as there are bindings and one more, one is free. -/
theorem exists_free (bindings : Bindings) (field : String) (start : Nat) :
    ∃ number, start ≤ number ∧ number ≤ start + bindings.size ∧
      bindings.contains (numbered field number) = false := by
  by_contra none
  push Not at none
  have candidates : ((List.range (bindings.size + 1)).map fun offset =>
      numbered field (start + offset)) ⊆ bindings.names := by
    intro name member
    obtain ⟨offset, bound, rfl⟩ := List.mem_map.mp member
    rw [List.mem_range] at bound
    have taken := none (start + offset) (by omega) (by omega)
    exact (bindings.contains_iff _).mp (by simpa using taken)
  have distinct : ((List.range (bindings.size + 1)).map fun offset =>
      numbered field (start + offset)).Nodup :=
    List.Nodup.map (fun first second same => by have := (numbered_injective same).2; omega)
      List.nodup_range
  have bound := (distinct.subperm candidates).length_le
  simp only [Dictionary.names, Entries.names, Dictionary.size, List.length_map,
    List.length_range] at bound
  omega

/-- Numbers behind the last whose names are not bound, as the search meets them. -/
theorem free_eq (parameters : Parameters) (field : String) :
    {number | parameters.lastNumber + 1 ≤ number ∧
      parameters.bindings.contains (numbered field number) = false} =
    {number | parameters.lastNumber < number ∧
      numbered field number ∉ parameters.bindings.names} := by
  ext number
  simp only [Set.mem_ofPred_eq, ← Dictionary.contains_iff, Bool.not_eq_true, Nat.succ_le_iff]

/-- The number of a comparison is the least one behind the last that is free. -/
theorem nextNumber_isLeast (parameters : Parameters) (field : String) :
    IsLeast {number | parameters.lastNumber < number ∧
      numbered field number ∉ parameters.bindings.names} (parameters.nextNumber field) := by
  have least := firstFree_isLeast
    (fun number => parameters.bindings.contains (numbered field number))
    parameters.bindings.size (parameters.lastNumber + 1)
    (exists_free parameters.bindings field (parameters.lastNumber + 1))
  rwa [free_eq] at least

/-- The search for the number of a comparison ends, and finds that number. -/
theorem search_nextNumber (parameters : Parameters) (field : String) :
    Search (fun number => parameters.bindings.contains (numbered field number))
      (parameters.lastNumber + 1) (parameters.nextNumber field) := by
  refine search_of_isLeast ?_
  rw [free_eq]
  exact parameters.nextNumber_isLeast field

/-! ### Comparisons one after the other -/

/-- Binds compared values one after the other. -/
def bindConstraints (parameters : Parameters) : List Constraint → Parameters
  | [] => parameters
  | constraint :: rest => (parameters.bindConstraint constraint).2.bindConstraints rest

theorem bindConstraints_append (parameters : Parameters) (left right : List Constraint) :
    parameters.bindConstraints (left ++ right) =
      (parameters.bindConstraints left).bindConstraints right := by
  induction left generalizing parameters with
  | nil => rfl
  | cons constraint rest inductionHypothesis => exact inductionHypothesis _

/-- A comparison takes no name from anything else: its entry is a new one at the end. -/
theorem entries_bindConstraint (parameters : Parameters) (constraint : Constraint) :
    (parameters.bindConstraint constraint).2.bindings.entries =
      parameters.bindings.entries ++ [((parameters.bindConstraint constraint).1, constraint.2)] :=
  Entries.put_of_not_mem constraint.2 (parameters.nextNumber_isLeast constraint.1).1.2

/-- The numbers of constraints one after the other: each is the least one above the number
before it under which the name of its field is not among the given names. -/
inductive Numbering (bound : List String) : Nat → List Constraint → List Nat → Prop
  | nil (last : Nat) : Numbering bound last [] []
  | cons {last number : Nat} {constraint : Constraint} {constraints : List Constraint}
      {numbers : List Nat}
      (least : IsLeast {candidate | last < candidate ∧ numbered constraint.1 candidate ∉ bound}
        number)
      (later : Numbering bound number constraints numbers) :
      Numbering bound last (constraint :: constraints) (number :: numbers)

/-- The entries of constraints under their numbers. -/
def numberedEntries (constraints : List Constraint) (numbers : List Nat) :
    List (String × Value) :=
  List.zipWith (fun constraint number => (numbered constraint.1 number, constraint.2))
    constraints numbers

theorem Numbering.length_eq {bound : List String} {last : Nat} {constraints : List Constraint}
    {numbers : List Nat} (numbering : Numbering bound last constraints numbers) :
    numbers.length = constraints.length := by
  induction numbering with
  | nil last => rfl
  | cons least later inductionHypothesis =>
    rw [List.length_cons, List.length_cons, inductionHypothesis]

/-- Parameters that comparisons have grown from given bindings: nothing was removed, and what
was added bears numbers that are already passed. -/
structure GrownFrom (initial : Bindings) (parameters : Parameters) : Prop where
  kept : initial.names ⊆ parameters.bindings.names
  passed : ∀ name ∈ parameters.bindings.names, name ∉ initial.names →
    ∃ field number, name = numbered field number ∧ number ≤ parameters.lastNumber

namespace GrownFrom

theorem refl (parameters : Parameters) : GrownFrom parameters.bindings parameters :=
  ⟨fun _ member => member, fun _ member fresh => absurd member fresh⟩

variable {initial : Bindings} {parameters : Parameters}

/-- A number that is not passed yet is taken only by what was bound at the start. -/
theorem mem_names_iff (grown : GrownFrom initial parameters) (field : String) {number : Nat}
    (above : parameters.lastNumber < number) :
    numbered field number ∈ parameters.bindings.names ↔
      numbered field number ∈ initial.names := by
  constructor
  · intro member
    by_contra fresh
    obtain ⟨other, passed, same, bound⟩ := grown.passed _ member fresh
    have equal := (numbered_injective same).2
    omega
  · exact fun member => grown.kept member

/-- The search through the growing bindings finds the number that is least in view of what was
bound at the start. -/
theorem nextNumber_isLeast (grown : GrownFrom initial parameters) (field : String) :
    IsLeast {number | parameters.lastNumber < number ∧ numbered field number ∉ initial.names}
      (parameters.nextNumber field) := by
  have least := parameters.nextNumber_isLeast field
  have same : {number | parameters.lastNumber < number ∧
      numbered field number ∉ parameters.bindings.names} =
      {number | parameters.lastNumber < number ∧ numbered field number ∉ initial.names} := by
    ext number
    exact and_congr_right fun above => not_congr (grown.mem_names_iff field above)
  rwa [same] at least

theorem bindConstraint (grown : GrownFrom initial parameters) (constraint : Constraint) :
    GrownFrom initial (parameters.bindConstraint constraint).2 := by
  have names : (parameters.bindConstraint constraint).2.bindings.names =
      parameters.bindings.names ++
        [numbered constraint.1 (parameters.nextNumber constraint.1)] := by
    rw [Dictionary.names, entries_bindConstraint, Entries.names_append]
    rfl
  have above := (parameters.nextNumber_isLeast constraint.1).1.1
  refine ⟨?_, ?_⟩
  · rw [names]
    exact fun name member => List.mem_append_left _ (grown.kept member)
  · intro name member fresh
    rw [names, List.mem_append, List.mem_singleton] at member
    rcases member with earlier | rfl
    · obtain ⟨field, number, rfl, bound⟩ := grown.passed name earlier fresh
      exact ⟨field, number, rfl, le_trans bound (le_of_lt above)⟩
    · exact ⟨constraint.1, _, rfl, le_rfl⟩

/-- Constraints bound one after the other get the numbers that are least in view of what was
bound at the start, and their entries go to the end. -/
theorem exists_numbering (constraints : List Constraint)
    (grown : GrownFrom initial parameters) :
    ∃ numbers, Numbering initial.names parameters.lastNumber constraints numbers ∧
      (parameters.bindConstraints constraints).bindings.entries =
        parameters.bindings.entries ++ numberedEntries constraints numbers := by
  induction constraints generalizing parameters with
  | nil => exact ⟨[], .nil _, by simp [bindConstraints, numberedEntries]⟩
  | cons constraint rest inductionHypothesis =>
    obtain ⟨numbers, numbering, entries⟩ :=
      inductionHypothesis (grown.bindConstraint constraint)
    refine ⟨parameters.nextNumber constraint.1 :: numbers,
      .cons (grown.nextNumber_isLeast constraint.1) numbering, ?_⟩
    rw [bindConstraints, entries, entries_bindConstraint, List.append_assoc]
    rfl

end GrownFrom

end Parameters

/-! ### Nesting plays no part -/

namespace Condition

mutual

/-- Binding a condition binds its leaves in order. -/
theorem bind_snd : (condition : Condition Constraint) → (parameters : Parameters) →
    (condition.bind parameters).2 = parameters.bindConstraints condition.leaves
  | .compare constraint, parameters => by
    rw [bind, leaves, Parameters.bindConstraints, Parameters.bindConstraints]
  | .group connective members, parameters => by
    rw [bind, leaves]
    exact bindMembers_snd members parameters

theorem bindMembers_snd : (members : List (Condition Constraint)) → (parameters : Parameters) →
    (bindMembers members parameters).2 = parameters.bindConstraints (leavesOf members)
  | [], parameters => by rw [bindMembers, leavesOf, Parameters.bindConstraints]
  | member :: rest, parameters => by
    rw [bindMembers, leavesOf, Parameters.bindConstraints_append, ← bind_snd member parameters]
    exact bindMembers_snd rest _

end

end Condition

namespace Filter

/-- A filter binds its constraints in order. -/
theorem clause_snd (filter : Filter) (parameters : Parameters) :
    (clause (some filter) parameters).2 = parameters.bindConstraints filter.constraints := by
  rw [clause, Option.bind_some, ← leaves_condition? filter]
  cases filter.condition? with
  | none => rfl
  | some condition => exact condition.bind_snd parameters

/-- What a filter binds. Every search for a free number ends. The bindings from which the filter
starts are left as they are, and behind them come its constraints in order, each under the least
number above the one before it that they leave free. So the names are new and distinct, there is
one for each constraint, and filters with the same constraints bind alike. -/
theorem bindings_clause (filter : Filter) (initial : Bindings) :
    (∀ (parameters : Parameters) (field : String),
      Parameters.Search
        (fun number => parameters.bindings.contains (Parameters.numbered field number))
        (parameters.lastNumber + 1) (parameters.nextNumber field)) ∧
    ∃ numbers : List Nat,
      Parameters.Numbering initial.names 0 filter.constraints numbers ∧
      (clause (some filter) (Parameters.ofBindings initial)).2.bindings.entries =
        initial.entries ++ Parameters.numberedEntries filter.constraints numbers ∧
      (Entries.names (Parameters.numberedEntries filter.constraints numbers)).Nodup ∧
      (∀ name ∈ Entries.names (Parameters.numberedEntries filter.constraints numbers),
        name ∉ initial.names) ∧
      (Parameters.numberedEntries filter.constraints numbers).length = filter.constraintCount ∧
      ∀ other : Filter, other.constraints = filter.constraints →
        (clause (some other) (Parameters.ofBindings initial)).2.bindings =
          (clause (some filter) (Parameters.ofBindings initial)).2.bindings := by
  refine ⟨fun parameters field => parameters.search_nextNumber field, ?_⟩
  obtain ⟨numbers, numbering, entries⟩ :=
    (Parameters.GrownFrom.refl (Parameters.ofBindings initial)).exists_numbering
      filter.constraints
  rw [← clause_snd] at entries
  have distinct := (clause (some filter) (Parameters.ofBindings initial)).2.bindings.distinct
  rw [entries, Entries.names_append, List.nodup_append] at distinct
  obtain ⟨-, nodup, apart⟩ := distinct
  refine ⟨numbers, numbering, entries, nodup, ?_, ?_, ?_⟩
  · intro name member earlier
    exact apart name earlier name member rfl
  · rw [Parameters.numberedEntries, List.length_zipWith, numbering.length_eq, Nat.min_self,
      length_constraints]
  · intro other same
    rw [clause_snd, clause_snd, same]

end Filter

end DocQuery
